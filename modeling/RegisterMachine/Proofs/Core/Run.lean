import RegisterMachine.Proofs.Core.Step

/-!
# Bounded runs

A run of at most `limit` steps is the beginning of an unbounded succession of steps. It is cut off
where a step fails, where the core has stopped, or at the limit.

* `Core.Retires`: that so many steps in a row find the core running and succeed.
* `Core.Paced`: the ways for a bounded run to end.
* `Core.paced_stepsFrom`: there is no other.
-/

namespace RegisterMachine.Core

open Exec

variable {δ : Type} [Device δ]

/-- The first `n` steps find the core running, and succeed. -/
def Retires (start : Core δ) (log : Log) (n : ℕ) : Prop :=
  ∀ k < n, (start.after log k).status = .running ∧ start.stepOutcome log k = .ok ()

/-- What comes of at most `limit` steps: how many succeed, whether there is a fault, and the core
and the log that are left. -/
inductive Paced (limit : ℕ) (start : Core δ) (log : Log) :
    ℕ → Except Fault Unit → Core δ × Log → Prop
  /-- The core has stopped, or the limit is reached. -/
  | stopped {n : ℕ} (hn : n ≤ limit) (hretires : start.Retires log n)
      (hstop : n = limit ∨ (start.after log n).status ≠ .running) :
      Paced limit start log n (.ok ()) (iterate (step .standard) start log n)
  /-- The next step faults. -/
  | faulted {n : ℕ} {fault : Fault} (hn : n < limit) (hretires : start.Retires log n)
      (hr : (start.after log n).status = .running)
      (hfault : start.stepOutcome log n = .error fault) :
      Paced limit start log n (.error fault) (iterate (step .standard) start log (n + 1))

section
variable {limit : ℕ} {start : Core δ} {log : Log}

/-! ## One step more at the front -/

theorem after_succ' (n : ℕ) : start.after log (n + 1) =
    ((step .standard).final start log).after ((step .standard).logged start log) n :=
  congrArg Prod.fst (iterate_succ' _ start log n)

theorem stepOutcome_succ' (n : ℕ) : start.stepOutcome log (n + 1) =
    ((step .standard).final start log).stepOutcome ((step .standard).logged start log) n := by
  unfold stepOutcome outcome
  rw [iterate_succ']

theorem Retires.cons {n : ℕ} (hr : start.status = .running)
    (hok : (step .standard).result start log = .ok ())
    (h : ((step .standard).final start log).Retires ((step .standard).logged start log) n) :
    start.Retires log (n + 1) := by
  intro k hk
  cases k with
  | zero => exact ⟨hr, hok⟩
  | succ k =>
    rw [after_succ', stepOutcome_succ']
    exact h k (by omega)

theorem Paced.cons {n : ℕ} {o : Except Fault Unit} {left : Core δ × Log}
    (hr : start.status = .running) (hok : (step .standard).result start log = .ok ())
    (h : Paced limit ((step .standard).final start log) ((step .standard).logged start log)
      n o left) : Paced (limit + 1) start log (n + 1) o left := by
  cases h with
  | stopped hn hretires hstop =>
    rw [← after_succ'] at hstop
    rw [← iterate_succ']
    exact .stopped (by omega) (hretires.cons hr hok) (hstop.imp (congrArg (· + 1)) id)
  | faulted hn hretires hr' hfault =>
    rw [← after_succ'] at hr'
    rw [← stepOutcome_succ'] at hfault
    rw [← iterate_succ']
    exact .faulted (by omega) (hretires.cons hr hok) hr' hfault

end

/-! ## The loop -/

/-- **A bounded run is the beginning of an unbounded one**, and answers how many steps have
    succeeded, added to those made before. -/
theorem paced_stepsFrom (made limit : ℕ) (start : Core δ) (log : Log) :
    ∃ n o, Paced limit start log n o
        ((stepsFrom .standard made limit).final start log,
          (stepsFrom .standard made limit).logged start log) ∧
      (stepsFrom .standard made limit).result start log = o.map fun _ => made + n := by
  induction limit generalizing made start log with
  | zero => exact ⟨0, .ok (), .stopped le_rfl (by simp [Retires]) (.inl rfl), rfl⟩
  | succ limit ih =>
    have hrun : (stepsFrom .standard made (limit + 1)).run start log =
        (if start.status = .running then do
          step .standard
          stepsFrom .standard (made + 1) limit
        else return made : Exec (Core δ) ℕ).run start log := by
      rw [stepsFrom, run_bind, run_get]
    unfold result final logged
    rw [hrun]
    by_cases hr : start.status = .running
    · rw [if_pos hr]
      cases hstep : (step .standard).result start log with
      | error fault =>
        rw [run_bind_of_error _ _ hstep]
        exact ⟨0, .error fault, .faulted (by omega) (by simp [Retires]) hr hstep, rfl⟩
      | ok =>
        rw [run_bind_of_ok _ _ hstep]
        obtain ⟨n, o, hpaced, hresult⟩ := ih (made + 1) ((step .standard).final start log)
          ((step .standard).logged start log)
        refine ⟨n + 1, o, hpaced.cons hr hstep, hresult.trans ?_⟩
        rw [Nat.add_right_comm, Nat.add_assoc]
    · rw [if_neg hr]
      exact ⟨0, .ok (), .stopped (by omega) (by simp [Retires]) (.inr hr), rfl⟩

end RegisterMachine.Core
