import Mathlib.Data.Nat.Count
import RegisterMachine.Proofs.Core.Lifecycle

/-!
# Bounded runs in slices

Nothing is carried from one bounded run to the next but the core itself. So it does not matter how
many steps are made by each of several runs, as long as they come to the same number together. Of
two runs in a row, the second finds a core that has stopped if the first faults; it then does
nothing, and the fault is what both come to.

* `Core.stepTimes`: steps up to the first fault.
* `Core.RetiresAt`: the steps that execute an instruction.
* `Core.runFor_add`: a bounded run is two shorter ones in a row.
* `Core.run_in_slices`: what else is known of bounded runs.
-/

namespace RegisterMachine.Core

open Exec

variable {δ : Type} [Device δ] {calls : SystemCallTable δ} {core : Core δ}

/-! ## Cores that have stopped -/

section
variable (hs : core.status ≠ .running) (log : Log)
include hs

theorem run_step_of_stopped : (step calls).run core log = ((.ok (), core), log) := by
  rw [step, run_bind, run_get]
  dsimp only
  rw [if_neg hs, run_pure]

theorem run_stepsFrom_of_stopped (made limit : ℕ) :
    (stepsFrom calls made limit).run core log = ((.ok made, core), log) := by
  cases limit with
  | zero => rfl
  | succ limit =>
    rw [stepsFrom, run_bind, run_get]
    dsimp only
    rw [if_neg hs, run_pure]

theorem run_runFor_of_stopped (n : ℕ) : (runFor calls n).run core log = ((.ok 0, core), log) :=
  run_stepsFrom_of_stopped hs log 0 n

end

/-- A fault stops the core. -/
theorem ensures_step_stops (calls : SystemCallTable δ) (core : Core δ) :
    Ensures core (step calls) fun o core' =>
      ∀ fault, o = .error fault → core'.status = .faulted := by
  have hany : Ensures core (executeNext calls) fun _ _ => True := fun _ => trivial
  refine (gives_get core).bind (Ensures.ite (fun _ => ?_) fun _ => ?_)
  · refine hany.tryCatch (by rintro _ _ - _ ⟨⟩) fun fault core' _ => ?_
    exact (gives_stopWith core' fault).ensures fun _ _ => rfl
  · exact (gives_pure core ()).ensures (by rintro _ ⟨⟩)

/-! ## The loop -/

theorem run_stepsFrom_succ (hr : core.status = .running) (made limit : ℕ) (log : Log) :
    (stepsFrom calls made (limit + 1)).run core log =
      (do
        step calls
        stepsFrom calls (made + 1) limit).run core log := by
  rw [stepsFrom, run_bind, run_get]
  dsimp only
  rw [if_pos hr]

/-- A loop goes on where a shorter one ends. -/
theorem stepsFrom_add (made a b : ℕ) : stepsFrom calls made (a + b) = (do
    let made ← stepsFrom calls made a
    stepsFrom calls made b) := by
  induction a generalizing made with
  | zero => rw [Nat.zero_add, stepsFrom, pure_bind]
  | succ a ih =>
    refine ext_run fun core log => ?_
    by_cases hr : core.status = .running
    · rw [Nat.add_right_comm, run_stepsFrom_succ hr, ih, ← bind_assoc]
      rw [run_bind, run_bind _ _ (stepsFrom calls made (a + 1)), run_stepsFrom_succ hr]
    · rw [run_bind, run_stepsFrom_of_stopped hr, run_stepsFrom_of_stopped hr]
      exact (run_stepsFrom_of_stopped hr log made b).symm

/-- The steps made before are only counted. -/
theorem stepsFrom_eq (before made limit : ℕ) : stepsFrom calls (before + made) limit = (do
    let made ← stepsFrom calls made limit
    return before + made) := by
  induction limit generalizing made with
  | zero => rw [stepsFrom, stepsFrom, pure_bind]
  | succ limit ih =>
    refine ext_run fun core log => ?_
    by_cases hr : core.status = .running
    · rw [run_stepsFrom_succ hr, Nat.add_assoc, ih, ← bind_assoc]
      rw [run_bind, run_bind _ _ (stepsFrom calls made (limit + 1)), run_stepsFrom_succ hr]
    · rw [run_bind, run_stepsFrom_of_stopped hr, run_stepsFrom_of_stopped hr]
      rfl

theorem ensures_stepsFrom_stops (made limit : ℕ) (core : Core δ) :
    Ensures core (stepsFrom calls made limit) fun o core' =>
      ∀ fault, o = .error fault → core'.status = .faulted := by
  induction limit generalizing made core with
  | zero => exact (gives_pure core made).ensures (by rintro _ ⟨⟩)
  | succ limit ih =>
    refine (gives_get core).bind (Ensures.ite (fun _ => ?_) fun _ => ?_)
    · refine (ensures_step_stops calls core).bind (fun _ core' _ => ih (made + 1) core') ?_
      rintro fault core' hstop _ ⟨⟩
      exact hstop fault rfl
    · exact (gives_pure core made).ensures (by rintro _ ⟨⟩)

theorem ensures_runFor_stops (calls : SystemCallTable δ) (n : ℕ) (core : Core δ) :
    Ensures core (runFor calls n) fun o core' => ∀ fault, o = .error fault → core'.status = .faulted :=
  ensures_stepsFrom_stops 0 n core

theorem runFor_add_eq_bind (a b : ℕ) : runFor calls (a + b) = (do
    let x ← runFor calls a
    let y ← runFor calls b
    return x + y) :=
  (stepsFrom_add 0 a b).trans (congrArg _ (funext fun x => stepsFrom_eq x 0 b))

/-- **A bounded run is two shorter ones in a row**, whatever comes of the first, and answers the
    first fault of the two. -/
theorem runFor_add (a b : ℕ) : runFor calls (a + b) = (do
    let first ← Exec.attempt (runFor calls a)
    let second ← Exec.attempt (runFor calls b)
    return (← first) + (← second)) := by
  refine ext_run fun core log => ?_
  rcases hfirst : (runFor calls a).run core log with ⟨⟨first, core'⟩, log'⟩
  rw [runFor_add_eq_bind, run_bind, hfirst, run_bind, run_attempt_of_run hfirst]
  cases first with
  | ok x =>
    rcases hsecond : (runFor calls b).run core' log' with ⟨⟨second, core''⟩, log''⟩
    dsimp only
    rw [run_bind, hsecond, run_bind, run_attempt_of_run hsecond]
    cases second <;> rfl
  | error fault =>
    have hs : core'.status ≠ .running := by
      have hstops := ensures_runFor_stops calls a core log
      unfold result final at hstops
      rw [hfirst] at hstops
      rw [hstops fault rfl]
      decide
    -- The second run finds a core that has stopped.
    dsimp only
    rw [run_bind, run_attempt_of_run (run_runFor_of_stopped hs log' b)]
    rfl

theorem run_runFor_add (a b : ℕ) (core : Core δ) (log : Log) :
    (runFor calls (a + b)).run core log =
      let first := (runFor calls a).run core log
      let second := (runFor calls b).run first.1.2 first.2
      (((do return (← first.1.1) + (← second.1.1)), second.1.2), second.2) := by
  rw [runFor_add, run_bind, run_attempt]
  dsimp only
  rw [run_bind, run_attempt]
  dsimp only
  unfold result final logged
  generalize (runFor calls a).run core log = first
  obtain ⟨⟨first | first, core'⟩, log'⟩ := first
  · rfl
  · dsimp only
    generalize (runFor calls b).run core' log' = second
    obtain ⟨⟨second | second, core''⟩, log''⟩ := second <;> rfl

/-! ## Repeated steps -/

/-- Makes `n` steps, or as many as there are up to the first fault. -/
def stepTimes (calls : SystemCallTable δ) : ℕ → Exec (Core δ) Unit
  | 0 => pure ()
  | n + 1 => do
    step calls
    stepTimes calls n

theorem run_stepTimes_of_stopped (hs : core.status ≠ .running) (log : Log) (n : ℕ) :
    (stepTimes calls n).run core log = ((.ok (), core), log) := by
  induction n with
  | zero => rfl
  | succ n ih =>
    rw [stepTimes, run_bind, run_step_of_stopped hs]
    exact ih

theorem stepsFrom_eq_stepTimes (made limit : ℕ) :
    (do let _ ← stepsFrom calls made limit) = stepTimes calls limit := by
  induction limit generalizing made with
  | zero => rfl
  | succ limit ih =>
    refine ext_run fun core log => ?_
    by_cases hr : core.status = .running
    · rw [run_bind, run_stepsFrom_succ hr, ← run_bind, bind_assoc, stepTimes]
      exact congrArg (fun x => (step calls >>= fun _ => x).run core log) (ih (made + 1))
    · rw [run_bind, run_stepsFrom_of_stopped hr, run_stepTimes_of_stopped hr]
      rfl

/-! ## What a run answers -/

/-- The step after `k` steps executes an instruction, and succeeds. -/
def RetiresAt (calls : SystemCallTable δ) (start : Core δ) (log : Log) (k : ℕ) : Prop :=
  (iterate (step calls) start log k).1.status = .running ∧
    outcome (step calls) start log k = .ok ()

instance (calls : SystemCallTable δ) (start : Core δ) (log : Log) :
    DecidablePred (start.RetiresAt calls log) :=
  fun _ => inferInstanceAs (Decidable (_ ∧ _))

theorem run_runFor_one (core : Core δ) (log : Log) :
    (runFor calls 1).run core log =
      ((((step calls).result core log).map fun _ => if core.status = .running then 1 else 0,
        (step calls).final core log), (step calls).logged core log) := by
  unfold result final logged
  by_cases hr : core.status = .running
  · rw [runFor, run_stepsFrom_succ hr 0 0, run_bind, if_pos hr]
    generalize (step calls).run core log = ran
    obtain ⟨⟨o | o, core'⟩, log'⟩ := ran <;> rfl
  · rw [run_runFor_of_stopped hr, run_step_of_stopped hr, if_neg hr]
    rfl

/-- A run leaves what as many steps leave, whatever their outcomes. -/
theorem iterate_step_eq (n : ℕ) : iterate (step calls) core log n =
    ((runFor calls n).final core log, (runFor calls n).logged core log) := by
  induction n with
  | zero => rfl
  | succ n ih =>
    rw [iterate, ih]
    unfold final logged
    rw [run_runFor_add]
    dsimp only
    rw [run_runFor_one]
    rfl

theorem result_runFor_succ (n : ℕ) : (runFor calls (n + 1)).result core log = (do
    let made ← (runFor calls n).result core log
    outcome (step calls) core log n
    return made + if (iterate (step calls) core log n).1.status = .running then 1 else 0) := by
  rw [result, run_runFor_add]
  dsimp only
  rw [run_runFor_one, outcome, iterate_step_eq]
  unfold result final logged
  generalize (runFor calls n).run core log = first
  obtain ⟨⟨first | first, core'⟩, log'⟩ := first
  · rfl
  · dsimp only
    generalize (step calls).run core' log' = second
    obtain ⟨⟨second | second, core''⟩, log''⟩ := second <;> rfl

/-- A run that does not fault answers how many instructions it has executed. -/
theorem eq_count_of_result_runFor {n made : ℕ}
    (h : (runFor calls n).result core log = .ok made) :
    made = Nat.count (core.RetiresAt calls log) n := by
  induction n generalizing made with
  | zero => cases h; rfl
  | succ n ih =>
    rw [result_runFor_succ] at h
    cases hx : (runFor calls n).result core log with
    | error fault => rw [hx] at h; cases h
    | ok x =>
      cases ho : outcome (step calls) core log n with
      | error fault => rw [hx, ho] at h; cases h
      | ok =>
        rw [hx, ho] at h
        cases h
        rw [ih hx, Nat.count_succ]
        simp only [RetiresAt, ho, and_true]

theorem steps_final_step (core : Core δ) (log : Log) :
    ((step .standard).final core log).steps = core.steps +
      if core.status = .running ∧ (step .standard).result core log = .ok () then 1 else 0 := by
  by_cases hr : core.status = .running
  · obtain ⟨-, hok, herror⟩ := ensures_step_used hr log
    cases ho : (step .standard).result core log with
    | ok => simpa [hr] using hok ho
    | error fault => simpa using (herror fault ho).1
  · have hstopped : (step .standard).final core log = core := by
      rw [final, run_step_of_stopped hr]
    simp [hr, hstopped]

/-- The step counter counts the instructions executed, and not one that faults. -/
theorem steps_iterate (core : Core δ) (log : Log) (n : ℕ) :
    (iterate (step .standard) core log n).1.steps =
      core.steps + Nat.count (core.RetiresAt .standard log) n := by
  induction n with
  | zero => rfl
  | succ n ih =>
    rw [Nat.count_succ, ← Nat.add_assoc, ← ih]
    exact steps_final_step _ _

/-- **It does not matter how an execution is cut into runs**, and a core that has stopped stays as
    it is. Two runs in a row are one run of their limits together, a run is so many steps up to the
    first fault, and a run that does not fault answers how many instructions it has executed. With
    the calls that every machine has, the step counter counts these, and not one that faults. -/
theorem run_in_slices (calls : SystemCallTable δ) :
    (∀ a b, runFor calls (a + b) = (do
      let first ← Exec.attempt (runFor calls a)
      let second ← Exec.attempt (runFor calls b)
      return (← first) + (← second))) ∧
    (∀ n, (do let _ ← runFor calls n) = stepTimes calls n) ∧
    (∀ (core : Core δ) log n made, (runFor calls n).result core log = .ok made →
      made = Nat.count (core.RetiresAt calls log) n) ∧
    (∀ (core : Core δ) log n, ((runFor .standard n).final core log).steps =
      core.steps + Nat.count (core.RetiresAt .standard log) n) ∧
    ∀ core : Core δ, core.status ≠ .running → ∀ log,
      (step calls).run core log = ((.ok (), core), log) ∧
      ∀ n, (runFor calls n).run core log = ((.ok 0, core), log) := by
  refine ⟨runFor_add, stepsFrom_eq_stepTimes 0, ?_, ?_, ?_⟩
  · exact fun core log n made h => eq_count_of_result_runFor h
  · intro core log n
    rw [← steps_iterate, iterate_step_eq]
  · exact fun core hs log => ⟨run_step_of_stopped hs log, run_runFor_of_stopped hs log⟩

/-- A core that is about to load a constant and then to divide by zero. -/
def dividing : Core Empty :=
  codePart.set
    ⟨.code, #[(Instruction.moveImmediate .set 8 5).encode,
      (Instruction.arithmetic .div 9 8 0).encode]⟩
    (powerOn .small .empty default)

/-- The division stops the core and is not counted. -/
theorem run_in_slices_dividing :
    let log := Log.ofLevel none
    let stopped := (runFor .standard 4).final dividing log
    (runFor .standard 1).result dividing log = .ok 1 ∧
      ((runFor .standard 1).final dividing log).steps = 1 ∧
      (runFor .standard 4).result dividing log = .error .divideByZero ∧
      stopped.status = .faulted ∧ stopped.steps = 1 ∧
      (step .standard).run stopped log = ((.ok (), stopped), log) ∧
      (runFor .standard 4).run stopped log = ((.ok 0, stopped), log) := by
  intro log stopped
  obtain ⟨-, -, hmade, hsteps, hstopped⟩ := run_in_slices (δ := Empty) .standard
  have hone : (runFor .standard 1).result dividing log = .ok 1 := by decide +kernel
  have hcount := hmade dividing log 1 1 hone
  have hs : stopped.status = .faulted := by decide +kernel
  obtain ⟨hstep, hrun⟩ := hstopped stopped (by rw [hs]; decide) log
  refine ⟨hone, ?_, by decide +kernel, hs, by decide +kernel, hstep, hrun 4⟩
  rw [hsteps, ← hcount]
  rfl

end RegisterMachine.Core
