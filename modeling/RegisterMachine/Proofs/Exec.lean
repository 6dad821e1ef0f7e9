import Mathlib.Tactic
import RegisterMachine.Exec

/-!
# Reasoning about actions

Logs never decide what a machine does, so what an action does is said of every log.

* `Exec.Ensures s x Q`: from the state `s`, the outcome of `x` and the state it leaves have `Q`,
  which may say anything about faults as well. There is one rule for every way of building
  actions.
* `Exec.Gives s x o t`: from `s`, the outcome of `x` is `o` and the state it leaves is `t`.
* `Exec.Keeps I x`: `x` keeps the invariant `I`, also when it faults.
* `Exec.iterate`: an action done again and again, whatever its outcomes.
-/

namespace RegisterMachine.Exec

variable {σ τ α β : Type}

/-! ## Outcomes and states -/

section
variable (s : σ) (log : Log)

theorem result_bind (x : Exec σ α) (f : α → Exec σ β) :
    (x >>= f).result s log =
      match x.result s log with
      | .ok a => (f a).result (x.final s log) (x.logged s log)
      | .error fault => .error fault := by
  unfold result final logged
  rw [run_bind]
  rcases x.run s log with ⟨⟨_ | _, _⟩, _⟩ <;> rfl

theorem final_bind (x : Exec σ α) (f : α → Exec σ β) :
    (x >>= f).final s log =
      match x.result s log with
      | .ok a => (f a).final (x.final s log) (x.logged s log)
      | .error _ => x.final s log := by
  unfold result final logged
  rw [run_bind]
  rcases x.run s log with ⟨⟨_ | _, _⟩, _⟩ <;> rfl

theorem run_bind_of_ok {x : Exec σ α} {a : α} (h : x.result s log = .ok a) (f : α → Exec σ β) :
    (x >>= f).run s log = (f a).run (x.final s log) (x.logged s log) := by
  unfold result at h
  unfold final logged
  rw [run_bind]
  generalize x.run s log = ran at h ⊢
  obtain ⟨⟨_, _⟩, _⟩ := ran
  cases h
  rfl

theorem run_bind_of_error {x : Exec σ α} {fault : Fault} (h : x.result s log = .error fault)
    (f : α → Exec σ β) :
    (x >>= f).run s log = ((.error fault, x.final s log), x.logged s log) := by
  unfold result at h
  unfold final logged
  rw [run_bind]
  generalize x.run s log = ran at h ⊢
  obtain ⟨⟨_, _⟩, _⟩ := ran
  cases h
  rfl

theorem result_tryCatch (x : Exec σ α) (handle : Fault → Exec σ α) :
    (tryCatch x handle).result s log =
      match x.result s log with
      | .ok a => .ok a
      | .error fault => (handle fault).result (x.final s log) (x.logged s log) := by
  unfold result final logged
  rw [run_tryCatch]
  rcases x.run s log with ⟨⟨_ | _, _⟩, _⟩ <;> rfl

theorem final_tryCatch (x : Exec σ α) (handle : Fault → Exec σ α) :
    (tryCatch x handle).final s log =
      match x.result s log with
      | .ok _ => x.final s log
      | .error fault => (handle fault).final (x.final s log) (x.logged s log) := by
  unfold result final logged
  rw [run_tryCatch]
  rcases x.run s log with ⟨⟨_ | _, _⟩, _⟩ <;> rfl

end

theorem run_attempt_of_run {x : Exec σ α} {s s' : σ} {log log' : Log} {o : Except Fault α}
    (h : x.run s log = ((o, s'), log')) : x.attempt.run s log = ((.ok o, s'), log') := by
  rw [run_attempt, result, final, logged, h]

/-- Actions that do the same from every state and every log are equal. -/
theorem ext_run {x y : Exec σ α} (h : ∀ s log, x.run s log = y.run s log) : x = y :=
  funext fun s => funext fun log => h s log

/-! ## Postconditions -/

/-- From `s`, whatever the log, the outcome of `x` and the state it leaves have `Q`. -/
def Ensures (s : σ) (x : Exec σ α) (Q : Except Fault α → σ → Prop) : Prop :=
  ∀ log, Q (x.result s log) (x.final s log)

/-- From `s`, whatever the log, the outcome of `x` is `o` and the state it leaves is `t`. -/
def Gives (s : σ) (x : Exec σ α) (o : Except Fault α) (t : σ) : Prop :=
  Ensures s x fun o' t' => o' = o ∧ t' = t

section
variable {s : σ} {x : Exec σ α} {f : α → Exec σ β} {Q : Except Fault α → σ → Prop}
  {R : Except Fault β → σ → Prop}

theorem Ensures.mono {Q' : Except Fault α → σ → Prop} (hx : Ensures s x Q)
    (h : ∀ o t, Q o t → Q' o t) : Ensures s x Q' :=
  fun log => h _ _ (hx log)

theorem Ensures.bind (hx : Ensures s x Q) (hok : ∀ a t, Q (.ok a) t → Ensures t (f a) R)
    (herror : ∀ fault t, Q (.error fault) t → R (.error fault) t) : Ensures s (x >>= f) R := by
  intro log
  have h := hx log
  rw [result_bind, final_bind]
  generalize x.result s log = o at h ⊢
  cases o with
  | ok a => exact hok a _ h _
  | error fault => exact herror fault _ h

theorem Ensures.tryCatch {handle : Fault → Exec σ α} {Q' : Except Fault α → σ → Prop}
    (hx : Ensures s x Q) (hok : ∀ a t, Q (.ok a) t → Q' (.ok a) t)
    (herror : ∀ fault t, Q (.error fault) t → Ensures t (handle fault) Q') :
    Ensures s (tryCatch x handle) Q' := by
  intro log
  have h := hx log
  rw [result_tryCatch, final_tryCatch]
  generalize x.result s log = o at h ⊢
  cases o with
  | ok a => exact hok a _ h
  | error fault => exact herror fault _ h _

/-- An action whose faults are answered leaves what it ensures. -/
theorem Ensures.attempt {Q : σ → Prop} (hx : Ensures s x fun _ t => Q t) :
    Ensures s (do let _ ← Exec.attempt x) fun o t => o = .ok () ∧ Q t := by
  intro log
  rw [result_bind, final_bind]
  exact ⟨rfl, hx log⟩

theorem Ensures.attempt_bind {f : Except Fault α → Exec σ β} (hx : Ensures s x Q)
    (hf : ∀ o t, Q o t → Ensures t (f o) R) : Ensures s (Exec.attempt x >>= f) R := by
  intro log
  rw [result_bind, final_bind]
  exact hf _ _ (hx log) _

theorem Ensures.ite {c : Prop} [Decidable c] {y : Exec σ α} (hx : c → Ensures s x Q)
    (hy : ¬c → Ensures s y Q) : Ensures s (if c then x else y) Q := by
  split_ifs with h
  exacts [hx h, hy h]

theorem Ensures.onPart [Inhabited τ] {part : Part σ τ} {y : Exec τ α}
    (hy : Ensures (part.get s) y fun o t => Q o (part.set t s)) : Ensures s (onPart part y) Q := by
  intro log
  have h := hy log
  simpa only [result, final, run_onPart] using h

theorem Gives.bind {a : α} {t : σ} (hx : Gives s x (.ok a) t) (hf : Ensures t (f a) R) :
    Ensures s (x >>= f) R :=
  Ensures.bind hx (fun _ _ ⟨ha, ht⟩ => by cases ha; exact ht ▸ hf) fun _ _ ⟨ha, _⟩ => by cases ha

theorem Gives.bind_error {fault : Fault} {t : σ} (hx : Gives s x (.error fault) t)
    (h : R (.error fault) t) : Ensures s (x >>= f) R :=
  Ensures.bind hx (fun _ _ ⟨ha, _⟩ => by cases ha) fun _ _ ⟨ha, ht⟩ => by cases ha; exact ht ▸ h

theorem Gives.ensures {o : Except Fault α} {t : σ} (hx : Gives s x o t) (h : Q o t) :
    Ensures s x Q :=
  Ensures.mono hx fun _ _ ⟨ho, ht⟩ => ho ▸ ht ▸ h

theorem Gives.result_eq {o : Except Fault α} {t : σ} (hx : Gives s x o t) (log : Log) :
    x.result s log = o :=
  (hx log).1

theorem Gives.final_eq {o : Except Fault α} {t : σ} (hx : Gives s x o t) (log : Log) :
    x.final s log = t :=
  (hx log).2

theorem Gives.eq_of_result {a b : α} {t : σ} {log : Log} (hx : Gives s x (.ok a) t)
    (h : x.result s log = .ok b) : a = b := by
  cases (hx.result_eq log).symm.trans h
  rfl

theorem Gives.onPart [Inhabited τ] {part : Part σ τ} {y : Exec τ α} {o : Except Fault α} {t : τ}
    (hy : Gives (part.get s) y o t) : Gives s (onPart part y) o (part.set t s) :=
  Ensures.onPart (Ensures.mono hy fun _ _ ⟨ho, ht⟩ => ⟨ho, ht ▸ rfl⟩)

end

section
variable (s : σ)

theorem gives_pure (a : α) : Gives s (pure a) (.ok a) s := fun _ => ⟨rfl, rfl⟩

theorem gives_throw (fault : Fault) : Gives s (throw fault : Exec σ α) (.error fault) s :=
  fun _ => ⟨rfl, rfl⟩

theorem gives_get : Gives s get (.ok s) s := fun _ => ⟨rfl, rfl⟩

theorem gives_modify (g : σ → σ) : Gives s (modify g) (.ok ()) (g s) := fun _ => ⟨rfl, rfl⟩

theorem gives_modifyGet (g : σ → α × σ) : Gives s (modifyGet g) (.ok (g s).1) (g s).2 :=
  fun _ => ⟨rfl, rfl⟩

theorem gives_lift (o : Except Fault α) : Gives s (liftM o) o s := fun log => by
  simp only [result, final, run_lift, and_self]

theorem gives_lift_of {o o' : Except Fault α} (h : o = o') : Gives s (liftM o) o' s :=
  h ▸ gives_lift s o

theorem gives_note (level : Level) (text : Unit → String) : Gives s (note level text) (.ok ()) s :=
  fun _ => ⟨rfl, rfl⟩

end

/-! ## Invariants -/

/-- `x` keeps the invariant `I`, whatever its outcome. -/
def Keeps (I : σ → Prop) (x : Exec σ α) : Prop :=
  ∀ s log, I s → I (x.final s log)

namespace Keeps
variable {I : σ → Prop} {x : Exec σ α} {f : α → Exec σ β}

theorem ensures (hx : Keeps I x) {s : σ} (hs : I s) : Ensures s x fun _ t => I t :=
  fun log => hx s log hs

theorem of_gives {o : σ → Except Fault α} {g : σ → σ} (hx : ∀ s, Gives s x (o s) (g s))
    (h : ∀ s, I s → I (g s)) : Keeps I x :=
  fun s log hs => (hx s).final_eq log ▸ h s hs

theorem pure (a : α) : Keeps I (Pure.pure a : Exec σ α) := fun _ _ hs => hs

theorem throw (fault : Fault) : Keeps I (MonadExcept.throw fault : Exec σ α) := fun _ _ hs => hs

theorem lift (o : Except Fault α) : Keeps I (liftM o : Exec σ α) :=
  of_gives (fun s => gives_lift s o) fun _ hs => hs

theorem note (level : Level) (text : Unit → String) : Keeps I (Exec.note level text) :=
  fun _ _ hs => hs

theorem modify {g : σ → σ} (h : ∀ s, I s → I (g s)) : Keeps I (modify g : Exec σ Unit) :=
  fun s _ hs => h s hs

theorem bind (hx : Keeps I x) (hf : ∀ a, Keeps I (f a)) : Keeps I (x >>= f) := fun _ log hs =>
  (hx.ensures hs).bind (fun a _ ht => (hf a).ensures ht) (fun _ _ ht => ht) log

/-- What is read of the state has the invariant. -/
theorem get_bind {f : σ → Exec σ β} (hf : ∀ s, I s → Keeps I (f s)) : Keeps I (get >>= f) :=
  fun s log hs => (gives_get s).bind ((hf s hs).ensures hs) log

theorem tryCatch {handle : Fault → Exec σ α} (hx : Keeps I x) (hh : ∀ e, Keeps I (handle e)) :
    Keeps I (tryCatch x handle) := fun _ log hs =>
  (hx.ensures hs).tryCatch (fun _ _ ht => ht) (fun e _ ht => (hh e).ensures ht) log

theorem attempt (hx : Keeps I x) : Keeps I (Exec.attempt x) := hx

theorem ite {c : Prop} [Decidable c] {y : Exec σ α} (hx : Keeps I x) (hy : Keeps I y) :
    Keeps I (if c then x else y) := by
  split_ifs
  exacts [hx, hy]

theorem forM {f : β → Exec σ PUnit} (hf : ∀ b, Keeps I (f b)) (bs : List β) :
    Keeps I (bs.forM f) := by
  induction bs with
  | nil => exact pure _
  | cons b bs ih => exact (hf b).bind fun _ => ih

/-- An action on a component keeps what does not depend on the component. -/
theorem onPart [Inhabited τ] {part : Part σ τ} (h : ∀ t s, I s → I (part.set t s))
    (y : Exec τ α) : Keeps I (onPart part y) := fun s log hs => by
  simpa only [final, run_onPart] using h _ s hs

/-- An action on a component keeps what depends on an invariant of the component that it keeps. -/
theorem onPart_of [Inhabited τ] {part : Part σ τ} {J : τ → Prop} {y : Exec τ α} (hy : Keeps J y)
    (hget : ∀ s, I s → J (part.get s)) (hset : ∀ t s, I s → J t → I (part.set t s)) :
    Keeps I (Exec.onPart part y) := fun s log hs => by
  simpa only [final, run_onPart] using hset _ s hs (hy _ log (hget s hs))

end Keeps

/-! ## Iteration -/

/-- The state and the log after doing an action `n` times, whatever the outcomes. -/
def iterate (x : Exec σ α) (s : σ) (log : Log) : ℕ → σ × Log
  | 0 => (s, log)
  | n + 1 =>
    let (s, log) := iterate x s log n
    (x.final s log, x.logged s log)

/-- The first time may be taken off the front. -/
theorem iterate_succ' (x : Exec σ α) (s : σ) (log : Log) (n : ℕ) :
    iterate x s log (n + 1) = iterate x (x.final s log) (x.logged s log) n := by
  induction n with
  | zero => rfl
  | succ n ih => rw [iterate, ih]; rfl

/-- What the action answers after it has been done `n` times. -/
def outcome (x : Exec σ α) (s : σ) (log : Log) (n : ℕ) : Except Fault α :=
  x.result (iterate x s log n).1 (iterate x s log n).2

theorem Keeps.iterate {I : σ → Prop} {x : Exec σ α} (hx : Keeps I x) {s : σ} (hs : I s)
    (log : Log) (n : ℕ) : I (iterate x s log n).1 := by
  induction n with
  | zero => exact hs
  | succ n ih => exact hx _ _ ih

end RegisterMachine.Exec
