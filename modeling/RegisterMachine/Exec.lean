import RegisterMachine.Fault
import RegisterMachine.Log

/-!
# Actions that may fault

An `Exec σ α` starts from a state `σ` and a log and answers an `α` or a `Fault`. The state it
reached and the lines it logged are kept in both cases: a fault does not undo what was done
before it.

* `Exec.note` logs a line, and `Exec.attempt` turns a fault into an answer.
* `Part σ τ` is a component of a state, and `Exec.onPart` runs an action on the component.
* `Exec.run` runs an action. There is one lemma for every way of building actions (`run_bind`,
  `run_tryCatch`, `run_onPart`, ...), so that nothing else has to be unfolded.
* `Exec.result`, `Exec.final` and `Exec.logged` are the three things that a run leaves.
-/

namespace RegisterMachine

/-- An action on a state `σ`, with a log, that may fault. -/
abbrev Exec (σ : Type) := ExceptT Fault (StateT σ (StateM Log))

/-- A component of a state: how it is read and how it is replaced. -/
structure Part (σ τ : Type) where
  get : σ → τ
  set : τ → σ → σ
  get_set : ∀ t s, get (set t s) = t := by intros; rfl
  set_set : ∀ t u s, set t (set u s) = set t s := by intros; rfl
  set_get : ∀ s, set (get s) s = s := by intros; rfl

/-- A component, and the state with a blank in its place. -/
@[noinline] def Part.take {σ τ : Type} [Inhabited τ] (part : Part σ τ) (s : σ) : τ × σ :=
  (part.get s, part.set default s)

namespace Exec

variable {σ τ α β : Type}

/-! ## Actions -/

/-- Logs a line. -/
def note (level : Level) (text : Unit → String) : Exec σ Unit :=
  modifyThe Log (·.note level text)

/-- Answers a fault instead of faulting. -/
def attempt (x : Exec σ α) : Exec σ (Except Fault α) := fun s log =>
  let ((outcome, s), log) := x s log
  ((.ok outcome, s), log)

/-- Runs an action on a component of the state. The component is taken out while the action
runs, so that what it holds can be updated in place. -/
def onPart [Inhabited τ] (part : Part σ τ) (x : Exec τ α) : Exec σ α := fun s log =>
  let (t, s) := part.take s
  let ((outcome, t), log) := x t log
  ((outcome, part.set t s), log)

/-! ## Runs -/

/-- Runs an action from a state and a log. -/
def run (x : Exec σ α) (s : σ) (log : Log) : (Except Fault α × σ) × Log :=
  x s log

/-- What an action answers. -/
def result (x : Exec σ α) (s : σ) (log : Log) : Except Fault α :=
  (x.run s log).1.1

/-- The state an action leaves, whether it faults or not. -/
def final (x : Exec σ α) (s : σ) (log : Log) : σ :=
  (x.run s log).1.2

/-- The log an action leaves. -/
def logged (x : Exec σ α) (s : σ) (log : Log) : Log :=
  (x.run s log).2

section
variable (s : σ) (log : Log)

@[simp] theorem run_pure (a : α) : (pure a : Exec σ α).run s log = ((.ok a, s), log) := rfl

@[simp] theorem run_throw (fault : Fault) :
    (throw fault : Exec σ α).run s log = ((.error fault, s), log) := rfl

/-- A fault ends a sequence. -/
@[simp] theorem run_bind (x : Exec σ α) (f : α → Exec σ β) :
    (x >>= f).run s log =
      match x.run s log with
      | ((.ok a, s), log) => (f a).run s log
      | ((.error fault, s), log) => ((.error fault, s), log) := by
  unfold run
  simp only [bind, ExceptT.bind, ExceptT.mk, StateT.bind]
  rcases x s log with ⟨⟨_ | _, _⟩, _⟩ <;> rfl

@[simp] theorem run_map (f : α → β) (x : Exec σ α) :
    (f <$> x).run s log = ((f <$> x.result s log, x.final s log), x.logged s log) := by
  rw [← bind_pure_comp, run_bind]
  unfold result final logged
  rcases x.run s log with ⟨⟨_ | _, _⟩, _⟩ <;> rfl

@[simp] theorem run_ite (c : Prop) [Decidable c] (x y : Exec σ α) :
    (if c then x else y).run s log = if c then x.run s log else y.run s log := by
  split <;> rfl

/-- A handler goes on from the state that the fault left. -/
@[simp] theorem run_tryCatch (x : Exec σ α) (handle : Fault → Exec σ α) :
    (tryCatch x handle).run s log =
      match x.run s log with
      | ((.ok a, s), log) => ((.ok a, s), log)
      | ((.error fault, s), log) => (handle fault).run s log := by
  unfold run
  simp only [tryCatch, tryCatchThe, MonadExceptOf.tryCatch, ExceptT.tryCatch, ExceptT.mk, bind,
    StateT.bind]
  rcases x s log with ⟨⟨_ | _, _⟩, _⟩ <;> rfl

@[simp] theorem run_get : (get : Exec σ σ).run s log = ((.ok s, s), log) := rfl

@[simp] theorem run_modify (f : σ → σ) :
    (modify f : Exec σ Unit).run s log = ((.ok (), f s), log) := rfl

@[simp] theorem run_modifyGet (f : σ → α × σ) :
    (modifyGet f : Exec σ α).run s log = ((.ok (f s).1, (f s).2), log) := rfl

@[simp] theorem run_lift (outcome : Except Fault α) :
    (liftM outcome : Exec σ α).run s log = ((outcome, s), log) := by
  cases outcome <;> rfl

@[simp] theorem run_note (level : Level) (text : Unit → String) :
    (note level text : Exec σ Unit).run s log = ((.ok (), s), log.note level text) := rfl

@[simp] theorem run_attempt (x : Exec σ α) :
    x.attempt.run s log = ((.ok (x.result s log), x.final s log), x.logged s log) := rfl

/-- An action on a component leaves the rest of the state. -/
@[simp] theorem run_onPart [Inhabited τ] (part : Part σ τ) (x : Exec τ α) :
    (onPart part x).run s log =
      ((x.result (part.get s) log, part.set (x.final (part.get s) log) s),
        x.logged (part.get s) log) :=
  congrArg (fun s => ((x.result (part.get _) log, s), x.logged (part.get _) log))
    (part.set_set _ _ _)

end

end Exec

end RegisterMachine
