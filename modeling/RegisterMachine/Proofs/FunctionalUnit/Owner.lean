import RegisterMachine.Proofs.Actor
import RegisterMachine.Proofs.FunctionalUnit.Session

/-!
# What the owner of an actor sees

An owner starts an actor, stops it, and submits operations. A call is refused for what the owner
could have known, and then changes nothing; a submission that is not refused answers what the unit
answers. While the actor is idle, its unit is the one that has executed those submissions, however
often the actor was started and stopped in between.

* `Actor.Call`, `Actor.call`: the calls of an owner.
* `Actor.refusal?`: why a call is refused.
* `Actor.Tally`, `Actor.tally`: whether an actor runs after some calls, and what its unit has done.
* `Actor.Presents`, `Actor.presents_after`: what an owner sees of an actor after any calls.
-/

namespace RegisterMachine

open Exec

namespace Actor

variable {σ ω ρ : Type}

/-! ## Calls -/

/-- A call that the owner of an actor makes. -/
inductive Call (ω : Type) where
  | start
  | stop
  | submit (op : ω) (operands : List Word)

/-- What an owner has the actor do. A submission answers an output. -/
def call (unit : FunctionalUnit σ ω ρ) : Call ω → Exec (Actor σ ω ρ) (Option ρ)
  | .start => do
    start unit
    return none
  | .stop => do
    stop unit
    return none
  | .submit op operands => some <$> submit unit op operands

/-- Why a call is refused, if it is. -/
def refusal? (unit : FunctionalUnit σ ω ρ) (running : Bool) : Call ω → Option Fault
  | .start => if running then some (.unitAlreadyRunning unit.name) else none
  | .stop => if running then none else some (.unitNotRunning unit.name)
  | .submit op operands =>
    if running then
      if operands.length = unit.operandCount op then none
      else some (.indexOutOfRange .operandCount operands.length (unit.operandCount op))
    else some (.unitNotRunning unit.name)

section
variable (unit : FunctionalUnit σ ω ρ) {actor : Actor σ ω ρ}

/-- A call that is refused changes nothing. -/
theorem gives_call_refused {c : Call ω} {fault : Fault}
    (h : refusal? unit actor.isRunning c = some fault) :
    Gives actor (call unit c) (.error fault) actor := by
  cases c with
  | start =>
    rw [refusal?] at h
    split_ifs at h with hrun
    cases h
    exact (gives_start_running unit hrun).bind_error ⟨rfl, rfl⟩
  | stop =>
    rw [refusal?] at h
    split_ifs at h with hrun
    cases h
    exact (gives_stop_idle unit (Bool.eq_false_iff.2 hrun)).bind_error ⟨rfl, rfl⟩
  | submit op operands =>
    rw [call, ← bind_pure_comp]
    rw [refusal?] at h
    split_ifs at h with hrun hlen
    · cases h
      exact (gives_submit_count unit hrun hlen).bind_error ⟨rfl, rfl⟩
    · cases h
      exact (gives_submit_idle unit (Bool.eq_false_iff.2 hrun) op operands).bind_error ⟨rfl, rfl⟩

theorem gives_call_start (h : actor.isRunning = false) :
    Gives actor (call unit .start) (.ok none)
      { actor with phase := some .ready, runs := actor.runs + 1 } :=
  (gives_start unit h).bind (gives_pure _ _)

theorem gives_call_stop (h : actor.isRunning = true) :
    Gives actor (call unit .stop) (.ok none) { actor with phase := none } :=
  (gives_stop unit h).bind (gives_pure _ _)

theorem run_call_submit (h : actor.isRunning = true) {op : ω} {operands : List Word}
    (hlen : operands.length = unit.operandCount op) (log : Log) :
    (call unit (.submit op operands)).result actor log =
        some <$> (unit.perform op operands).result actor.state log ∧
      (call unit (.submit op operands)).final actor log =
        { actor with state := (unit.perform op operands).final actor.state log } := by
  have hrun := run_submit unit h hlen log
  rw [call, result, final, run_map, result, final, hrun]
  exact ⟨rfl, rfl⟩

/-- A unit executes whatever it has logged before. -/
theorem result_perform (op : ω) (operands : List Word) (state : σ) (log : Log) :
    ∃ log', (unit.perform op operands).result state log =
      (unit.execute op operands).result state log' :=
  ⟨_, rfl⟩

end

/-! ## Any number of calls -/

/-- A call, with the log at the time. -/
structure Use (ω : Type) where
  call : Call ω
  log : Log

/-- Whether an actor is running after some calls, and what its unit has been given to execute. -/
structure Tally (ω : Type) where
  running : Bool
  jobs : List (Job ω)

section
variable (unit : FunctionalUnit σ ω ρ)

/-- An actor after some calls. -/
def after (actor : Actor σ ω ρ) (uses : List (Use ω)) : Actor σ ω ρ :=
  uses.foldl (fun actor use => (call unit use.call).final actor use.log) actor

/-- What the calls answer. -/
def answers (actor : Actor σ ω ρ) : List (Use ω) → List (Except Fault (Option ρ))
  | [] => []
  | use :: rest =>
    (call unit use.call).result actor use.log ::
      answers ((call unit use.call).final actor use.log) rest

/-- What comes of a call. A submission reaches the unit if the actor is running and there are as
many operands as the operation takes. -/
def Tally.next (tally : Tally ω) (use : Use ω) : Tally ω :=
  match use.call with
  | .start => { tally with running := true }
  | .stop => { tally with running := false }
  | .submit op operands =>
    if tally.running = true ∧ operands.length = unit.operandCount op then
      { tally with jobs := tally.jobs ++ [⟨op, operands, use.log⟩] }
    else tally

/-- What has come of some calls of an actor that had not been started. -/
def tally (uses : List (Use ω)) : Tally ω :=
  uses.foldl (Tally.next unit) ⟨false, []⟩

@[simp] theorem after_concat (actor : Actor σ ω ρ) (uses : List (Use ω)) (use : Use ω) :
    after unit actor (uses ++ [use]) =
      (call unit use.call).final (after unit actor uses) use.log := by
  rw [after, List.foldl_append]
  rfl

@[simp] theorem tally_concat (uses : List (Use ω)) (use : Use ω) :
    tally unit (uses ++ [use]) = (tally unit uses).next unit use := by
  rw [tally, List.foldl_append]
  rfl

theorem answers_concat (actor : Actor σ ω ρ) (uses : List (Use ω)) (use : Use ω) :
    answers unit actor (uses ++ [use]) = answers unit actor uses ++
      [(call unit use.call).result (after unit actor uses) use.log] := by
  induction uses generalizing actor with
  | nil => rfl
  | cons first rest ih => rw [List.cons_append, answers, ih, answers, List.cons_append]; rfl

/-- An actor is running as counted, and its unit has executed what it was given. -/
structure Tallies (start : σ) (tally : Tally ω) (actor : Actor σ ω ρ) : Prop where
  running_eq : actor.isRunning = tally.running
  state_eq : actor.state = Session.stateAfter unit start tally.jobs

variable {unit} {start : σ} {tally : Tally ω} {actor : Actor σ ω ρ}

theorem Tallies.next (h : Tallies unit start tally actor) (use : Use ω) :
    Tallies unit start (tally.next unit use) ((call unit use.call).final actor use.log) := by
  obtain ⟨c, log⟩ := use
  have hrefused {fault : Fault} (hf : refusal? unit actor.isRunning c = some fault) :
      (call unit c).final actor log = actor := (gives_call_refused unit hf).final_eq log
  cases c with
  | start =>
    cases hrun : actor.isRunning with
    | true =>
      rw [hrefused (by rw [hrun]; rfl)]
      exact ⟨hrun, h.state_eq⟩
    | false =>
      rw [(gives_call_start unit hrun).final_eq]
      exact ⟨rfl, h.state_eq⟩
  | stop =>
    cases hrun : actor.isRunning with
    | true =>
      rw [(gives_call_stop unit hrun).final_eq]
      exact ⟨rfl, h.state_eq⟩
    | false =>
      rw [hrefused (by rw [hrun]; rfl)]
      exact ⟨hrun, h.state_eq⟩
  | submit op operands =>
    rw [Tally.next]
    dsimp only
    rw [← h.running_eq]
    split_ifs with hreach
    · rw [(run_call_submit unit hreach.1 hreach.2 log).2]
      refine ⟨rfl, ?_⟩
      rw [Session.stateAfter_concat, ← h.state_eq]
    · rw [not_and] at hreach
      cases hrun : actor.isRunning with
      | true =>
        rw [hrefused (by rw [refusal?, if_pos hrun, if_neg (hreach hrun)])]
        exact h
      | false =>
        rw [hrefused (by rw [hrun]; rfl)]
        exact h

theorem tallies_after (unit : FunctionalUnit σ ω ρ) (start : σ) (uses : List (Use ω)) :
    Tallies unit start (Actor.tally unit uses) (after unit (.ofState start) uses) := by
  induction uses using List.reverseRecOn with
  | nil => exact ⟨rfl, rfl⟩
  | append_singleton uses use ih =>
    rw [after_concat, tally_concat]
    exact ih.next use

/-- What an owner sees of an actor: a call is refused or does what it says. -/
structure Presents (unit : FunctionalUnit σ ω ρ) (start : σ) (tally : Tally ω)
    (actor : Actor σ ω ρ) : Prop where
  refused : ∀ c fault, refusal? unit tally.running c = some fault →
    Gives actor (call unit c) (.error fault) actor
  started : tally.running = false → ∀ log, (call unit .start).result actor log = .ok none
  stopped : tally.running = true → ∀ log, (call unit .stop).result actor log = .ok none
  submitted : tally.running = true → ∀ op operands, operands.length = unit.operandCount op →
    ∀ log, ∃ log', (call unit (.submit op operands)).result actor log =
      some <$> (unit.execute op operands).result (Session.stateAfter unit start tally.jobs) log'
  /-- The unit is there to be looked at just while the actor is idle. -/
  state?_eq : actor.state? =
    if tally.running then none else some (Session.stateAfter unit start tally.jobs)

theorem Tallies.presents (h : Tallies unit start tally actor) :
    Presents unit start tally actor where
  refused c fault hf := by
    rw [← h.running_eq] at hf
    exact gives_call_refused unit hf
  started hidle log := by
    rw [← h.running_eq] at hidle
    exact (gives_call_start unit hidle).result_eq log
  stopped hrun log := by
    rw [← h.running_eq] at hrun
    exact (gives_call_stop unit hrun).result_eq log
  submitted hrun op operands hlen log := by
    rw [← h.running_eq] at hrun
    obtain ⟨log', hperform⟩ := result_perform unit op operands actor.state log
    refine ⟨log', ?_⟩
    rw [(run_call_submit unit hrun hlen log).1, hperform, h.state_eq]
  state?_eq := by
    rw [Actor.state?, h.running_eq, h.state_eq]

end

end Actor

end RegisterMachine
