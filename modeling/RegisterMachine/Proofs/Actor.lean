import RegisterMachine.FunctionalUnit.Actor
import RegisterMachine.Proofs.Exec

/-!
# What comes of using an actor

An owner that keeps to starting an actor and submitting operations sees the plain unit. Others talk
to the loop, which goes on if it has waited for what they come with.

* `Actor.gives_submit`: a running actor answers what its unit answers.
* `Actor.gives_start`, `Actor.gives_stop`: an idle actor can be started, and a running one stopped.
* `Actor.run_sendOperation`, `Actor.run_sendOperand`, `Actor.gives_receive`: what comes of a contact
  that the loop has waited for.
-/

namespace RegisterMachine

namespace FunctionalUnit

theorem gives_operand {σ : Type} (state : σ) (unit : String) {operands : List Word} {position : ℕ}
    {value : Word} (h : operands[position]? = some value) :
    Exec.Gives state (operand unit operands position) (.ok value) state := by
  rw [operand, h]
  exact Exec.gives_pure state value

end FunctionalUnit

namespace Actor

open Exec

variable {σ ω ρ α : Type} {actor : Actor σ ω ρ}

section
variable {Q : Except Fault α → Actor σ ω ρ → Prop} {R : Except Fault ρ → Actor σ ω ρ → Prop}

theorem ensures_onState {x : Exec σ α}
    (hx : Ensures actor.state x fun o state => Q o { actor with state }) :
    Ensures actor (onState x) Q :=
  hx

/-- A submission that is not refused comes to what the unit comes to. -/
theorem ensures_submit (unit : FunctionalUnit σ ω ρ) {op : ω} {operands : List Word}
    (hrun : actor.isRunning = true) (hlen : operands.length = unit.operandCount op)
    (hx : Ensures actor.state (unit.execute op operands) fun o state =>
      R o { actor with state }) :
    Ensures actor (submit unit op operands) R := by
  refine (gives_get actor).bind ?_
  refine Ensures.ite (fun hidle => ?_) fun _ => Ensures.ite (fun hne => absurd hlen hne) fun _ => ?_
  · rw [hrun] at hidle
    cases hidle
  · exact ensures_onState ((gives_note _ _ _).bind hx)

end

/-- A running actor answers what its unit answers. -/
theorem gives_submit (unit : FunctionalUnit σ ω ρ) {op : ω} {operands : List Word}
    {o : Except Fault ρ} {state : σ} (hrun : actor.isRunning = true)
    (hlen : operands.length = unit.operandCount op)
    (hx : Gives actor.state (unit.execute op operands) o state) :
    Gives actor (submit unit op operands) o { actor with state } :=
  ensures_submit unit hrun hlen (hx.ensures ⟨rfl, rfl⟩)

theorem gives_start (unit : FunctionalUnit σ ω ρ) (h : actor.isRunning = false) :
    Gives actor (start unit) (.ok ())
      { actor with phase := some .ready, runs := actor.runs + 1 } := by
  refine (gives_get actor).bind (Ensures.ite (fun hrun => ?_) fun _ => ?_)
  · rw [h] at hrun
    cases hrun
  · refine (gives_modify actor _).bind ?_
    exact gives_note _ _ _

theorem gives_stop (unit : FunctionalUnit σ ω ρ) (h : actor.isRunning = true) :
    Gives actor (stop unit) (.ok ()) { actor with phase := none } := by
  refine (gives_get actor).bind (Ensures.ite (fun hidle => ?_) fun _ => ?_)
  · rw [h] at hidle
    cases hidle
  · refine (gives_modify actor _).bind ?_
    exact gives_note _ _ _

/-! ## Refusals -/

section
variable (unit : FunctionalUnit σ ω ρ)

theorem gives_start_running (h : actor.isRunning = true) :
    Gives actor (start unit) (.error (.unitAlreadyRunning unit.name)) actor := by
  refine (gives_get actor).bind (Ensures.ite (fun _ => ?_) fun hidle => absurd h hidle)
  exact gives_throw actor _

theorem gives_stop_idle (h : actor.isRunning = false) :
    Gives actor (stop unit) (.error (.unitNotRunning unit.name)) actor := by
  refine (gives_get actor).bind (Ensures.ite (fun _ => gives_throw actor _) fun hrun => ?_)
  exact absurd (by rw [h]; rfl) hrun

theorem gives_submit_idle (h : actor.isRunning = false) (op : ω) (operands : List Word) :
    Gives actor (submit unit op operands) (.error (.unitNotRunning unit.name)) actor := by
  refine (gives_get actor).bind (Ensures.ite (fun _ => gives_throw actor _) fun hrun => ?_)
  exact absurd (by rw [h]; rfl) hrun

theorem gives_submit_count (h : actor.isRunning = true) {op : ω} {operands : List Word}
    (hlen : operands.length ≠ unit.operandCount op) :
    Gives actor (submit unit op operands)
      (.error (.indexOutOfRange .operandCount operands.length (unit.operandCount op))) actor := by
  refine (gives_get actor).bind (Ensures.ite (fun hidle => ?_) fun _ => ?_)
  · rw [h] at hidle
    cases hidle
  · exact Ensures.ite (fun _ => gives_throw actor _) fun heq => absurd hlen heq

/-- A submission that is not refused does what the unit does, whatever the log. -/
theorem run_submit (h : actor.isRunning = true) {op : ω} {operands : List Word}
    (hlen : operands.length = unit.operandCount op) (log : Log) :
    (submit unit op operands).run actor log =
      (onState (unit.perform op operands)).run actor log := by
  have hrunning : ¬(!actor.isRunning) = true := by simp [h]
  rw [submit, run_bind, run_get]
  dsimp only
  rw [if_neg hrunning, if_neg (not_not.2 hlen)]

end

/-! ## Contacts -/

/-- The actor once its loop has gone on with what it has received. -/
def proceeded (unit : FunctionalUnit σ ω ρ) (op : ω) (operands : List Word) (log : Log)
    (actor : Actor σ ω ρ) : Actor σ ω ρ :=
  if operands.length < unit.operandCount op then
    { actor with phase := some (.gathering op operands) }
  else
    { actor with
      state := (unit.perform op operands).final actor.state log
      phase := some (.delivering ((unit.perform op operands).result actor.state log)) }

section
variable (unit : FunctionalUnit σ ω ρ) {ports : Ports} {op : ω} {operands : List Word} (log : Log)

theorem run_proceed : (proceed unit op operands).result actor log = .ok () ∧
    (proceed unit op operands).final actor log = actor.proceeded unit op operands log := by
  rw [proceed, proceeded]
  split_ifs <;> exact ⟨rfl, rfl⟩

/-- What comes after a look at the actor, if the loop goes on with what it receives. -/
theorem run_proceed_done {x : Actor σ ω ρ → Exec (Actor σ ω ρ) (Contact Unit)}
    (hx : x actor = do
      proceed unit op operands
      return .done ()) :
    (get >>= x).result actor log = .ok (.done ()) ∧
      (get >>= x).final actor log = actor.proceeded unit op operands log := by
  obtain ⟨hresult, hfinal⟩ : (proceed unit op operands).result actor log = .ok () ∧
      (proceed unit op operands).final actor log = _ := run_proceed unit log
  have hget : (get : Exec (Actor σ ω ρ) _).result actor log = .ok actor := rfl
  rw [result_bind, final_bind, hget]
  change (x actor).result actor log = _ ∧ (x actor).final actor log = _
  rw [hx, result_bind, final_bind, hresult]
  exact ⟨rfl, hfinal⟩

theorem run_sendOperation (h : actor.phaseAt ports = some .ready) :
    (sendOperation unit ports op).result actor log = .ok (.done ()) ∧
      (sendOperation unit ports op).final actor log = actor.proceeded unit op [] log := by
  refine run_proceed_done unit log ?_
  rw [h]

theorem run_sendOperand (h : actor.phaseAt ports = some (.gathering op operands)) (value : Word) :
    (sendOperand unit ports operands.length value).result actor log = .ok (.done ()) ∧
      (sendOperand unit ports operands.length value).final actor log =
        actor.proceeded unit op (operands ++ [value]) log := by
  refine run_proceed_done unit log ?_
  rw [h]
  exact if_pos rfl

theorem gives_receive {outcome : Except Fault ρ}
    (h : actor.phaseAt ports = some (.delivering outcome)) :
    Gives actor (receive ports) (.ok (.done outcome)) { actor with phase := some .ready } := by
  refine (gives_get actor).bind ?_
  rw [h]
  exact (gives_modify actor _).bind (gives_pure _ _)

theorem phase_eq_of_phaseAt {phase : Phase ω ρ} (h : actor.phaseAt ports = some phase) :
    actor.phase = some phase := by
  rw [phaseAt] at h
  split_ifs at h
  exact h

/-- A contact that comes about is one that the loop has waited for. -/
theorem ready_of_sendOperation {log : Log}
    (h : (sendOperation unit ports op).result actor log = .ok (.done ())) :
    actor.phaseAt ports = some .ready := by
  rcases hp : actor.phaseAt ports with _ | _ | ⟨op', operands⟩ | outcome
  case some.ready => rfl
  all_goals
    have hx : Gives actor (sendOperation unit ports op) (.ok _) actor :=
      (gives_get actor).bind (by rw [hp]; exact gives_pure actor _)
    cases hx.eq_of_result h

theorem gathering_of_sendOperand {log : Log} {index : ℕ} {value : Word}
    (h : (sendOperand unit ports index value).result actor log = .ok (.done ())) :
    ∃ op operands, actor.phaseAt ports = some (.gathering op operands) ∧
      index = operands.length := by
  rcases hp : actor.phaseAt ports with _ | _ | ⟨op, operands⟩ | outcome
  case some.gathering =>
    refine ⟨op, operands, rfl, ?_⟩
    by_contra hindex
    have hx : Gives actor (sendOperand unit ports index value) (.ok .blocked) actor := by
      refine (gives_get actor).bind ?_
      rw [hp]
      exact Ensures.ite (fun heq => absurd heq hindex) fun _ => gives_pure actor _
    cases hx.eq_of_result h
  all_goals
    have hx : Gives actor (sendOperand unit ports index value) (.ok _) actor :=
      (gives_get actor).bind (by rw [hp]; exact gives_pure actor _)
    cases hx.eq_of_result h

theorem delivering_of_receive {log : Log} {outcome : Except Fault ρ}
    (h : (receive ports).result actor log = .ok (.done outcome)) :
    actor.phaseAt ports = some (.delivering outcome) := by
  rcases hp : actor.phaseAt ports with _ | _ | ⟨op, operands⟩ | outcome'
  case some.delivering =>
    cases (gives_receive hp).eq_of_result h
    rfl
  all_goals
    have hx : Gives actor (receive ports) (.ok _) actor :=
      (gives_get actor).bind (by rw [hp]; exact gives_pure actor _)
    cases hx.eq_of_result h

end

end Actor

end RegisterMachine
