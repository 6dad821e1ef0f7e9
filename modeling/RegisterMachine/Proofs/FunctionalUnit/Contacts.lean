import RegisterMachine.Proofs.Actor
import RegisterMachine.Proofs.FunctionalUnit.Session

/-!
# An actor is its loop

An actor does at once what its loop does step by step: a contact that the loop has waited for stands
for a sender or a taker that comes, for the loop that receives or sends, and for what the loop does
by itself until it waits again.

* `Actor.Contacts`: what an actor comes to by contacts that its loop has waited for.
* `Session.Mirrors`, `Session.Reaches.mirrored`: what happens in a run can be made of contacts.
* `Session.Rests`, `Actor.Contacts.exists_reaches`: contacts are what happens in some run.
-/

namespace RegisterMachine

open Exec

variable {σ ω ρ : Type}

/-! ## The actor -/

namespace Actor

/-- What an actor comes to by contacts that its loop has waited for, and the outcomes that have been
taken from it. -/
inductive Contacts (unit : FunctionalUnit σ ω ρ) (first : Actor σ ω ρ) :
    List (Except Fault ρ) → Actor σ ω ρ → Prop
  | nil : Contacts unit first [] first
  | sendOperation {answers : List (Except Fault ρ)} {actor : Actor σ ω ρ}
      (h : Contacts unit first answers actor) (ports : Ports) (op : ω) (log : Log)
      (hdone : (sendOperation unit ports op).result actor log = .ok (.done ())) :
      Contacts unit first answers ((sendOperation unit ports op).final actor log)
  | sendOperand {answers : List (Except Fault ρ)} {actor : Actor σ ω ρ}
      (h : Contacts unit first answers actor) (ports : Ports) (index : ℕ) (value : Word) (log : Log)
      (hdone : (sendOperand unit ports index value).result actor log = .ok (.done ())) :
      Contacts unit first answers ((sendOperand unit ports index value).final actor log)
  | receive {answers : List (Except Fault ρ)} {actor : Actor σ ω ρ}
      (h : Contacts unit first answers actor) (ports : Ports) (outcome : Except Fault ρ) (log : Log)
      (hdone : (receive ports).result actor log = .ok (.done outcome)) :
      Contacts unit first (answers ++ [outcome]) ((receive ports).final actor log)

namespace Contacts
variable {unit : FunctionalUnit σ ω ρ} {first actor : Actor σ ω ρ}
  {answers : List (Except Fault ρ)} (h : Contacts unit first answers actor)
include h

theorem proceeded_nil (hp : actor.phase = some .ready) (op : ω) (log : Log) :
    Contacts unit first answers (actor.proceeded unit op [] log) := by
  have hphase : actor.phaseAt ⟨actor.runs⟩ = some .ready := (if_pos rfl).trans hp
  obtain ⟨hdone, hfinal⟩ := run_sendOperation unit log hphase
  exact hfinal ▸ h.sendOperation _ op log hdone

theorem proceeded_concat {op : ω} {operands : List Word}
    (hp : actor.phase = some (.gathering op operands)) (value : Word) (log : Log) :
    Contacts unit first answers (actor.proceeded unit op (operands ++ [value]) log) := by
  have hphase : actor.phaseAt ⟨actor.runs⟩ = some (.gathering op operands) :=
    (if_pos rfl).trans hp
  obtain ⟨hdone, hfinal⟩ := run_sendOperand unit log hphase value
  exact hfinal ▸ h.sendOperand _ _ value log hdone

theorem ready {outcome : Except Fault ρ} (hp : actor.phase = some (.delivering outcome)) :
    Contacts unit first (answers ++ [outcome]) { actor with phase := some .ready } := by
  have hphase : actor.phaseAt ⟨actor.runs⟩ = some (.delivering outcome) := (if_pos rfl).trans hp
  have hreceive := gives_receive hphase
  have hcontact := h.receive _ outcome (.ofLevel none) (hreceive.result_eq _)
  rwa [hreceive.final_eq] at hcontact

end Contacts

end Actor

namespace Session

variable {unit : FunctionalUnit σ ω ρ} {start : σ} {events : List (Event ω ρ)}
  {event : Event ω ρ} {s s' : Session σ ω ρ} {actor first : Actor σ ω ρ}
  {answers : List (Except Fault ρ)}

/-- What the actor waits for while the loop is in a phase. The actor executes an operation as soon
as it has what it needs; it is given the last of that only when the loop executes. -/
def lagging (unit : FunctionalUnit σ ω ρ) : Option (Phase ω ρ) → Phase ω ρ
  | none => .ready
  | some (.gathering op operands) =>
    if operands.length < unit.operandCount op then .gathering op operands
    else if operands.isEmpty then .ready
    else .gathering op operands.dropLast
  | some phase => phase

section
variable {op : ω} {operands : List Word}

theorem lagging_of_lt (h : operands.length < unit.operandCount op) :
    lagging unit (some (.gathering op operands)) = .gathering op operands :=
  if_pos h

theorem lagging_nil (h : ¬([] : List Word).length < unit.operandCount op) :
    lagging unit (some (.gathering op [])) = .ready :=
  if_neg h

theorem lagging_concat {value : Word} (h : ¬(operands ++ [value]).length < unit.operandCount op) :
    lagging unit (some (.gathering op (operands ++ [value]))) = .gathering op operands := by
  rw [lagging, if_neg h]
  simp

end

/-- The actor is where the loop is. -/
structure Mirrors (unit : FunctionalUnit σ ω ρ) (actor : Actor σ ω ρ) (s : Session σ ω ρ) :
    Prop where
  state_eq : actor.state = s.state
  phase_eq : actor.phase = some (lagging unit s.phase)

namespace Mirrors

theorem congr (h : Mirrors unit actor s) (hstate : s'.state = s.state)
    (hphase : lagging unit s'.phase = lagging unit s.phase) : Mirrors unit actor s' :=
  ⟨h.state_eq.trans hstate.symm, by rw [h.phase_eq, hphase]⟩

variable (h : Mirrors unit actor s) (hc : Actor.Contacts unit first answers actor)
include h hc

/-- The loop has received an operation. So does the actor, unless it would execute at once. -/
theorem takeOperation {op : ω} (hp : s.phase = some .ready)
    (hphase : s'.phase = some (.gathering op [])) (hstate : s'.state = s.state) :
    ∃ actor', Mirrors unit actor' s' ∧ Actor.Contacts unit first answers actor' := by
  have hready : actor.phase = some .ready := h.phase_eq.trans (by rw [hp]; rfl)
  by_cases hn : ([] : List Word).length < unit.operandCount op
  · have hcontact := hc.proceeded_nil hready op (.ofLevel none)
    rw [Actor.proceeded, if_pos hn] at hcontact
    refine ⟨{ actor with phase := some (.gathering op []) }, ⟨?_, ?_⟩, hcontact⟩
    · rw [hstate, ← h.state_eq]
    · rw [hphase, lagging_of_lt hn]
  · refine ⟨actor, h.congr hstate ?_, hc⟩
    rw [hp, hphase, lagging_nil hn]
    rfl

theorem takeOperand {op : ω} {operands : List Word} {value : Word}
    (hp : s.phase = some (.gathering op operands)) (hlt : operands.length < unit.operandCount op)
    (hphase : s'.phase = some (.gathering op (operands ++ [value])))
    (hstate : s'.state = s.state) :
    ∃ actor', Mirrors unit actor' s' ∧ Actor.Contacts unit first answers actor' := by
  have hgathering : actor.phase = some (.gathering op operands) := by
    rw [h.phase_eq, hp, lagging_of_lt hlt]
  by_cases hn : (operands ++ [value]).length < unit.operandCount op
  · have hcontact := hc.proceeded_concat hgathering value (.ofLevel none)
    rw [Actor.proceeded, if_pos hn] at hcontact
    refine ⟨{ actor with phase := some (.gathering op (operands ++ [value])) }, ⟨?_, ?_⟩, hcontact⟩
    · rw [hstate, ← h.state_eq]
    · rw [hphase, lagging_of_lt hn]
  · refine ⟨actor, h.congr hstate ?_, hc⟩
    rw [hp, hphase, lagging_concat hn, lagging_of_lt hlt]

/-- The loop executes. The actor receives what it lacks for that, and executes as well. -/
theorem execute {op : ω} {operands : List Word} {log : Log}
    (hp : s.phase = some (.gathering op operands)) (hn : operands.length = unit.operandCount op)
    (hphase : s'.phase = some (.delivering ((unit.perform op operands).result s.state log)))
    (hstate : s'.state = (unit.perform op operands).final s.state log) :
    ∃ actor', Mirrors unit actor' s' ∧ Actor.Contacts unit first answers actor' := by
  have hlagging := h.phase_eq
  rw [hp] at hlagging
  refine ⟨actor.proceeded unit op operands log, ?_, ?_⟩
  · rw [Actor.proceeded, if_neg hn.not_lt, h.state_eq]
    exact ⟨hstate.symm, by rw [hphase]; rfl⟩
  · rcases List.eq_nil_or_concat' operands with rfl | ⟨before, value, rfl⟩
    · rw [lagging_nil hn.not_lt] at hlagging
      exact hc.proceeded_nil hlagging op log
    · rw [lagging_concat hn.not_lt] at hlagging
      exact hc.proceeded_concat hlagging value log

theorem deliver {outcome : Except Fault ρ} (hp : s.phase = some (.delivering outcome))
    (hphase : s'.phase = none) (hstate : s'.state = s.state) :
    ∃ actor', Mirrors unit actor' s' ∧
      Actor.Contacts unit first (answers ++ [outcome]) actor' := by
  have hdelivering : actor.phase = some (.delivering outcome) :=
    h.phase_eq.trans (by rw [hp]; rfl)
  refine ⟨{ actor with phase := some .ready }, ⟨?_, ?_⟩, hc.ready hdelivering⟩
  · rw [hstate, ← h.state_eq]
  · rw [hphase]
    rfl

/-- **What happens in a run can be made of contacts with the actor.** -/
theorem step (hports : ∀ op, unit.operandCount op ≤ unit.ports) (hs : Step unit s event s') :
    ∃ actor', Mirrors unit actor' s' ∧
      Actor.Contacts unit first (answers ++ delivered [event]) actor' := by
  have hneeded (op : ω) : needed unit op = unit.operandCount op := min_eq_left (hports op)
  have hsilent (hdelivered : delivered [event] = [])
      (hm : ∃ actor', Mirrors unit actor' s' ∧ Actor.Contacts unit first answers actor') :
      ∃ actor', Mirrors unit actor' s' ∧
        Actor.Contacts unit first (answers ++ delivered [event]) actor' := by
    rwa [hdelivered, List.append_nil]
  cases hs with
  | around hs =>
    refine hsilent ?_ ⟨actor, h.congr ?_ ?_, hc⟩ <;> cases hs <;> rfl
  | turn _ hs =>
    cases hs with
    | look hp _ => exact hsilent rfl ⟨actor, h.congr rfl (by rw [hp]; rfl), hc⟩
    | takeOperation hp _ => exact hsilent rfl (h.takeOperation hc hp rfl rfl)
    | takeOperand hp hn _ => exact hsilent rfl (h.takeOperand hc hp (hneeded _ ▸ hn) rfl rfl)
    | execute hp hn log => exact hsilent rfl (h.execute hc hp (hn.trans (hneeded _)) rfl rfl)
    | deliverResult hp _ => exact h.deliver hc hp rfl rfl
    | deliverError hp _ => exact h.deliver hc hp rfl rfl
    | leave _ => exact hsilent rfl ⟨actor, h.congr rfl rfl, hc⟩

end Mirrors

theorem Reaches.mirrored (h : Reaches unit start events s)
    (hports : ∀ op, unit.operandCount op ≤ unit.ports) (log : Log) :
    ∃ actor, Mirrors unit actor s ∧
      Actor.Contacts unit ((Actor.start unit).final (.ofState start) log) (delivered events)
        actor := by
  induction h with
  | nil =>
    have hidle : (Actor.ofState start : Actor σ ω ρ).isRunning = false := rfl
    rw [(Actor.gives_start unit hidle).final_eq log]
    exact ⟨_, ⟨rfl, rfl⟩, .nil⟩
  | step _ hs ih =>
    obtain ⟨actor, hmirrors, hcontacts⟩ := ih
    have hstep := hmirrors.step hcontacts hports hs
    rwa [← delivered_append] at hstep

/-! ## Contacts as runs -/

/-- No stop is on its way, and no sender waits. -/
structure Quiet (s : Session σ ω ρ) : Prop where
  left_eq : s.left = false
  listener_eq : s.listener = .listening
  operations_eq : s.operations = []
  operands_eq : ∀ port, s.operands port = []

/-- The loop waits for what the actor waits for, and lacks it. -/
structure Rests (unit : FunctionalUnit σ ω ρ) (s : Session σ ω ρ) (actor : Actor σ ω ρ) : Prop
    extends Quiet s where
  state_eq : s.state = actor.state
  phase_eq : s.phase = actor.phase
  short : ∀ op operands, s.phase = some (.gathering op operands) →
    operands.length < unit.operandCount op

/-- A loop that has received something goes on like the actor. -/
theorem Reaches.exists_rests_proceeded (h : Reaches unit start events s) (hquiet : Quiet s)
    (hports : ∀ op, unit.operandCount op ≤ unit.ports) {op : ω} {operands : List Word}
    (hp : s.phase = some (.gathering op operands)) (hle : operands.length ≤ unit.operandCount op)
    (hstate : s.state = actor.state) (log : Log) :
    ∃ events' s', Reaches unit start (events ++ events') s' ∧ delivered events' = [] ∧
      Rests unit s' (actor.proceeded unit op operands log) := by
  by_cases hn : operands.length < unit.operandCount op
  · rw [Actor.proceeded, if_pos hn]
    refine ⟨[], s, by rwa [List.append_nil], rfl, ⟨hquiet, hstate, hp, ?_⟩⟩
    rintro op' operands' hp'
    cases hp.symm.trans hp'
    exact hn
  · have hneeded : operands.length = needed unit op := by
      rw [needed, min_eq_left (hports op)]
      omega
    rw [Actor.proceeded, if_neg hn, ← hstate]
    refine ⟨_, _, h.step (.turn hquiet.left_eq (.execute hp hneeded log)), rfl, ⟨?_, rfl, rfl, ?_⟩⟩
    · exact ⟨hquiet.left_eq, hquiet.listener_eq, hquiet.operations_eq, hquiet.operands_eq⟩
    · rintro _ _ ⟨⟩

end Session

open Session in
/-- **Contacts with the actor are what happens in a run.** -/
theorem Actor.Contacts.exists_reaches {unit : FunctionalUnit σ ω ρ} {start : σ} {log : Log}
    {answers : List (Except Fault ρ)} {actor : Actor σ ω ρ}
    (hports : ∀ op, unit.operandCount op ≤ unit.ports)
    (h : Actor.Contacts unit ((Actor.start unit).final (.ofState start) log) answers actor) :
    ∃ events s, Reaches unit start events s ∧ delivered events = answers ∧ Rests unit s actor := by
  induction h with
  | nil =>
    have hidle : (Actor.ofState start : Actor σ ω ρ).isRunning = false := rfl
    rw [(Actor.gives_start unit hidle).final_eq log]
    refine ⟨_, _, Reaches.nil.step (.turn rfl (.look rfl rfl)), rfl, ⟨?_, rfl, rfl, ?_⟩⟩
    · exact ⟨rfl, rfl, rfl, fun _ => rfl⟩
    · rintro _ _ ⟨⟩
  | sendOperation _ ports op log hdone ih =>
    obtain ⟨events, s, hreaches, rfl, hrests⟩ := ih
    have hphase := Actor.ready_of_sendOperation unit hdone
    have hp := hrests.phase_eq.trans (Actor.phase_eq_of_phaseAt hphase)
    have hwaiting : s.operations ++ [op] = [op] := by rw [hrests.operations_eq, List.nil_append]
    have htaken := (hreaches.step (.around (.offerOperation op))).step
      (.turn hrests.left_eq (.takeOperation hp hwaiting))
    obtain ⟨events', s', hreaches', hnone, hrests'⟩ := htaken.exists_rests_proceeded
      ⟨hrests.left_eq, hrests.listener_eq, rfl, hrests.operands_eq⟩ hports rfl (Nat.zero_le _)
      hrests.state_eq log
    rw [(Actor.run_sendOperation unit log hphase).2]
    refine ⟨_, s', hreaches', ?_, hrests'⟩
    rw [delivered_append, hnone]
    simp [delivered]
  | sendOperand _ ports index value log hdone ih =>
    obtain ⟨events, s, hreaches, rfl, hrests⟩ := ih
    obtain ⟨op, operands, hphase, rfl⟩ := Actor.gathering_of_sendOperand unit hdone
    have hp := hrests.phase_eq.trans (Actor.phase_eq_of_phaseAt hphase)
    have hlt := hrests.short op operands hp
    have hneeded : operands.length < needed unit op := by
      rwa [needed, min_eq_left (hports op)]
    have hwaiting : Function.update s.operands operands.length
        (s.operands operands.length ++ [value]) operands.length = [value] := by
      rw [Function.update_self, hrests.operands_eq, List.nil_append]
    have htaken := (hreaches.step (.around (.offerOperand value (hlt.trans_le (hports op))))).step
      (.turn hrests.left_eq (.takeOperand hp hneeded hwaiting))
    have hempty (port : ℕ) : Function.update (Function.update s.operands operands.length
        (s.operands operands.length ++ [value])) operands.length [] port = [] := by
      rw [Function.update_idem, Function.update_apply]
      split_ifs
      exacts [rfl, hrests.operands_eq port]
    obtain ⟨events', s', hreaches', hnone, hrests'⟩ := htaken.exists_rests_proceeded
      ⟨hrests.left_eq, hrests.listener_eq, hrests.operations_eq, hempty⟩ hports rfl
      (by simpa using hlt) hrests.state_eq log
    rw [(Actor.run_sendOperand unit log hphase value).2]
    refine ⟨_, s', hreaches', ?_, hrests'⟩
    rw [delivered_append, hnone]
    simp [delivered]
  | @receive answers actor _ ports outcome log hdone ih =>
    obtain ⟨events, s, hreaches, rfl, hrests⟩ := ih
    have hphase := Actor.delivering_of_receive hdone
    have hp := hrests.phase_eq.trans (Actor.phase_eq_of_phaseAt hphase)
    rw [(Actor.gives_receive hphase).final_eq log]
    have hflag : s.listener.flag = true := by
      rw [hrests.listener_eq]
      rfl
    cases outcome with
    | ok output =>
      refine ⟨_, _, ((hreaches.step (.around .askResult)).step (.turn hrests.left_eq
        (.deliverResult hp rfl))).step (.turn hrests.left_eq (.look rfl hflag)), ?_, ?_⟩
      · simp [delivered]
      · exact ⟨⟨hrests.left_eq, hrests.listener_eq, hrests.operations_eq, hrests.operands_eq⟩,
          hrests.state_eq, rfl, by rintro _ _ ⟨⟩⟩
    | error fault =>
      refine ⟨_, _, ((hreaches.step (.around .askError)).step (.turn hrests.left_eq
        (.deliverError hp rfl))).step (.turn hrests.left_eq (.look rfl hflag)), ?_, ?_⟩
      · simp [delivered]
      · exact ⟨⟨hrests.left_eq, hrests.listener_eq, hrests.operations_eq, hrests.operands_eq⟩,
          hrests.state_eq, rfl, by rintro _ _ ⟨⟩⟩

end RegisterMachine
