import RegisterMachine.FunctionalUnit.Registers
import RegisterMachine.Proofs.FunctionalUnit.Owner

/-!
# An owner and its threads

A call of an owner goes back and forth between three threads: the owner itself, the loop, and the
listener that a stop is sent to. The channels between them are made anew at every start and hold
nothing, so that a message passes when both sides are there, and the owner waits for it. Whatever
order things happen in, every call comes to an end, and the owner has the answers and the unit that
it has of an actor that does every call at once.

* `Tandem`: where the owner is in a call, and where its threads are.
* `Tandem.Move`: one thing that happens, and `Tandem.Reaches`: any number of calls.
* `Tandem.Turned`: what the loop can do when nobody but the owner talks to it.
* `Tandem.InStep`, `Tandem.InStep.move`: the threads are where the calls so far have left an actor.
* `Tandem.Move.weight_lt`, `Tandem.InStep.exists_move`: nothing goes on for ever or gets stuck.
* `Tandem.actor_refines_unit`: what this says of the owner.
-/

namespace RegisterMachine

open Exec

variable {σ ω ρ : Type}

/-! ## The owner -/

/-- Where the owner of an actor is. -/
inductive Stage (ω ρ : Type) where
  /-- Between calls. -/
  | free
  /-- Waits for the loop to receive an operation. -/
  | sending (op : ω) (operands : List Word)
  /-- Waits for the loop to receive the next operand, or to have an outcome. -/
  | feeding (op : ω) (operands : List Word) (sent : ℕ)
  /-- Waits for the listener to receive a stop. -/
  | signalling
  /-- The stop has been received, if there was a listener. -/
  | signalled (received : Bool)
  /-- Has dropped its ends of the channels and waits for the threads to exit. -/
  | joining (received : Bool)
  /-- Is about to return from a call. -/
  | returning (call : Actor.Call ω) (answer : Except Fault (Option ρ))

namespace Stage

/-- The operation that the owner has come with. -/
def operations : Stage ω ρ → List ω
  | sending op _ => [op]
  | _ => []

/-- The operand that the owner has come with at a port. It has one for every port at most. -/
def operands (ports : ℕ) : Stage ω ρ → ℕ → List Word
  | feeding _ operands sent, port => if port = sent then (operands.take ports)[port]?.toList else []
  | _, _ => []

/-- Whether the owner takes an outcome, by whichever channel it comes. -/
def takers (ports : ℕ) : Stage ω ρ → ℕ
  | feeding _ operands sent => if (operands.take ports).length ≤ sent then 1 else 0
  | _ => 0

/-- Whether the owner has dropped its ends of the channels. -/
def hungUp : Stage ω ρ → Bool
  | joining _ => true
  | _ => false

/-- Where the owner is after something that the loop does. -/
def after : Stage ω ρ → Session.Event ω ρ → Stage ω ρ
  | sending op operands, .takeOperation _ => feeding op operands 0
  | feeding op operands sent, .takeOperand _ _ => feeding op operands (sent + 1)
  | feeding op operands _, .deliverResult output =>
    returning (.submit op operands) (.ok (some output))
  | feeding op operands _, .deliverError fault => returning (.submit op operands) (.error fault)
  | stage, _ => stage

/-- How much the owner has still to do in a call. -/
def weight : Stage ω ρ → ℕ
  | free | returning _ _ => 0
  | sending _ operands => operands.length + 5
  | feeding _ operands sent => operands.length - sent + 3
  | signalling => 3
  | signalled _ => 2
  | joining _ => 1

section
variable {stage : Stage ω ρ} {ports : ℕ}

theorem eq_sending_of_operations {op : ω} {rest : List ω} (h : stage.operations = op :: rest) :
    ∃ operands, stage = sending op operands := by
  cases stage with
  | sending op' operands =>
    cases h
    exact ⟨operands, rfl⟩
  | _ => cases h

theorem eq_feeding_of_operands {port : ℕ} {value : Word} {rest : List Word}
    (h : stage.operands ports port = value :: rest) :
    ∃ op operands, stage = feeding op operands port ∧
      (operands.take ports)[port]? = some value := by
  cases stage with
  | feeding op operands sent =>
    rw [Stage.operands] at h
    split_ifs at h with hport
    subst hport
    refine ⟨op, operands, rfl, ?_⟩
    cases hv : (operands.take ports)[port]? with
    | none => rw [hv] at h; cases h
    | some value' => rw [hv] at h; cases h; rfl
  | _ => cases h

theorem eq_feeding_of_takers {takers : ℕ} (h : stage.takers ports = takers + 1) :
    ∃ op operands sent, stage = feeding op operands sent ∧
      (operands.take ports).length ≤ sent := by
  cases stage with
  | feeding op operands sent =>
    rw [Stage.takers] at h
    split_ifs at h with hsent
    exact ⟨op, operands, sent, rfl, hsent⟩
  | _ => cases h

end

end Stage

/-! ## The threads -/

/-- The loop and the listener of a run. -/
structure Threads (σ ω ρ : Type) where
  state : σ
  phase : Option (Phase ω ρ)
  left : Bool
  listener : Listener

/-- Where the unit is: in the hands of the owner, or of the loop. -/
inductive Site (σ ω ρ : Type) where
  | idle (state : σ)
  | running (threads : Threads σ ω ρ)

/-- The owner of an actor and its threads. -/
structure Tandem (σ ω ρ : Type) where
  stage : Stage ω ρ
  site : Site σ ω ρ

namespace Threads

/-- The run as the loop finds it: nobody comes with anything but the owner. -/
def session (unit : FunctionalUnit σ ω ρ) (threads : Threads σ ω ρ) (stage : Stage ω ρ) :
    Session σ ω ρ where
  state := threads.state
  phase := threads.phase
  left := threads.left
  listener := threads.listener
  hungUp := stage.hungUp
  operations := stage.operations
  operands := stage.operands unit.ports
  resultTakers := stage.takers unit.ports
  errorTakers := stage.takers unit.ports

/-- The threads of a run. -/
def ofSession (s : Session σ ω ρ) : Threads σ ω ρ :=
  ⟨s.state, s.phase, s.left, s.listener⟩

/-- The threads of a run that begins. -/
def begun (state : σ) : Threads σ ω ρ :=
  ofSession (.begun state)

/-- How much the threads have still to do before they exit or wait for the owner. -/
def weight (threads : Threads σ ω ρ) : ℕ :=
  let loop :=
    if threads.left then 0
    else match threads.phase with
      | none => 3
      | some .ready | some (.gathering _ _) => 2
      | some (.delivering _) => 1
  let listener := match threads.listener with
    | .listening => 3
    | .told => 2
    | .cleared => 1
    | .closed => 0
  loop + listener

end Threads

namespace Tandem

/-- An owner that has not called anything. -/
def ofState (state : σ) : Tandem σ ω ρ :=
  ⟨.free, .idle state⟩

/-- The unit, which the owner can look at while it has it. -/
def unit? (t : Tandem σ ω ρ) : Option σ :=
  match t.site with
  | .idle state => some state
  | .running _ => none

/-- The owner begins a call. What it refuses it knows at once. -/
def begin (unit : FunctionalUnit σ ω ρ) (call : Actor.Call ω) (site : Site σ ω ρ) : Tandem σ ω ρ :=
  match call, site with
  | .start, .idle state => ⟨.returning .start (.ok none), .running (.begun state)⟩
  | .start, .running _ => ⟨.returning .start (.error (.unitAlreadyRunning unit.name)), site⟩
  | .stop, .idle _ => ⟨.returning .stop (.error (.unitNotRunning unit.name)), site⟩
  | .stop, .running _ => ⟨.signalling, site⟩
  | .submit op operands, .idle _ =>
    ⟨.returning (.submit op operands) (.error (.unitNotRunning unit.name)), site⟩
  | .submit op operands, .running _ =>
    if operands.length = unit.operandCount op then ⟨.sending op operands, site⟩
    else
      ⟨.returning (.submit op operands)
        (.error (.indexOutOfRange .operandCount operands.length (unit.operandCount op))), site⟩

/-- One thing that happens in a call, or between calls. -/
inductive Move (unit : FunctionalUnit σ ω ρ) : Tandem σ ω ρ → Tandem σ ω ρ → Prop
  /-- The loop does something, maybe with the owner. -/
  | turn {stage : Stage ω ρ} {threads : Threads σ ω ρ} {event : Session.Event ω ρ}
      {s : Session σ ω ρ} (hl : threads.left = false)
      (h : Session.Turn unit (threads.session unit stage) event s) :
      Move unit ⟨stage, .running threads⟩ ⟨stage.after event, .running (.ofSession s)⟩
  /-- The loop has gone, and with it its ends of the channels. -/
  | sendLost {op : ω} {operands : List Word} {threads : Threads σ ω ρ}
      (hl : threads.left = true) :
      Move unit ⟨.sending op operands, .running threads⟩
        ⟨.returning (.submit op operands) (.error (.unitDisconnected unit.name)), .running threads⟩
  | feedLost {op : ω} {operands : List Word} {sent : ℕ} {threads : Threads σ ω ρ}
      (hl : threads.left = true) :
      Move unit ⟨.feeding op operands sent, .running threads⟩
        ⟨.returning (.submit op operands) (.error (.unitDisconnected unit.name)), .running threads⟩
  /-- The listener receives the stop. -/
  | signal {threads : Threads σ ω ρ} (hl : threads.listener = .listening) :
      Move unit ⟨.signalling, .running threads⟩
        ⟨.signalled true, .running { threads with listener := .told }⟩
  | signalLost {threads : Threads σ ω ρ} (hl : threads.listener = .closed) :
      Move unit ⟨.signalling, .running threads⟩ ⟨.signalled false, .running threads⟩
  | clear {stage : Stage ω ρ} {threads : Threads σ ω ρ} (hl : threads.listener = .told) :
      Move unit ⟨stage, .running threads⟩
        ⟨stage, .running { threads with listener := .cleared }⟩
  | close {stage : Stage ω ρ} {threads : Threads σ ω ρ} (hl : threads.listener = .cleared) :
      Move unit ⟨stage, .running threads⟩ ⟨stage, .running { threads with listener := .closed }⟩
  | hangUp {received : Bool} {threads : Threads σ ω ρ} :
      Move unit ⟨.signalled received, .running threads⟩ ⟨.joining received, .running threads⟩
  /-- Both threads have exited, and the unit is back. -/
  | join {received : Bool} {threads : Threads σ ω ρ} (hl : threads.listener = .closed)
      (hleft : threads.left = true) :
      Move unit ⟨.joining received, .running threads⟩
        ⟨.returning .stop (if received then .ok none else .error (.unitDisconnected unit.name)),
          .idle threads.state⟩

/-- What an owner can have called and been answered, and where that leads, from a unit in a state
that it has. -/
inductive Reaches (unit : FunctionalUnit σ ω ρ) (start : σ) :
    List (Actor.Call ω × Except Fault (Option ρ)) → Tandem σ ω ρ → Prop
  | nil : Reaches unit start [] (ofState start)
  | move {history : List (Actor.Call ω × Except Fault (Option ρ))} {t t' : Tandem σ ω ρ}
      (h : Reaches unit start history t) (hm : Move unit t t') : Reaches unit start history t'
  | call {history : List (Actor.Call ω × Except Fault (Option ρ))} {site : Site σ ω ρ}
      (h : Reaches unit start history ⟨.free, site⟩) (call : Actor.Call ω) :
      Reaches unit start history (begin unit call site)
  | back {history : List (Actor.Call ω × Except Fault (Option ρ))} {site : Site σ ω ρ}
      {call : Actor.Call ω} {answer : Except Fault (Option ρ)}
      (h : Reaches unit start history ⟨.returning call answer, site⟩) :
      Reaches unit start (history ++ [(call, answer)]) ⟨.free, site⟩

/-- Whatever happens, and in whatever order, a call comes to its end. -/
inductive Ends (unit : FunctionalUnit σ ω ρ) : Tandem σ ω ρ → Prop
  | returning {call : Actor.Call ω} {answer : Except Fault (Option ρ)} {site : Site σ ω ρ} :
      Ends unit ⟨.returning call answer, site⟩
  | move {t : Tandem σ ω ρ} (hex : ∃ t', Move unit t t')
      (hall : ∀ t', Move unit t t' → Ends unit t') : Ends unit t

/-! ## What the loop does -/

section
variable {unit : FunctionalUnit σ ω ρ}

/-- What the loop can do, alone or with the owner. -/
inductive Turned (unit : FunctionalUnit σ ω ρ) (threads : Threads σ ω ρ) :
    Stage ω ρ → Stage ω ρ → Threads σ ω ρ → Prop
  | look {stage : Stage ω ρ} (hp : threads.phase = none) (hf : threads.listener.flag = true) :
      Turned unit threads stage stage { threads with phase := some .ready }
  | takeOperation {op : ω} {operands : List Word} (hp : threads.phase = some .ready) :
      Turned unit threads (.sending op operands) (.feeding op operands 0)
        { threads with phase := some (.gathering op []) }
  | takeOperand {op op' : ω} {operands taken : List Word} {value : Word}
      (hp : threads.phase = some (.gathering op' taken))
      (hv : (operands.take unit.ports)[taken.length]? = some value) :
      Turned unit threads (.feeding op operands taken.length)
        (.feeding op operands (taken.length + 1))
        { threads with phase := some (.gathering op' (taken ++ [value])) }
  | execute {stage : Stage ω ρ} {op : ω} {taken : List Word}
      (hp : threads.phase = some (.gathering op taken))
      (hn : taken.length = Session.needed unit op) (log : Log) :
      Turned unit threads stage stage
        { threads with
          state := (unit.perform op taken).final threads.state log
          phase := some (.delivering ((unit.perform op taken).result threads.state log)) }
  | deliver {op : ω} {operands : List Word} {sent : ℕ} {outcome : Except Fault ρ}
      (hp : threads.phase = some (.delivering outcome))
      (hsent : (operands.take unit.ports).length ≤ sent) :
      Turned unit threads (.feeding op operands sent)
        (.returning (.submit op operands) (some <$> outcome)) { threads with phase := none }
  | leave {stage : Stage ω ρ} (hm : (threads.session unit stage).MayLeave unit) :
      Turned unit threads stage stage { threads with left := true }

theorem turned {stage : Stage ω ρ} {threads : Threads σ ω ρ} {event : Session.Event ω ρ}
    {s : Session σ ω ρ} (h : Session.Turn unit (threads.session unit stage) event s) :
    Turned unit threads stage (stage.after event) (.ofSession s) := by
  cases h with
  | look hp hf =>
    have hafter : stage.after .look = stage := by cases stage <;> rfl
    rw [hafter]
    exact .look hp hf
  | takeOperation hp ho =>
    obtain ⟨operands, rfl⟩ := Stage.eq_sending_of_operations ho
    exact .takeOperation hp
  | takeOperand hp hn ho =>
    obtain ⟨op, operands, rfl, hv⟩ := Stage.eq_feeding_of_operands ho
    exact .takeOperand hp hv
  | @execute op taken hp hn log =>
    have hafter : stage.after (.execute ⟨op, taken, log⟩) = stage := by cases stage <;> rfl
    rw [hafter]
    exact .execute hp hn log
  | deliverResult hp ht =>
    obtain ⟨op, operands, sent, rfl, hsent⟩ := Stage.eq_feeding_of_takers ht
    exact .deliver hp hsent
  | deliverError hp ht =>
    obtain ⟨op, operands, sent, rfl, hsent⟩ := Stage.eq_feeding_of_takers ht
    exact .deliver hp hsent
  | leave hm =>
    have hafter : stage.after .leave = stage := by cases stage <;> rfl
    rw [hafter]
    exact .leave hm

/-! ## Every call ends -/

/-- How much there is still to do in a call. -/
def weight (t : Tandem σ ω ρ) : ℕ :=
  t.stage.weight + match t.site with
    | .idle _ => 0
    | .running threads => threads.weight

theorem Turned.weight_lt {stage stage' : Stage ω ρ} {threads threads' : Threads σ ω ρ}
    (h : Turned unit threads stage stage' threads') (hl : threads.left = false) :
    stage'.weight + threads'.weight < stage.weight + threads.weight := by
  cases h with
  | look hp hf => simp [Threads.weight, hl, hp]
  | takeOperation hp =>
    simp only [Stage.weight, Threads.weight, hl, hp]
    omega
  | @takeOperand op op' operands taken value hp hv =>
    have hlt : taken.length < operands.length :=
      (List.getElem?_eq_some_iff.1 hv).1.trans_le (List.length_take_le' _ _)
    simp only [Stage.weight, Threads.weight, hl, hp]
    omega
  | execute hp hn log => simp [Threads.weight, hl, hp]
  | deliver hp hsent =>
    simp only [Stage.weight, Threads.weight, hl, hp, Bool.false_eq_true, if_false]
    omega
  | leave hm =>
    have hloop : threads.phase = none ∨ ∃ phase, threads.phase = some phase := by
      cases threads.phase <;> simp
    rcases hloop with hp | ⟨_ | _ | _, hp⟩ <;> simp [Threads.weight, hl, hp]

/-- Nothing goes on for ever: whatever happens, there is less to do. -/
theorem Move.weight_lt {t t' : Tandem σ ω ρ} (h : Move unit t t') : t'.weight < t.weight := by
  cases h with
  | turn hl h => exact (turned h).weight_lt hl
  | sendLost hl | feedLost hl =>
    simp only [weight, Stage.weight]
    omega
  | signal hl | signalLost hl | clear hl | close hl =>
    simp only [weight, Stage.weight, Threads.weight, hl]
    omega
  | hangUp | join hl hleft =>
    simp only [weight, Stage.weight]
    omega

/-! ## The actor that has done the calls -/

/-- The threads of a running actor, before it has been told to stop. -/
structure Attends (actor : Actor σ ω ρ) (threads : Threads σ ω ρ) : Prop where
  running : actor.isRunning = true
  left_eq : threads.left = false
  listener_eq : threads.listener = .listening

/-- The loop waits for an operation, or is about to. -/
structure Calm (actor : Actor σ ω ρ) (threads : Threads σ ω ρ) : Prop
    extends Attends actor threads where
  state_eq : threads.state = actor.state
  phase_eq : threads.phase = none ∨ threads.phase = some .ready

/-- Between calls the unit is where it is for the actor, and in the same state. -/
def Settled (actor : Actor σ ω ρ) : Site σ ω ρ → Prop
  | .idle state => actor.isRunning = false ∧ state = actor.state
  | .running threads => Calm actor threads

/-- The owner and its threads are on the way from an actor to what a call makes of it. -/
inductive InStep (unit : FunctionalUnit σ ω ρ) (actor : Actor σ ω ρ) : Tandem σ ω ρ → Prop
  | free {site : Site σ ω ρ} (h : Settled actor site) : InStep unit actor ⟨.free, site⟩
  | sending {op : ω} {operands : List Word} {threads : Threads σ ω ρ} (h : Calm actor threads)
      (hlen : operands.length = unit.operandCount op) :
      InStep unit actor ⟨.sending op operands, .running threads⟩
  | gathering {op : ω} {operands : List Word} {sent : ℕ} {threads : Threads σ ω ρ}
      (h : Attends actor threads) (hlen : operands.length = unit.operandCount op)
      (hstate : threads.state = actor.state) (hsent : sent ≤ operands.length)
      (hphase : threads.phase = some (.gathering op (operands.take sent))) :
      InStep unit actor ⟨.feeding op operands sent, .running threads⟩
  | delivering {op : ω} {operands : List Word} {threads : Threads σ ω ρ}
      (h : Attends actor threads) (hlen : operands.length = unit.operandCount op) (log : Log)
      (hstate : threads.state = (unit.perform op operands).final actor.state log)
      (hphase : threads.phase =
        some (.delivering ((unit.perform op operands).result actor.state log))) :
      InStep unit actor ⟨.feeding op operands operands.length, .running threads⟩
  | signalling {threads : Threads σ ω ρ} (h : Calm actor threads) :
      InStep unit actor ⟨.signalling, .running threads⟩
  | stopping {stage : Stage ω ρ} {threads : Threads σ ω ρ}
      (hstage : stage = .signalled true ∨ stage = .joining true) (hrun : actor.isRunning = true)
      (hstate : threads.state = actor.state)
      (hphase : threads.phase = none ∨ threads.phase = some .ready)
      (hlistener : threads.listener ≠ .listening) :
      InStep unit actor ⟨stage, .running threads⟩
  | returning {call : Actor.Call ω} {site : Site σ ω ρ} (log : Log)
      (h : Settled ((Actor.call unit call).final actor log) site) :
      InStep unit actor ⟨.returning call ((Actor.call unit call).result actor log), site⟩

section
variable {actor : Actor σ ω ρ} {threads threads' : Threads σ ω ρ} {stage stage' : Stage ω ρ}

/-- A loop that waits for an operation does nothing but look at the flag, or take one. -/
theorem Calm.turned (h : Calm actor threads) (hh : stage.hungUp = false)
    (ht : Turned unit threads stage stage' threads') :
    (stage' = stage ∧ Calm actor threads') ∨
      ∃ op operands, stage = .sending op operands ∧ stage' = .feeding op operands 0 ∧
        threads' = { threads with phase := some (.gathering op []) } := by
  have hphase (phase : Phase ω ρ) (hp : threads.phase = some phase) : phase = .ready := by
    rcases h.phase_eq with hnone | hready
    · rw [hnone] at hp
      cases hp
    · rw [hready] at hp
      cases hp
      rfl
  cases ht with
  | look hp hf => exact .inl ⟨rfl, { h with phase_eq := .inr rfl }⟩
  | takeOperation hp => exact .inr ⟨_, _, rfl, rfl, rfl⟩
  | takeOperand hp hv => cases hphase _ hp
  | execute hp hn log => cases hphase _ hp
  | deliver hp hsent => cases hphase _ hp
  | leave hm =>
    have hclosed : threads.listener ≠ .closed := by rw [h.listener_eq]; decide
    rcases h.phase_eq with hp | hp
    · simp [Session.MayLeave, Threads.session, hp, h.listener_eq, Listener.flag] at hm
    · simp [Session.MayLeave, Threads.session, hp, hclosed, hh] at hm

/-- Between calls nothing happens but that the loop looks at the flag. -/
theorem Settled.move {site : Site σ ω ρ} {t' : Tandem σ ω ρ} (h : Settled actor site)
    (hstage : stage = .free ∨ ∃ call answer, stage = .returning call answer)
    (hm : Move unit ⟨stage, site⟩ t') : ∃ site', t' = ⟨stage, site'⟩ ∧ Settled actor site' := by
  have hh : stage.hungUp = false := by
    rcases hstage with rfl | ⟨call, answer, rfl⟩ <;> rfl
  cases hm with
  | turn hl ht =>
    rcases h.turned hh (Tandem.turned ht) with ⟨heq, hcalm⟩ | ⟨op, operands, rfl, -⟩
    · exact ⟨.running _, by rw [heq], hcalm⟩
    · rcases hstage with hstage | ⟨_, _, hstage⟩ <;> cases hstage
  | clear hl | close hl => cases h.listener_eq.symm.trans hl
  | _ => rcases hstage with hstage | ⟨_, _, hstage⟩ <;> cases hstage

/-- A loop that is not told to stop does not leave where it waits for the owner. -/
theorem Attends.not_mayLeave {phase : Phase ω ρ} (h : Attends actor threads)
    (hp : threads.phase = some phase) (hh : stage.hungUp = false) :
    ¬(threads.session unit stage).MayLeave unit := by
  have hclosed : threads.listener ≠ .closed := by rw [h.listener_eq]; decide
  cases phase <;> simp [Session.MayLeave, Threads.session, hp, hclosed, hh]

/-- A loop that has received operands receives the next, or executes when it has all. -/
theorem Attends.turned_gathering (hports : ∀ op, unit.operandCount op ≤ unit.ports) {op : ω}
    {operands : List Word} {sent : ℕ} (h : Attends actor threads)
    (hlen : operands.length = unit.operandCount op) (hstate : threads.state = actor.state)
    (hsent : sent ≤ operands.length)
    (hphase : threads.phase = some (.gathering op (operands.take sent)))
    (ht : Turned unit threads (.feeding op operands sent) stage' threads') :
    InStep unit actor ⟨stage', .running threads'⟩ := by
  cases ht with
  | look hp hf => cases hphase.symm.trans hp
  | @takeOperand _ op' _ taken value hp hv =>
    obtain ⟨rfl, htaken⟩ : op = op' ∧ operands.take taken.length = taken :=
      Phase.gathering.inj (Option.some.inj (hphase.symm.trans hp))
    have hlt : taken.length < operands.length :=
      (List.getElem?_eq_some_iff.1 hv).1.trans_le (List.length_take_le' _ _)
    have hvalue : operands[taken.length]? = some value := by
      rw [List.getElem?_take] at hv
      split_ifs at hv
      exact hv
    have hnext : taken ++ [value] = operands.take (taken.length + 1) := by
      rw [List.take_add_one, hvalue, htaken]
      rfl
    exact .gathering ⟨h.running, h.left_eq, h.listener_eq⟩ hlen hstate hlt (by rw [hnext])
  | @execute _ op' taken hp hn log =>
    obtain ⟨rfl, htaken⟩ : op = op' ∧ operands.take sent = taken :=
      Phase.gathering.inj (Option.some.inj (hphase.symm.trans hp))
    have hall : sent = operands.length := by
      rw [← htaken, List.length_take, Session.needed, min_eq_left (hports op)] at hn
      omega
    subst hall
    -- the loop has the operands that the owner came with, and no others
    rw [List.take_length] at htaken
    subst htaken
    exact .delivering ⟨h.running, h.left_eq, h.listener_eq⟩ hlen log (by rw [hstate])
      (by rw [hstate])
  | deliver hp _ => cases hphase.symm.trans hp
  | leave hm => exact absurd hm (h.not_mayLeave hphase rfl)

/-- A loop that has executed hands out the outcome, which is that of the actor. -/
theorem Attends.turned_delivering {op : ω} {operands : List Word} (h : Attends actor threads)
    (hlen : operands.length = unit.operandCount op) (log : Log)
    (hstate : threads.state = (unit.perform op operands).final actor.state log)
    (hphase : threads.phase =
      some (.delivering ((unit.perform op operands).result actor.state log)))
    (ht : Turned unit threads (.feeding op operands operands.length) stage' threads') :
    InStep unit actor ⟨stage', .running threads'⟩ := by
  generalize hsent : operands.length = sent at ht
  cases ht with
  | look hp hf => cases hphase.symm.trans hp
  | takeOperand hp _ => cases hphase.symm.trans hp
  | execute hp _ _ => cases hphase.symm.trans hp
  | deliver hp _ =>
    cases hphase.symm.trans hp
    obtain ⟨hresult, hfinal⟩ := Actor.run_call_submit unit h.running hlen log
    rw [← hresult]
    refine .returning log ?_
    rw [hfinal]
    exact ⟨⟨h.running, h.left_eq, h.listener_eq⟩, hstate, .inl rfl⟩
  | leave hm => exact absurd hm (h.not_mayLeave hphase rfl)

/-- A loop that waits for an operation while the owner stops it looks at the flag, or leaves. -/
theorem turned_stopping (hstage : stage = .signalled true ∨ stage = .joining true)
    (hphase : threads.phase = none ∨ threads.phase = some .ready)
    (ht : Turned unit threads stage stage' threads') :
    stage' = stage ∧ threads'.state = threads.state ∧
      (threads'.phase = none ∨ threads'.phase = some .ready) ∧
      threads'.listener = threads.listener := by
  cases ht with
  | look hp hf => exact ⟨rfl, rfl, .inr rfl, rfl⟩
  | execute hp _ _ => rcases hphase with hphase | hphase <;> cases hphase.symm.trans hp
  | leave hm => exact ⟨rfl, rfl, hphase, rfl⟩
  | takeOperation | takeOperand | deliver => rcases hstage with hstage | hstage <;> cases hstage

/-- Whatever happens in a call, the owner and its threads stay on the way. -/
theorem InStep.move (hports : ∀ op, unit.operandCount op ≤ unit.ports) {t t' : Tandem σ ω ρ}
    (h : InStep unit actor t) (hm : Move unit t t') : InStep unit actor t' := by
  cases h with
  | free h =>
    obtain ⟨site', rfl, hsettled⟩ := h.move (.inl rfl) hm
    exact .free hsettled
  | returning log h =>
    obtain ⟨site', rfl, hsettled⟩ := h.move (.inr ⟨_, _, rfl⟩) hm
    exact .returning log hsettled
  | sending h hlen =>
    cases hm with
    | turn hl ht =>
      have ht := Tandem.turned ht
      rcases h.turned rfl ht with ⟨heq, hcalm⟩ | ⟨op, operands, hstage, heq, hthreads⟩
      · rw [heq]
        exact .sending hcalm hlen
      · cases hstage
        rw [heq, hthreads]
        exact .gathering ⟨h.running, h.left_eq, h.listener_eq⟩ hlen h.state_eq (Nat.zero_le _) rfl
    | sendLost hl => cases h.left_eq.symm.trans hl
    | clear hl | close hl => cases h.listener_eq.symm.trans hl
  | gathering h hlen hstate hsent hphase =>
    cases hm with
    | turn hl ht =>
      exact h.turned_gathering hports hlen hstate hsent hphase (Tandem.turned ht)
    | feedLost hl => cases h.left_eq.symm.trans hl
    | clear hl | close hl => cases h.listener_eq.symm.trans hl
  | delivering h hlen log hstate hphase =>
    cases hm with
    | turn hl ht => exact h.turned_delivering hlen log hstate hphase (Tandem.turned ht)
    | feedLost hl => cases h.left_eq.symm.trans hl
    | clear hl | close hl => cases h.listener_eq.symm.trans hl
  | signalling h =>
    cases hm with
    | turn hl ht =>
      rcases h.turned rfl (Tandem.turned ht) with ⟨heq, hcalm⟩ | ⟨op, operands, hstage, -⟩
      · rw [heq]
        exact .signalling hcalm
      · cases hstage
    | signal hl => exact .stopping (.inl rfl) h.running h.state_eq h.phase_eq (by simp)
    | signalLost hl | clear hl | close hl => cases h.listener_eq.symm.trans hl
  | @stopping stage threads hstage hrun hstate hphase hlistener =>
    -- the loop may leave at any time now, but has nothing in work that would be lost
    have hstopping {threads' : Threads σ ω ρ} (hs : threads'.state = threads.state)
        (hp : threads'.phase = none ∨ threads'.phase = some .ready)
        (hl : threads'.listener ≠ .listening) : InStep unit actor ⟨stage, .running threads'⟩ :=
      .stopping hstage hrun (hs.trans hstate) hp hl
    cases hm with
    | turn hl ht =>
      obtain ⟨heq, hs, hp, hl⟩ := turned_stopping hstage hphase (Tandem.turned ht)
      rw [heq]
      exact hstopping hs hp (hl ▸ hlistener)
    | clear hl | close hl => exact hstopping rfl hphase (by simp)
    | hangUp =>
      rcases hstage with hstage | hstage <;> cases hstage
      exact .stopping (.inr rfl) hrun hstate hphase hlistener
    | join hl hleft =>
      rcases hstage with hstage | hstage <;> cases hstage
      have hstop := Actor.gives_call_stop unit hrun
      have hback : InStep unit actor ⟨.returning .stop
          ((Actor.call unit .stop).result actor (.ofLevel none)), .idle threads.state⟩ := by
        refine .returning _ ?_
        rw [hstop.final_eq]
        exact ⟨rfl, hstate⟩
      rwa [hstop.result_eq] at hback
    | sendLost | feedLost | signal | signalLost =>
      rcases hstage with hstage | hstage <;> cases hstage

/-- A call begins where the actor is. -/
theorem Settled.begin {site : Site σ ω ρ} (h : Settled actor site) (call : Actor.Call ω) :
    InStep unit actor (begin unit call site) := by
  have hrefused {fault : Fault} (hf : Actor.refusal? unit actor.isRunning call = some fault) :
      InStep unit actor ⟨.returning call (.error fault), site⟩ := by
    have hx := Actor.gives_call_refused unit hf
    have hback : InStep unit actor
        ⟨.returning call ((Actor.call unit call).result actor (.ofLevel none)), site⟩ := by
      refine .returning _ ?_
      rw [hx.final_eq]
      exact h
    rwa [hx.result_eq] at hback
  cases site with
  | idle state =>
    have hidle : actor.isRunning = false := h.1
    cases call with
    | start =>
      have hx := Actor.gives_call_start unit hidle
      have hback : InStep unit actor ⟨.returning .start
          ((Actor.call unit .start).result actor (.ofLevel none)), .running (.begun state)⟩ := by
        refine .returning _ ?_
        rw [hx.final_eq]
        exact ⟨⟨rfl, rfl, rfl⟩, h.2, .inl rfl⟩
      rwa [hx.result_eq] at hback
    | stop | submit op operands => exact hrefused (by rw [hidle]; rfl)
  | running threads =>
    have hrun : actor.isRunning = true := Attends.running (Calm.toAttends h)
    cases call with
    | start => exact hrefused (by rw [hrun]; rfl)
    | stop => exact .signalling h
    | submit op operands =>
      rw [Tandem.begin]
      split_ifs with hlen
      · exact .sending h hlen
      · exact hrefused (by rw [hrun, Actor.refusal?, if_pos rfl, if_neg hlen])

/-- Between its calls and their returns, nobody waits in vain. -/
theorem InStep.exists_move (hports : ∀ op, unit.operandCount op ≤ unit.ports) {t : Tandem σ ω ρ}
    (h : InStep unit actor t) :
    t.stage = .free ∨ (∃ call answer, t.stage = .returning call answer) ∨
      ∃ t', Move unit t t' := by
  cases h with
  | free h => exact .inl rfl
  | returning log h => exact .inr (.inl ⟨_, _, rfl⟩)
  | sending h hlen =>
    refine .inr (.inr ?_)
    rcases h.phase_eq with hp | hp
    · exact ⟨_, .turn h.left_eq (.look hp (by rw [Threads.session, h.listener_eq]; rfl))⟩
    · exact ⟨_, .turn h.left_eq (.takeOperation hp rfl)⟩
  | @gathering op operands sent threads h hlen hstate hsent hphase =>
    refine .inr (.inr ?_)
    have hneeded : Session.needed unit op = operands.length := by
      rw [Session.needed, min_eq_left (hports op), hlen]
    have htaken : (operands.take sent).length = sent := List.length_take_of_le hsent
    rcases hsent.lt_or_eq with hlt | rfl
    · have hport : sent < unit.ports := by
        rw [hlen] at hlt
        exact hlt.trans_le (hports op)
      have hoffer : (threads.session unit (.feeding op operands sent)).operands
          (operands.take sent).length = [operands[sent]] := by
        rw [htaken]
        simp [Threads.session, Stage.operands, hport, hlt]
      exact ⟨_, .turn h.left_eq (.takeOperand hphase (by rw [htaken, hneeded]; exact hlt) hoffer)⟩
    · exact ⟨_, .turn h.left_eq (.execute hphase (by rw [htaken, hneeded]) (.ofLevel none))⟩
  | @delivering op operands threads h hlen log hstate hphase =>
    refine .inr (.inr ?_)
    have htakers : Stage.takers unit.ports (.feeding op operands operands.length : Stage ω ρ) = 1 :=
      if_pos (List.length_take_le' _ _)
    cases hresult : (unit.perform op operands).result actor.state log with
    | ok output =>
      rw [hresult] at hphase
      exact ⟨_, .turn h.left_eq (.deliverResult hphase htakers)⟩
    | error fault =>
      rw [hresult] at hphase
      exact ⟨_, .turn h.left_eq (.deliverError hphase htakers)⟩
  | signalling h => exact .inr (.inr ⟨_, .signal h.listener_eq⟩)
  | @stopping stage threads hstage hrun hstate hphase hlistener =>
    refine .inr (.inr ?_)
    rcases hstage with rfl | rfl
    · exact ⟨_, .hangUp⟩
    · cases hl : threads.listener with
      | listening => exact absurd hl hlistener
      | told => exact ⟨_, .clear hl⟩
      | cleared => exact ⟨_, .close hl⟩
      | closed =>
        cases hleft : threads.left with
        | true => exact ⟨_, .join hl hleft⟩
        | false =>
          refine ⟨_, .turn hleft (.leave ?_)⟩
          rcases hphase with hp | hp <;>
            simp [Session.MayLeave, Threads.session, hp, hl, Listener.flag]

theorem Turned.stage_ne_free (ht : Turned unit threads stage stage' threads')
    (h : stage ≠ .free) : stage' ≠ .free := by
  cases ht with
  | look | execute | leave => exact h
  | takeOperation | takeOperand | deliver => nofun

theorem Move.stage_ne_free {t t' : Tandem σ ω ρ} (hm : Move unit t t') (h : t.stage ≠ .free) :
    t'.stage ≠ .free := by
  cases hm with
  | turn hl ht =>
    exact (turned ht).stage_ne_free h
  | clear | close => exact h
  | _ => nofun

/-- Between calls the unit is where it is for the actor. -/
theorem InStep.settled {site : Site σ ω ρ} (h : InStep unit actor ⟨.free, site⟩) :
    Settled actor site := by
  cases h with
  | free h => exact h
  | stopping hstage => rcases hstage with hstage | hstage <;> cases hstage

/-- What a call returns is what the actor answers, and the unit is where the call leaves it. -/
theorem InStep.exists_log {site : Site σ ω ρ} {call : Actor.Call ω}
    {answer : Except Fault (Option ρ)} (h : InStep unit actor ⟨.returning call answer, site⟩) :
    ∃ log, answer = (Actor.call unit call).result actor log ∧
      Settled ((Actor.call unit call).final actor log) site := by
  cases h with
  | returning log h => exact ⟨log, rfl, h⟩
  | stopping hstage => rcases hstage with hstage | hstage <;> cases hstage

/-- The owner can look at the unit just if it can in the actor. -/
theorem Settled.state?_eq {site : Site σ ω ρ} (h : Settled actor site) :
    actor.state? = (⟨stage, site⟩ : Tandem σ ω ρ).unit? := by
  cases site with
  | idle state =>
    obtain ⟨hidle, rfl⟩ := h
    rw [Actor.state?, hidle]
    rfl
  | running threads =>
    rw [Actor.state?, Attends.running (Calm.toAttends h)]
    rfl

/-- A call ends, since it never gets stuck and there is less and less to do. -/
theorem InStep.ends (hports : ∀ op, unit.operandCount op ≤ unit.ports) {t : Tandem σ ω ρ}
    (h : InStep unit actor t) (hstage : t.stage ≠ .free) : Ends unit t := by
  induction hn : t.weight using Nat.strongRecOn generalizing t with
  | ind n ih =>
    rcases h.exists_move hports with hfree | ⟨call, answer, hreturning⟩ | hex
    · exact absurd hfree hstage
    · obtain ⟨stage, site⟩ := t
      cases hreturning
      exact .returning
    · refine .move hex fun t' hm => ?_
      exact ih t'.weight (hn ▸ hm.weight_lt) (h.move hports hm) (hm.stage_ne_free hstage) rfl

/-- After any calls, the owner and its threads are where an actor is that has done them at once. -/
theorem Reaches.exists_uses (hports : ∀ op, unit.operandCount op ≤ unit.ports) {start : σ}
    {history : List (Actor.Call ω × Except Fault (Option ρ))} {t : Tandem σ ω ρ}
    (h : Reaches unit start history t) :
    ∃ uses : List (Actor.Use ω), uses.map Actor.Use.call = history.map Prod.fst ∧
      Actor.answers unit (.ofState start) uses = history.map Prod.snd ∧
      InStep unit (Actor.after unit (.ofState start) uses) t := by
  induction h with
  | nil => exact ⟨[], rfl, rfl, .free ⟨rfl, rfl⟩⟩
  | move _ hm ih =>
    obtain ⟨uses, hcalls, hanswers, hin⟩ := ih
    exact ⟨uses, hcalls, hanswers, hin.move hports hm⟩
  | call _ call ih =>
    obtain ⟨uses, hcalls, hanswers, hin⟩ := ih
    exact ⟨uses, hcalls, hanswers, hin.settled.begin call⟩
  | @back history site call answer _ ih =>
    obtain ⟨uses, hcalls, hanswers, hin⟩ := ih
    -- the log of the use is that of the loop when it executed
    obtain ⟨log, rfl, hsettled⟩ := hin.exists_log
    refine ⟨uses ++ [⟨call, log⟩], ?_, ?_, .free ?_⟩
    · rw [List.map_append, List.map_append, hcalls]
      rfl
    · rw [Actor.answers_concat, List.map_append, hanswers]
      rfl
    · rw [Actor.after_concat]
      exact hsettled

end

/-- **An actor is its unit.** Whatever calls the owner makes, a call is refused for what the owner
could have known and then changes nothing; a submission answers what the unit answers in its
current state; and the unit that is there between two runs has executed just the submissions that
reached it, in order and across all starts. The owner sees this also where every call is a
conversation with threads, in whatever order things happen there, and no call waits for ever. -/
theorem actor_refines_unit (unit : FunctionalUnit σ ω ρ) (start : σ) :
    (∀ uses, Actor.Presents unit start (Actor.tally unit uses)
      (Actor.after unit (.ofState start) uses)) ∧
    ((∀ op, unit.operandCount op ≤ unit.ports) →
      ∀ (history : List (Actor.Call ω × Except Fault (Option ρ))) (t : Tandem σ ω ρ),
        Reaches unit start history t →
        (t.stage = .free → ∃ uses : List (Actor.Use ω),
          uses.map Actor.Use.call = history.map Prod.fst ∧
          Actor.answers unit (.ofState start) uses = history.map Prod.snd ∧
          (Actor.after unit (.ofState start) uses).state? = t.unit?) ∧
        (t.stage ≠ .free → Ends unit t)) := by
  refine ⟨fun uses => (Actor.tallies_after unit start uses).presents, fun hports history t h => ?_⟩
  obtain ⟨uses, hcalls, hanswers, hin⟩ := h.exists_uses hports
  refine ⟨fun hfree => ⟨uses, hcalls, hanswers, ?_⟩, hin.ends hports⟩
  obtain ⟨stage, site⟩ := t
  cases hfree
  exact hin.settled.state?_eq

/-- A register unit has written a register when it is stopped; in between, its owner has tried to
start it once more. -/
theorem actor_refines_unit_stopped :
    ∃ history t, Reaches registerUnit (.powerOn .compact16) history t ∧ t.stage = .free ∧
      history.map Prod.snd =
        [.ok none, .ok (some 7), .error (.unitAlreadyRunning "register file"), .ok none] ∧
      t.unit?.map (RegisterFile.get · 9) = some 7 ∧
      ∃ uses : List (Actor.Use RegisterOp),
        uses.map Actor.Use.call = [.start, .submit (.write 9) [7], .start, .stop] ∧
        Actor.answers registerUnit (.ofState (.powerOn .compact16)) uses = history.map Prod.snd ∧
        (Actor.after registerUnit (.ofState (.powerOn .compact16)) uses).state? = t.unit? := by
  have hports (op : RegisterOp) : registerUnit.operandCount op ≤ registerUnit.ports := by
    cases op with
    | read r => exact Nat.zero_le 1
    | write r => exact Nat.le_refl 1
  have hnil : Reaches registerUnit (.powerOn .compact16) [] _ := .nil
  have hstarted := (hnil.call .start).back
  have htaken := ((hstarted.call (.submit (.write 9) [7])).move (.turn rfl (.look rfl rfl))).move
    (.turn rfl (.takeOperation rfl rfl))
  have hexecuted := (htaken.move (.turn rfl (.takeOperand rfl Nat.one_pos rfl))).move
    (.turn rfl (.execute rfl rfl (.ofLevel none)))
  have hanswered := (hexecuted.move (.turn rfl (.deliverResult rfl rfl))).back
  have hrefused := (hanswered.call .start).back
  have hclosed := (((hrefused.call .stop).move (.signal rfl)).move (.clear rfl)).move (.close rfl)
  have hleft := (hclosed.move (.turn rfl (.leave rfl))).move .hangUp
  have hstopped := (hleft.move (.join rfl rfl)).back
  obtain ⟨uses, hcalls, hanswers, hunit⟩ :=
    ((actor_refines_unit registerUnit (.powerOn .compact16)).2 hports _ _ hstopped).1 rfl
  exact ⟨_, _, hstopped, rfl, rfl, rfl, uses, hcalls, hanswers, hunit⟩

end

end Tandem

end RegisterMachine
