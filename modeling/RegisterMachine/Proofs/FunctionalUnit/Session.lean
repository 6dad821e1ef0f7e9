import Mathlib.Logic.Function.Basic
import RegisterMachine.FunctionalUnit.Actor
import RegisterMachine.Proofs.Exec

/-!
# The loop of an actor, whatever happens around it

Between its start and its stop an actor is a loop on a thread of its own. Others talk to it by
channels that hold nothing: whoever sends waits until the loop receives, and the loop waits until
someone takes what it sends. A stop goes to a listener, which first clears the flag that the loop
looks at between operations and then closes the channel that the loop waits on beside every other,
so that the loop may leave wherever it waits; it may just as well go on there if others are waiting.

* `Session`: the loop, the listener, and who waits for the loop.
* `Session.Step`: one thing that happens, and `Session.Reaches`: any number of them in any order.
* `Session.Ledger`: what has gone over the channels agrees with what the unit has done.
* `Session.Ledger.step`: every step keeps it so, and `Session.Reaches.ledger`: so does any run.
* `Session.Reaches.exists_left`: a stop can end the run wherever the loop is.
-/

namespace RegisterMachine

open Exec

/-- How far a stop has come. -/
inductive Listener where
  | listening
  | told
  /-- The flag is cleared. -/
  | cleared
  /-- The shutdown channel is closed as well. -/
  | closed
  deriving DecidableEq, Repr

/-- Whether the flag of the loop is still set. -/
def Listener.flag : Listener → Bool
  | listening | told => true
  | cleared | closed => false

/-- One run of an actor from its start to its stop. -/
structure Session (σ ω ρ : Type) where
  /-- The unit, which belongs to the loop. -/
  state : σ
  /-- What the loop waits for, if it is not about to look at the flag. -/
  phase : Option (Phase ω ρ)
  /-- The loop has ended, with what it waited for left undone. -/
  left : Bool
  listener : Listener
  /-- The owner has dropped its ends of the channels, and nobody else need have any. -/
  hungUp : Bool
  /-- The operations that senders wait with, the first first. -/
  operations : List ω
  /-- The operands that senders wait with at each port. -/
  operands : ℕ → List Word
  resultTakers : ℕ
  errorTakers : ℕ

/-- An operation that has been executed, with its operands and the log at the time. -/
structure Job (ω : Type) where
  op : ω
  operands : List Word
  log : Log

namespace Session

variable {σ ω ρ : Type}

/-! ## Steps -/

/-- What happens in a run. -/
inductive Event (ω ρ : Type) where
  | offerOperation (op : ω)
  | offerOperand (port : ℕ) (value : Word)
  | askResult
  | askError
  | stop
  | clear
  | close
  | hangUp
  | look
  | takeOperation (op : ω)
  | takeOperand (port : ℕ) (value : Word)
  | execute (job : Job ω)
  | deliverResult (output : ρ)
  | deliverError (fault : Fault)
  | leave

/-- A run that begins. -/
def begun (state : σ) : Session σ ω ρ where
  state := state
  phase := none
  left := false
  listener := .listening
  hungUp := false
  operations := []
  operands _ := []
  resultTakers := 0
  errorTakers := 0

/-- Steps around the loop: of senders, of takers, of the owner and of the listener. -/
inductive Around (ports : ℕ) (s : Session σ ω ρ) : Event ω ρ → Session σ ω ρ → Prop
  | offerOperation (op : ω) :
      Around ports s (.offerOperation op) { s with operations := s.operations ++ [op] }
  | offerOperand {port : ℕ} (value : Word) (hp : port < ports) :
      Around ports s (.offerOperand port value)
        { s with operands := Function.update s.operands port (s.operands port ++ [value]) }
  | askResult : Around ports s .askResult { s with resultTakers := s.resultTakers + 1 }
  | askError : Around ports s .askError { s with errorTakers := s.errorTakers + 1 }
  | stop (hl : s.listener = .listening) : Around ports s .stop { s with listener := .told }
  | clear (hl : s.listener = .told) : Around ports s .clear { s with listener := .cleared }
  | close (hl : s.listener = .cleared) : Around ports s .close { s with listener := .closed }
  | hangUp (hl : s.listener ≠ .listening) : Around ports s .hangUp { s with hungUp := true }

/-- The number of operands that the loop waits for. It asks no port twice. -/
def needed (unit : FunctionalUnit σ ω ρ) (op : ω) : ℕ :=
  min (unit.operandCount op) unit.ports

/-- Whether the loop may leave where it is: at the flag once it is cleared, and where it waits once
the shutdown channel is closed or the other side may be gone. -/
def MayLeave (unit : FunctionalUnit σ ω ρ) (s : Session σ ω ρ) : Prop :=
  match s.phase with
  | none => s.listener.flag = false
  | some (.gathering op operands) =>
    operands.length < needed unit op ∧ (s.listener = .closed ∨ s.hungUp = true)
  | some _ => s.listener = .closed ∨ s.hungUp = true

/-- Steps of the loop. -/
inductive Turn (unit : FunctionalUnit σ ω ρ) (s : Session σ ω ρ) :
    Event ω ρ → Session σ ω ρ → Prop
  | look (hp : s.phase = none) (hf : s.listener.flag = true) :
      Turn unit s .look { s with phase := some .ready }
  | takeOperation {op : ω} {rest : List ω} (hp : s.phase = some .ready)
      (ho : s.operations = op :: rest) :
      Turn unit s (.takeOperation op)
        { s with phase := some (.gathering op []), operations := rest }
  | takeOperand {op : ω} {operands rest : List Word} {value : Word}
      (hp : s.phase = some (.gathering op operands)) (hn : operands.length < needed unit op)
      (ho : s.operands operands.length = value :: rest) :
      Turn unit s (.takeOperand operands.length value)
        { s with
          phase := some (.gathering op (operands ++ [value]))
          operands := Function.update s.operands operands.length rest }
  | execute {op : ω} {operands : List Word} (hp : s.phase = some (.gathering op operands))
      (hn : operands.length = needed unit op) (log : Log) :
      Turn unit s (.execute ⟨op, operands, log⟩)
        { s with
          state := (unit.perform op operands).final s.state log
          phase := some (.delivering ((unit.perform op operands).result s.state log)) }
  | deliverResult {output : ρ} {takers : ℕ} (hp : s.phase = some (.delivering (.ok output)))
      (ht : s.resultTakers = takers + 1) :
      Turn unit s (.deliverResult output) { s with phase := none, resultTakers := takers }
  | deliverError {fault : Fault} {takers : ℕ} (hp : s.phase = some (.delivering (.error fault)))
      (ht : s.errorTakers = takers + 1) :
      Turn unit s (.deliverError fault) { s with phase := none, errorTakers := takers }
  | leave (hm : s.MayLeave unit) : Turn unit s .leave { s with left := true }

/-- One thing that happens. -/
inductive Step (unit : FunctionalUnit σ ω ρ) (s : Session σ ω ρ) (event : Event ω ρ)
    (s' : Session σ ω ρ) : Prop
  | around (h : Around unit.ports s event s')
  | turn (hl : s.left = false) (h : Turn unit s event s')

/-- What can have happened, and where it leads, in a run that has begun with a unit in a state. -/
inductive Reaches (unit : FunctionalUnit σ ω ρ) (start : σ) :
    List (Event ω ρ) → Session σ ω ρ → Prop
  | nil : Reaches unit start [] (begun start)
  | step {events : List (Event ω ρ)} {s s' : Session σ ω ρ} {event : Event ω ρ}
      (h : Reaches unit start events s) (hs : Step unit s event s') :
      Reaches unit start (events ++ [event]) s'

/-! ## What has gone over the channels -/

section
variable (events : List (Event ω ρ))

/-- The operations that senders have come with. -/
def offeredOperations : List ω :=
  events.filterMap fun
    | .offerOperation op => some op
    | _ => none

/-- The operands that senders have come with at a port. -/
def offeredOperands (port : ℕ) : List Word :=
  events.filterMap fun
    | .offerOperand port' value => if port' = port then some value else none
    | _ => none

/-- The operations that the loop has received. -/
def received : List ω :=
  events.filterMap fun
    | .takeOperation op => some op
    | _ => none

/-- The operands that the loop has received at a port. -/
def taken (port : ℕ) : List Word :=
  events.filterMap fun
    | .takeOperand port' value => if port' = port then some value else none
    | _ => none

/-- The operations that have been executed. -/
def jobs : List (Job ω) :=
  events.filterMap fun
    | .execute job => some job
    | _ => none

/-- What has been taken from the loop: outputs by the result channel, faults by the error
channel. -/
def delivered : List (Except Fault ρ) :=
  events.filterMap fun
    | .deliverResult output => some (.ok output)
    | .deliverError fault => some (.error fault)
    | _ => none

theorem delivered_append (events' : List (Event ω ρ)) :
    delivered (events ++ events') = delivered events ++ delivered events' :=
  List.filterMap_append

end

/-! ## What the unit has done -/

section
variable (unit : FunctionalUnit σ ω ρ)

/-- The state of a unit that has executed some operations. -/
def stateAfter (state : σ) (jobs : List (Job ω)) : σ :=
  jobs.foldl (fun state job => (unit.perform job.op job.operands).final state job.log) state

/-- What has come of each of them. -/
def outcomes (state : σ) : List (Job ω) → List (Except Fault ρ)
  | [] => []
  | job :: rest =>
    (unit.perform job.op job.operands).result state job.log ::
      outcomes ((unit.perform job.op job.operands).final state job.log) rest

/-- How many operands some operations take at a port. -/
def consumed (port : ℕ) (jobs : List (Job ω)) : ℕ :=
  jobs.countP fun job => port < unit.operandCount job.op

@[simp] theorem stateAfter_concat (state : σ) (jobs : List (Job ω)) (job : Job ω) :
    stateAfter unit state (jobs ++ [job]) =
      (unit.perform job.op job.operands).final (stateAfter unit state jobs) job.log := by
  rw [stateAfter, List.foldl_append]
  rfl

@[simp] theorem outcomes_concat (state : σ) (jobs : List (Job ω)) (job : Job ω) :
    outcomes unit state (jobs ++ [job]) = outcomes unit state jobs ++
      [(unit.perform job.op job.operands).result (stateAfter unit state jobs) job.log] := by
  induction jobs generalizing state with
  | nil => rfl
  | cons first rest ih => rw [List.cons_append, outcomes, ih, outcomes, List.cons_append]; rfl

@[simp] theorem length_outcomes (state : σ) (jobs : List (Job ω)) :
    (outcomes unit state jobs).length = jobs.length := by
  induction jobs generalizing state with
  | nil => rfl
  | cons job rest ih => rw [outcomes, List.length_cons, ih, List.length_cons]

end

/-! ## The books -/

/-- The operation that the loop gathers operands for, with those it has. -/
def current : Option (Phase ω ρ) → List (ω × List Word)
  | some (.gathering op operands) => [(op, operands)]
  | _ => []

/-- The outcome that waits for a taker. -/
def pending : Option (Phase ω ρ) → List (Except Fault ρ)
  | some (.delivering outcome) => [outcome]
  | _ => []

/-- What senders have come with is what the loop has received and what still waits. -/
structure Queued (events : List (Event ω ρ)) (s : Session σ ω ρ) : Prop where
  operations_eq : offeredOperations events = received events ++ s.operations
  operands_eq : ∀ port, offeredOperands events port = taken events port ++ s.operands port

/-- What has gone over the channels agrees with what the unit has done. -/
structure Ledger (unit : FunctionalUnit σ ω ρ) (start : σ) (events : List (Event ω ρ))
    (s : Session σ ω ρ) : Prop where
  received_eq : received events = (jobs events).map Job.op ++ (current s.phase).map Prod.fst
  length_operands : ∀ job ∈ jobs events, job.operands.length = needed unit job.op
  length_current : ∀ work ∈ current s.phase, work.2.length ≤ needed unit work.1
  taken_eq : ∀ port, taken events port =
    ((jobs events).map Job.operands ++ (current s.phase).map Prod.snd).filterMap (·[port]?)
  state_eq : s.state = stateAfter unit start (jobs events)
  outcomes_eq : outcomes unit start (jobs events) = delivered events ++ pending s.phase

section
variable {unit : FunctionalUnit σ ω ρ} {start : σ} {events : List (Event ω ρ)}
  {event : Event ω ρ} {s s' : Session σ ω ρ}

/-- An event that a channel does not carry leaves its history as it is. -/
theorem unseen {β : Type} {f : Event ω ρ → Option β} (hf : f event = none) :
    (events ++ [event]).filterMap f = events.filterMap f := by
  rw [List.filterMap_append, List.filterMap_cons_none hf, List.filterMap_nil, List.append_nil]

/-- An event that a channel carries is the last of its history. -/
theorem seen {β : Type} {f : Event ω ρ → Option β} {b : β} (hf : f event = some b) :
    (events ++ [event]).filterMap f = events.filterMap f ++ [b] := by
  rw [List.filterMap_append, List.filterMap_cons_some hf, List.filterMap_nil]

theorem Queued.operations_of_silent (h : Queued events s)
    (hoffered : offeredOperations (events ++ [event]) = offeredOperations events)
    (hreceived : received (events ++ [event]) = received events)
    (hoperations : s'.operations = s.operations) :
    offeredOperations (events ++ [event]) = received (events ++ [event]) ++ s'.operations := by
  rw [hoffered, hreceived, hoperations, h.operations_eq]

theorem Queued.operands_of_silent {port : ℕ} (h : Queued events s)
    (hoffered : offeredOperands (events ++ [event]) port = offeredOperands events port)
    (htaken : taken (events ++ [event]) port = taken events port)
    (hoperands : s'.operands port = s.operands port) :
    offeredOperands (events ++ [event]) port =
      taken (events ++ [event]) port ++ s'.operands port := by
  rw [hoffered, htaken, hoperands, h.operands_eq]

theorem Queued.step (h : Queued events s) (hs : Step unit s event s') :
    Queued (events ++ [event]) s' := by
  cases hs with
  | around hs =>
    cases hs with
    | offerOperation op =>
      have hoffered : offeredOperations (events ++ [.offerOperation op]) =
          offeredOperations events ++ [op] := seen rfl
      have hreceived : received (events ++ [.offerOperation op]) = received events := unseen rfl
      refine ⟨?_, fun port => h.operands_of_silent (unseen rfl) (unseen rfl) rfl⟩
      rw [hoffered, hreceived, h.operations_eq, List.append_assoc]
    | @offerOperand port' value hp =>
      refine ⟨h.operations_of_silent (unseen rfl) (unseen rfl) rfl, fun port => ?_⟩
      by_cases hport : port' = port
      · subst hport
        have hoffered : offeredOperands (events ++ [.offerOperand port' value]) port' =
            offeredOperands events port' ++ [value] := seen (if_pos rfl)
        have htaken : taken (events ++ [.offerOperand port' value]) port' = taken events port' :=
          unseen rfl
        dsimp only
        rw [hoffered, htaken, h.operands_eq, Function.update_self, List.append_assoc]
      · exact h.operands_of_silent (unseen (if_neg hport)) (unseen rfl)
          (Function.update_of_ne (Ne.symm hport) _ _)
    | _ =>
      exact ⟨h.operations_of_silent (unseen rfl) (unseen rfl) rfl,
        fun _ => h.operands_of_silent (unseen rfl) (unseen rfl) rfl⟩
  | turn _ hs =>
    cases hs with
    | @takeOperation op rest hp ho =>
      have hoffered : offeredOperations (events ++ [.takeOperation op]) =
          offeredOperations events := unseen rfl
      have hreceived : received (events ++ [.takeOperation op]) = received events ++ [op] :=
        seen rfl
      refine ⟨?_, fun port => h.operands_of_silent (unseen rfl) (unseen rfl) rfl⟩
      rw [hoffered, hreceived, h.operations_eq, ho, List.append_assoc, List.singleton_append]
    | @takeOperand op operands rest value hp hn ho =>
      refine ⟨h.operations_of_silent (unseen rfl) (unseen rfl) rfl, fun port => ?_⟩
      by_cases hport : operands.length = port
      · subst hport
        have hoffered : offeredOperands (events ++ [.takeOperand operands.length value])
            operands.length = offeredOperands events operands.length := unseen rfl
        have htaken : taken (events ++ [.takeOperand operands.length value]) operands.length =
            taken events operands.length ++ [value] := seen (if_pos rfl)
        dsimp only
        rw [hoffered, htaken, h.operands_eq, ho, Function.update_self, List.append_assoc,
          List.singleton_append]
      · exact h.operands_of_silent (unseen rfl) (unseen (if_neg hport))
          (Function.update_of_ne (Ne.symm hport) _ _)
    | _ =>
      exact ⟨h.operations_of_silent (unseen rfl) (unseen rfl) rfl,
        fun _ => h.operands_of_silent (unseen rfl) (unseen rfl) rfl⟩

/-- A step that neither the books nor the loop's work show. -/
theorem Ledger.silent (h : Ledger unit start events s)
    (hreceived : received (events ++ [event]) = received events)
    (htaken : ∀ port, taken (events ++ [event]) port = taken events port)
    (hjobs : jobs (events ++ [event]) = jobs events)
    (hdelivered : delivered (events ++ [event]) = delivered events)
    (hcurrent : current s'.phase = current s.phase) (hpending : pending s'.phase = pending s.phase)
    (hstate : s'.state = s.state) : Ledger unit start (events ++ [event]) s' where
  received_eq := by rw [hreceived, hjobs, hcurrent, h.received_eq]
  length_operands := by rw [hjobs]; exact h.length_operands
  length_current := by rw [hcurrent]; exact h.length_current
  taken_eq port := by rw [htaken, hjobs, hcurrent, h.taken_eq]
  state_eq := by rw [hstate, hjobs, h.state_eq]
  outcomes_eq := by rw [hjobs, hdelivered, hpending, h.outcomes_eq]

theorem Ledger.around (h : Ledger unit start events s) (hs : Around unit.ports s event s') :
    Ledger unit start (events ++ [event]) s' := by
  cases hs <;>
    exact h.silent (unseen rfl) (fun _ => unseen rfl) (unseen rfl) (unseen rfl) rfl rfl rfl

/-- An operation is received when there is none in work. -/
theorem Ledger.takeOperation {op : ω} (h : Ledger unit start events s)
    (hp : s.phase = some .ready) (hphase : s'.phase = some (.gathering op []))
    (hstate : s'.state = s.state) : Ledger unit start (events ++ [.takeOperation op]) s' where
  received_eq := by simpa [received, jobs, current, hp, hphase] using h.received_eq
  length_operands := by simpa [jobs] using h.length_operands
  length_current := by simp [current, hphase]
  taken_eq port := by simpa [taken, jobs, current, hp, hphase] using h.taken_eq port
  state_eq := by simpa [jobs, hstate] using h.state_eq
  outcomes_eq := by simpa [jobs, delivered, pending, hp, hphase] using h.outcomes_eq

/-- An operand is received at the port after those that have given one for the operation. -/
theorem Ledger.takeOperand {op : ω} {operands : List Word} {value : Word}
    (h : Ledger unit start events s) (hp : s.phase = some (.gathering op operands))
    (hn : operands.length < needed unit op)
    (hphase : s'.phase = some (.gathering op (operands ++ [value])))
    (hstate : s'.state = s.state) :
    Ledger unit start (events ++ [.takeOperand operands.length value]) s' where
  received_eq := by simpa [received, jobs, current, hp, hphase] using h.received_eq
  length_operands := by simpa [jobs] using h.length_operands
  length_current := by simpa [current, hphase] using hn
  taken_eq port := by
    have hjobs : jobs (events ++ [.takeOperand operands.length value]) = jobs events := unseen rfl
    have htaken := h.taken_eq port
    rw [hp] at htaken
    rw [hjobs, hphase]
    by_cases hport : operands.length = port
    · subst hport
      have hseen : taken (events ++ [.takeOperand operands.length value]) operands.length =
          taken events operands.length ++ [value] := seen (if_pos rfl)
      rw [hseen, htaken]
      simp [current, List.filterMap_append]
    · have hunseen : taken (events ++ [.takeOperand operands.length value]) port =
          taken events port := unseen (if_neg hport)
      have hget : (operands ++ [value])[port]? = operands[port]? := by
        rcases Nat.lt_or_gt_of_ne hport with hlt | hgt
        · rw [List.getElem?_eq_none (by simpa using hlt), List.getElem?_eq_none hlt.le]
        · exact List.getElem?_append_left hgt
      rw [hunseen, htaken]
      simp [current, hget, List.filterMap_append, List.filterMap_cons]
  state_eq := by simpa [jobs, hstate] using h.state_eq
  outcomes_eq := by simpa [jobs, delivered, pending, hp, hphase] using h.outcomes_eq

/-- The operation in work is executed with the operands that it needs. -/
theorem Ledger.execute {op : ω} {operands : List Word} {log : Log}
    (h : Ledger unit start events s) (hp : s.phase = some (.gathering op operands))
    (hn : operands.length = needed unit op)
    (hphase : s'.phase = some (.delivering ((unit.perform op operands).result s.state log)))
    (hstate : s'.state = (unit.perform op operands).final s.state log) :
    Ledger unit start (events ++ [.execute ⟨op, operands, log⟩]) s' := by
  have hjobs : jobs (events ++ [.execute ⟨op, operands, log⟩]) =
      jobs events ++ [⟨op, operands, log⟩] := seen rfl
  constructor
  case received_eq => simpa [received, hjobs, current, hp, hphase] using h.received_eq
  case length_operands =>
    rw [hjobs]
    intro job hjob
    rcases List.mem_append.1 hjob with hjob | hjob
    · exact h.length_operands job hjob
    · cases List.mem_singleton.1 hjob
      exact hn
  case length_current => simp [current, hphase]
  case taken_eq => intro port; simpa [taken, hjobs, current, hp, hphase] using h.taken_eq port
  case state_eq => rw [hjobs, stateAfter_concat, hstate, h.state_eq]
  case outcomes_eq =>
    have hdelivered : delivered (events ++ [.execute ⟨op, operands, log⟩]) = delivered events :=
      unseen rfl
    have houtcomes := h.outcomes_eq
    simp only [hp, pending, List.append_nil] at houtcomes
    rw [hjobs, outcomes_concat, houtcomes, hdelivered, hphase, pending, h.state_eq]

/-- The outcome that waits for a taker is taken. -/
theorem Ledger.deliver {outcome : Except Fault ρ} (h : Ledger unit start events s)
    (hp : s.phase = some (.delivering outcome)) (hphase : s'.phase = none)
    (hstate : s'.state = s.state) (hreceived : received (events ++ [event]) = received events)
    (htaken : ∀ port, taken (events ++ [event]) port = taken events port)
    (hjobs : jobs (events ++ [event]) = jobs events)
    (hdelivered : delivered (events ++ [event]) = delivered events ++ [outcome]) :
    Ledger unit start (events ++ [event]) s' where
  received_eq := by simpa [hreceived, hjobs, current, hp, hphase] using h.received_eq
  length_operands := by simpa [hjobs] using h.length_operands
  length_current := by simp [current, hphase]
  taken_eq port := by simpa [htaken, hjobs, current, hp, hphase] using h.taken_eq port
  state_eq := by rw [hstate, hjobs, h.state_eq]
  outcomes_eq := by simpa [hjobs, hdelivered, pending, hp, hphase] using h.outcomes_eq

/-- **Every step keeps the books right.** -/
theorem Ledger.step (h : Ledger unit start events s) (hs : Step unit s event s') :
    Ledger unit start (events ++ [event]) s' := by
  cases hs with
  | around hs => exact h.around hs
  | turn _ hs =>
    cases hs with
    | look hp _ =>
      exact h.silent (unseen rfl) (fun _ => unseen rfl) (unseen rfl) (unseen rfl) (by rw [hp]; rfl)
        (by rw [hp]; rfl) rfl
    | takeOperation hp _ => exact h.takeOperation hp rfl rfl
    | takeOperand hp hn _ => exact h.takeOperand hp hn rfl rfl
    | execute hp hn log => exact h.execute hp hn rfl rfl
    | deliverResult hp _ =>
      exact h.deliver hp rfl rfl (unseen rfl) (fun _ => unseen rfl) (unseen rfl) (seen rfl)
    | deliverError hp _ =>
      exact h.deliver hp rfl rfl (unseen rfl) (fun _ => unseen rfl) (unseen rfl) (seen rfl)
    | leave _ =>
      exact h.silent (unseen rfl) (fun _ => unseen rfl) (unseen rfl) (unseen rfl) rfl rfl rfl

theorem Reaches.ledger (h : Reaches unit start events s) : Ledger unit start events s := by
  induction h with
  | nil =>
    constructor <;>
      simp [received, taken, jobs, delivered, current, pending, begun, stateAfter, outcomes]
  | step _ hs ih => exact ih.step hs

/-! ## The end of a run -/

/-- What can happen later on can happen after all. -/
theorem exists_reaches_of_append {before : List (Event ω ρ)} {Q : Session σ ω ρ → Prop}
    (h : ∃ events' s', Reaches unit start ((events ++ before) ++ events') s' ∧ Q s') :
    ∃ events' s', Reaches unit start (events ++ events') s' ∧ Q s' := by
  obtain ⟨events', s', hs', hq⟩ := h
  rw [List.append_assoc] at hs'
  exact ⟨_, s', hs', hq⟩

/-- A stop gets through, whatever the loop does. -/
theorem Reaches.exists_closed (h : Reaches unit start events s) :
    ∃ events' s', Reaches unit start (events ++ events') s' ∧ s'.listener = .closed := by
  have hcleared {events : List (Event ω ρ)} {s : Session σ ω ρ} (h : Reaches unit start events s)
      (hl : s.listener = .cleared) :
      ∃ events' s', Reaches unit start (events ++ events') s' ∧ s'.listener = .closed :=
    ⟨_, _, h.step (.around (.close hl)), rfl⟩
  have htold {events : List (Event ω ρ)} {s : Session σ ω ρ} (h : Reaches unit start events s)
      (hl : s.listener = .told) :
      ∃ events' s', Reaches unit start (events ++ events') s' ∧ s'.listener = .closed :=
    exists_reaches_of_append (hcleared (h.step (.around (.clear hl))) rfl)
  cases hl : s.listener with
  | listening => exact exists_reaches_of_append (htold (h.step (.around (.stop hl))) rfl)
  | told => exact htold h hl
  | cleared => exact hcleared h hl
  | closed => exact ⟨[], s, by rwa [List.append_nil], hl⟩

/-- A stop can end the run wherever the loop is. The loop may first have to execute what it has the
operands for. -/
theorem Reaches.exists_left (h : Reaches unit start events s) :
    ∃ events' s', Reaches unit start (events ++ events') s' ∧ s'.left = true := by
  have hleave {events : List (Event ω ρ)} {s : Session σ ω ρ} (h : Reaches unit start events s)
      (hl : s.left = false) (hm : s.MayLeave unit) :
      ∃ events' s', Reaches unit start (events ++ events') s' ∧ s'.left = true :=
    ⟨_, _, h.step (.turn hl (.leave hm)), rfl⟩
  obtain ⟨before, s, h, hclosed⟩ := h.exists_closed
  apply exists_reaches_of_append
  cases hl : s.left with
  | true => exact ⟨[], s, by rwa [List.append_nil], hl⟩
  | false =>
    rcases hp : s.phase with _ | _ | ⟨op, operands⟩ | outcome
    case some.gathering =>
      rcases (h.ledger.length_current (op, operands) (by simp [hp, current])).lt_or_eq with hn | hn
      · exact hleave h hl (by rw [MayLeave, hp]; exact ⟨hn, .inl hclosed⟩)
      · exact exists_reaches_of_append
          (hleave (h.step (.turn hl (.execute hp hn (.ofLevel none)))) hl (.inl hclosed))
    all_goals exact hleave h hl (by simp [MayLeave, hp, hclosed, Listener.flag])

end

end Session

end RegisterMachine
