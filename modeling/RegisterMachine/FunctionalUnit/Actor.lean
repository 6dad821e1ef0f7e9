import RegisterMachine.FunctionalUnit.Basic

/-!
# Actors

An actor runs a functional unit as a process of its own. While it is running, a loop holds the
unit: it takes an operation, then as many operands as the operation needs, in port order,
executes, and hands out one outcome before it takes the next operation. Nothing is buffered, so
whoever sends to the loop or takes from it waits until the loop is there.

* `Actor.start`, `Actor.stop` and `Actor.submit` are what the owner of an actor does.
* `Actor.ports` gives others a way to talk to the loop: `Actor.sendOperation`,
  `Actor.sendOperand` and `Actor.receive`. Ports serve one run: they are dead once it is stopped.
* A stop abandons what the loop was doing. Operands that did not suffice for their operation
  have no effect; an operation that had its operands has been executed.
-/

namespace RegisterMachine

/-- What the loop of a running actor waits for. -/
inductive Phase (ω ρ : Type) where
  /-- The next operation. -/
  | ready
  /-- More operands for an operation. -/
  | gathering (op : ω) (operands : List Word)
  /-- Someone to take an outcome. -/
  | delivering (outcome : Except Fault ρ)

/-- A unit of state `σ` with operations `ω` and outputs `ρ` as a process. -/
structure Actor (σ ω ρ : Type) where
  state : σ
  /-- What the loop waits for, while the actor is running. -/
  phase : Option (Phase ω ρ)
  /-- How often the actor has been started. -/
  runs : Nat

/-- A way to talk to the loop during one run. -/
structure Ports where
  run : Nat
  deriving DecidableEq, Repr

/-- What comes of an attempt to talk to the loop. -/
inductive Contact (α : Type) where
  | done (value : α)
  /-- The run that the ports belong to is over. -/
  | disconnected
  /-- The loop waits for something else. -/
  | blocked

namespace Actor

variable {σ ω ρ α : Type}

/-- An actor that has not been started. -/
def ofState (state : σ) : Actor σ ω ρ :=
  ⟨state, none, 0⟩

instance [Inhabited σ] : Inhabited (Actor σ ω ρ) := ⟨ofState default⟩

/-- Whether an actor is running. -/
def isRunning (actor : Actor σ ω ρ) : Bool :=
  actor.phase.isSome

/-- The state of the unit, which can be looked at while the actor is not running. -/
def state? (actor : Actor σ ω ρ) : Option σ :=
  if actor.isRunning then none else some actor.state

/-- Runs an action on the unit. -/
def onState (x : Exec σ α) : Exec (Actor σ ω ρ) α := fun ⟨state, phase, runs⟩ log =>
  let ((outcome, state), log) := x state log
  ((outcome, ⟨state, phase, runs⟩), log)

/-! ## The owner -/

/-- Starts an actor. -/
def start (unit : FunctionalUnit σ ω ρ) : Exec (Actor σ ω ρ) Unit := do
  if (← get).isRunning then
    throw (.unitAlreadyRunning unit.name)
  modify fun actor => { actor with phase := some .ready, runs := actor.runs + 1 }
  Exec.note .debug fun _ => unit.name ++ " unit started"

/-- Stops an actor. -/
def stop (unit : FunctionalUnit σ ω ρ) : Exec (Actor σ ω ρ) Unit := do
  if !(← get).isRunning then
    throw (.unitNotRunning unit.name)
  modify fun actor => { actor with phase := none }
  Exec.note .debug fun _ => unit.name ++ " unit stopped"

/-- Has an operation executed and takes its outcome. Nobody else may be talking to the loop. -/
def submit (unit : FunctionalUnit σ ω ρ) (op : ω) (operands : List Word) :
    Exec (Actor σ ω ρ) ρ := do
  if !(← get).isRunning then
    throw (.unitNotRunning unit.name)
  if operands.length ≠ unit.operandCount op then
    throw (.indexOutOfRange .operandCount operands.length (unit.operandCount op))
  onState (unit.perform op operands)

/-! ## Ports -/

/-- The ports of the current run. -/
def ports (unit : FunctionalUnit σ ω ρ) (actor : Actor σ ω ρ) : Except Fault Ports :=
  if actor.isRunning then .ok ⟨actor.runs⟩ else .error (.unitNotRunning unit.name)

/-- The operand port at an index, as the ports it belongs to. -/
def operandPort (unit : FunctionalUnit σ ω ρ) (index : Nat) (actor : Actor σ ω ρ) :
    Except Fault Ports := do
  let ports ← actor.ports unit
  if index < unit.ports then return ports
  else throw (.indexOutOfRange .operandPort index unit.ports)

/-- What the loop waits for, if the ports belong to the current run. -/
def phaseAt (actor : Actor σ ω ρ) (ports : Ports) : Option (Phase ω ρ) :=
  if actor.runs = ports.run then actor.phase else none

/-- The loop goes on with what it has received: it waits for more, or executes. -/
def proceed (unit : FunctionalUnit σ ω ρ) (op : ω) (operands : List Word) :
    Exec (Actor σ ω ρ) Unit := do
  if operands.length < unit.operandCount op then
    modify fun actor => { actor with phase := some (.gathering op operands) }
  else
    let outcome ← Exec.attempt (onState (unit.perform op operands))
    modify fun actor => { actor with phase := some (.delivering outcome) }

/-- Sends an operation to the loop. -/
def sendOperation (unit : FunctionalUnit σ ω ρ) (ports : Ports) (op : ω) :
    Exec (Actor σ ω ρ) (Contact Unit) := do
  match (← get).phaseAt ports with
  | none => return .disconnected
  | some .ready =>
    proceed unit op []
    return .done ()
  | some _ => return .blocked

/-- Sends an operand to the loop by one of its operand ports. -/
def sendOperand (unit : FunctionalUnit σ ω ρ) (ports : Ports) (index : Nat) (value : Word) :
    Exec (Actor σ ω ρ) (Contact Unit) := do
  match (← get).phaseAt ports with
  | none => return .disconnected
  | some (.gathering op operands) =>
    if index = operands.length then
      proceed unit op (operands ++ [value])
      return .done ()
    else
      return .blocked
  | some _ => return .blocked

/-- Takes an outcome from the loop. -/
def receive (ports : Ports) : Exec (Actor σ ω ρ) (Contact (Except Fault ρ)) := do
  match (← get).phaseAt ports with
  | none => return .disconnected
  | some (.delivering outcome) =>
    modify fun actor => { actor with phase := some .ready }
    return .done outcome
  | some _ => return .blocked

end Actor

end RegisterMachine
