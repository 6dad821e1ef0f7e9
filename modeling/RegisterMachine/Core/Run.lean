import RegisterMachine.Core.Display
import RegisterMachine.Core.Execute

/-!
# Running a core

A step fetches the instruction at the instruction pointer, executes it, and moves the pointer on
unless the instruction set it. A fault stops the core; a core that has stopped does not move any
more.

* `Core.step` makes one step.
* `Core.runFor` makes steps up to a limit.
* `Core.run` starts the devices, steps until the core stops, and shuts the devices down.
-/

namespace RegisterMachine.Core

variable {δ : Type} [Device δ]

/-- Answers the `advance` flag and sets it for the next instruction. -/
def takeAdvance : Exec (Core δ) Bool :=
  modifyGet fun core => (core.advance, { core with advance := true })

/-- Executes the instruction at the instruction pointer. -/
def executeNext (calls : SystemCallTable δ) : Exec (Core δ) Unit := do
  let address := (← get).instructionPointer
  let instruction ← (← get).nextInstruction
  Exec.note .trace fun _ => hexPadded 4 address.toNat ++ ": " ++ instruction.text
  execute calls instruction
  if ← takeAdvance then
    setInstructionPointer ((← get).profile.mask (address + 1))
  modify fun core => { core with steps := core.steps + 1 }
  let core ← get
  Exec.note .trace fun _ => "\n" ++ core.display
  if core.status = .halted then
    Exec.note .debug fun _ => s!"halted after {core.steps} steps"

/-- Makes a step, if the core is running. -/
def step (calls : SystemCallTable δ) : Exec (Core δ) Unit := do
  if (← get).status = .running then
    try
      executeNext calls
    catch fault =>
      let address := (← get).instructionPointer
      Exec.note .debug fun _ => "fault at " ++ hex address.toNat ++ ": " ++ fault.message
      modify fun core => { core with advance := true, status := .faulted }
      throw fault

/-- Makes at most `limit` steps while the core is running, and answers how many there are with
those made before. -/
def stepsFrom (calls : SystemCallTable δ) (made : Nat) : Nat → Exec (Core δ) Nat
  | 0 => return made
  | limit + 1 => do
    if (← get).status = .running then
      step calls
      stepsFrom calls (made + 1) limit
    else
      return made

/-- Makes at most `limit` steps and answers how many. Devices are neither started nor shut
down. -/
def runFor (calls : SystemCallTable δ) (limit : Nat) : Exec (Core δ) Nat :=
  stepsFrom calls 0 limit

/-- The most steps that a run makes, the largest number of 64 bits. -/
def runLimit : Nat := UInt64.size - 1

/-- Runs the core with its devices. A core whose devices do not start is faulted and does not
run; one that faults while it runs still shuts its devices down. -/
def run (calls : SystemCallTable δ) : Exec (Core δ) Nat := do
  try
    Exec.onPart devicesPart Registry.startupAll
  catch fault =>
    modify fun core => { core with status := .faulted }
    throw fault
  let outcome ← Exec.attempt (runFor calls runLimit)
  let shutdown ← Exec.attempt (Exec.onPart devicesPart Registry.shutdownAll)
  let made ← outcome
  shutdown
  return made

end RegisterMachine.Core
