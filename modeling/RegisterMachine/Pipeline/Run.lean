import RegisterMachine.Instruction.Disassembly
import RegisterMachine.Pipeline.Execute

/-!
# Running a pipeline

A step reads the instruction pointer, fetches, decodes and executes, and moves the pointer on
after every operation but a jump, which writes the pointer itself.
-/

namespace RegisterMachine.Pipeline

/-- Executes the instruction at the instruction pointer. -/
def executeNext : Exec Pipeline Unit := do
  let profile := (← get).profile
  let address ← readRegister profile.registers.instructionPointer
  let word ← (← get).code.load address
  let instruction ← Exec.onPart decoderPart (Actor.submit decoderUnit .decode [word.toUInt64])
  Exec.note .trace fun _ => hexPadded 4 address.toNat ++ ": " ++ instruction.text
  let operation ← instruction.operation
  executeOperation instruction operation
  if operation.group ≠ .jump then
    writeRegister profile.registers.instructionPointer (profile.mask (address + 1))
  modify fun pipeline => { pipeline with steps := pipeline.steps + 1 }

/-- Makes a step, if the pipeline is running. -/
def step : Exec Pipeline Unit := do
  if (← get).status = .running then
    try
      executeNext
    catch fault =>
      Exec.note .debug fun _ => "pipeline fault: " ++ fault.message
      modify fun pipeline => { pipeline with status := .faulted }
      throw fault

/-- Makes at most `limit` steps while the pipeline is running, and answers how many there are
with those made before. -/
def stepsFrom (made : Nat) : Nat → Exec Pipeline Nat
  | 0 => return made
  | limit + 1 => do
    if (← get).status = .running then
      step
      stepsFrom (made + 1) limit
    else
      return made

/-- Steps until the pipeline stops, and answers how many steps it made. The run of a machine has
no bound; this one is cut off after `2 ^ 64 - 1` steps, so that it always ends. -/
def run : Exec Pipeline Nat :=
  stepsFrom 0 (UInt64.size - 1)

end RegisterMachine.Pipeline
