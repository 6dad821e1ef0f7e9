import RegisterMachine.Core.Run
import RegisterMachine.Pipeline.Run

/-!
# The greeting

A demonstration: one program, which prints a greeting and computes a number, is run on a core
and on a pipeline.
-/

namespace RegisterMachine.Greeting

/-- What the program prints. -/
def message : String := "Hello from softcore!\n"

/-- The program. -/
def program : List Instruction :=
  message.toList.flatMap (fun character =>
    [.moveImmediate .set 6 (UInt16.ofNat character.toNat),
      .systemCall (Instruction.selector .putc) 6 6]) ++
  [.moveImmediate .set 7 20, .arithmeticImmediate .mulImmediate 7 21, .terminate]

/-- The line that reports a run: the engine, its steps, and the number computed. -/
def report (engine : String) (steps : Nat) (result : Word) : String :=
  s!"{engine}: {steps} steps, r7 = {result.toNat}\n"

/-- Everything the demonstration prints. -/
def transcript : Except Fault String := do
  let log := Log.ofLevel none
  let core : Core Empty := .powerOn .compact16 .empty default
  let ((outcome, core), log) := Core.installProgram program core log
  outcome
  let (pipeline, log) := Pipeline.ofCore core default log
  let pipeline ← pipeline
  let ((steps, core), log) := Core.run .standard core log
  let interpreted := core.output.text ++ report "Interpreter" (← steps) (core.register 7) ++
    core.display ++ "\n"
  let ((steps, pipeline), log) := Pipeline.run pipeline log
  let steps ← steps
  let ((result, pipeline), log) := Pipeline.readRegister 7 pipeline log
  let pipelined := pipeline.output.text ++ report "Pipeline" steps (← result)
  (Pipeline.shutdown pipeline log).1.1
  return "Computation Tracing ENABLED\n" ++ interpreted ++ pipelined

end RegisterMachine.Greeting
