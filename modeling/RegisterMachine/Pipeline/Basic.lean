import RegisterMachine.Core.Basic
import RegisterMachine.FunctionalUnit.Actor
import RegisterMachine.FunctionalUnit.Arithmetic
import RegisterMachine.FunctionalUnit.Branch
import RegisterMachine.FunctionalUnit.Comparator
import RegisterMachine.FunctionalUnit.Decoder
import RegisterMachine.FunctionalUnit.Memory
import RegisterMachine.FunctionalUnit.Registers

/-!
# Pipelines

A pipeline is a machine put together from functional units, each run by an actor of its own: it
fetches from its own code memory and leaves everything else to the units. It has no devices.

This module has the state of a pipeline, its start from a core, and its shutdown.
-/

namespace RegisterMachine

/-- A machine made of functional units. -/
structure Pipeline where
  profile : Profile
  code : Segment UInt32
  decoder : Actor Unit DecoderOp Instruction
  registers : Actor RegisterFile RegisterOp Word
  arithmetic : Actor ArithmeticUnit ArithmeticOp Word
  comparator : Actor Unit CompareOp Word
  branch : Actor BranchUnit (JumpForm Word) BranchOutcome
  memory : Actor MemoryUnit MemoryOp Word
  output : Sink
  status : Status
  /-- The instructions completed since the pipeline was built. A machine counts them in 64 bits,
  so that its count agrees with this one below `2 ^ 64`. -/
  steps : Nat

namespace Pipeline

/-! ## Components -/

/-- The decoder of a pipeline. -/
def decoderPart : Part Pipeline (Actor Unit DecoderOp Instruction) where
  get := decoder
  set decoder pipeline := { pipeline with decoder }

/-- The register unit of a pipeline. -/
def registersPart : Part Pipeline (Actor RegisterFile RegisterOp Word) where
  get := registers
  set registers pipeline := { pipeline with registers }

/-- The arithmetic unit of a pipeline. -/
def arithmeticPart : Part Pipeline (Actor ArithmeticUnit ArithmeticOp Word) where
  get := arithmetic
  set arithmetic pipeline := { pipeline with arithmetic }

/-- The comparator of a pipeline. -/
def comparatorPart : Part Pipeline (Actor Unit CompareOp Word) where
  get := comparator
  set comparator pipeline := { pipeline with comparator }

/-- The branch unit of a pipeline. -/
def branchPart : Part Pipeline (Actor BranchUnit (JumpForm Word) BranchOutcome) where
  get := branch
  set branch pipeline := { pipeline with branch }

/-- The memory controller of a pipeline. -/
def memoryPart : Part Pipeline (Actor MemoryUnit MemoryOp Word) where
  get := memory
  set memory pipeline := { pipeline with memory }

/-- The character output of a pipeline. -/
def outputPart : Part Pipeline Sink where
  get := output
  set output pipeline := { pipeline with output }

/-! ## Start and shutdown -/

/-- A pipeline whose units have not been started. -/
def ofMemory (profile : Profile) (registers : RegisterFile) (memory : Memory) (output : Sink) :
    Pipeline where
  profile := profile
  code := memory.code
  decoder := .ofState ()
  registers := .ofState registers
  arithmetic := .ofState ⟨profile.wordMask⟩
  comparator := .ofState ()
  branch := .ofState (.ofCallStack profile memory.callStack)
  memory := .ofState ⟨memory.data, memory.stack, memory.microcode, profile.wordMask⟩
  output := output
  status := .running
  steps := 0

/-- Starts the units of a pipeline. -/
def start : Exec Pipeline Unit := do
  Exec.onPart decoderPart (Actor.start decoderUnit)
  Exec.onPart registersPart (Actor.start registerUnit)
  Exec.onPart arithmeticPart (Actor.start arithmeticUnit)
  Exec.onPart comparatorPart (Actor.start compareUnit)
  Exec.onPart branchPart (Actor.start branchUnit)
  Exec.onPart memoryPart (Actor.start memoryUnit)

/-- A running pipeline with the registers and the memory of a core. -/
def ofCore {δ : Type} (core : Core δ) (output : Sink) (log : Log) : Except Fault Pipeline × Log :=
  match start (ofMemory core.profile core.registers core.memory output) log with
  | ((.ok (), pipeline), log) => (.ok pipeline, log)
  | ((.error fault, _), log) => (.error fault, log)

/-- A running pipeline that is switched on, with a program in its code memory. -/
def ofProgram (profile : Profile) (program : List UInt32) (output : Sink) (log : Log) :
    Except Fault Pipeline × Log :=
  let core : Core Empty := .powerOn profile .empty output
  match Core.installWords program core log with
  | ((.ok (), core), log) => ofCore core output log
  | ((.error fault, _), log) => (.error fault, log)

/-- Logs the faults among the outcomes of stopping units. -/
def noteFaults : List (Except Fault Unit) → Exec Pipeline Unit
  | [] => pure ()
  | .ok () :: rest => noteFaults rest
  | .error fault :: rest => do
    Exec.note .debug fun _ => "pipeline shutdown: " ++ fault.message
    noteFaults rest

/-- Stops every unit, also after one that does not stop; the first fault is the one reported. -/
def shutdown : Exec Pipeline Unit := do
  let outcomes := [
    ← Exec.attempt (Exec.onPart decoderPart (Actor.stop decoderUnit)),
    ← Exec.attempt (Exec.onPart registersPart (Actor.stop registerUnit)),
    ← Exec.attempt (Exec.onPart arithmeticPart (Actor.stop arithmeticUnit)),
    ← Exec.attempt (Exec.onPart comparatorPart (Actor.stop compareUnit)),
    ← Exec.attempt (Exec.onPart branchPart (Actor.stop branchUnit)),
    ← Exec.attempt (Exec.onPart memoryPart (Actor.stop memoryUnit))]
  noteFaults outcomes
  outcomes.forM fun outcome => outcome

end Pipeline

end RegisterMachine
