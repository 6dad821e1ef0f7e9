import RegisterMachine.Core.SystemCall
import RegisterMachine.Pipeline.Basic
import RegisterMachine.Transfer

/-!
# Executing an instruction in a pipeline

A pipeline executes an instruction by submitting operations to its units: it reads registers
through the register unit, hands what it read to the unit that does the work, and writes the
outcome back through the register unit.
-/

namespace RegisterMachine.Pipeline

/-! ## Unit traffic -/

/-- Reads a register. -/
def readRegister (r : UInt8) : Exec Pipeline Word :=
  Exec.onPart registersPart (Actor.submit registerUnit (.read r) [])

/-- Writes a register. -/
def writeRegister (r : UInt8) (value : Word) : Exec Pipeline Unit := do
  let _ ← Exec.onPart registersPart (Actor.submit registerUnit (.write r) [value])

/-- Has the memory controller execute an operation. -/
def access (op : MemoryOp) (operands : List Word) : Exec Pipeline Word :=
  Exec.onPart memoryPart (Actor.submit memoryUnit op operands)

/-- Loads from a data address. -/
def loadData (address : Word) : Exec Pipeline Word :=
  access .load [address]

/-- Reads a place. -/
def readPlace : Place → Exec Pipeline Word
  | .register r => readRegister r
  | .memory r => do access .load [← readRegister r]
  | .memoryAt address => access .load [address.toUInt64]
  | .microcode r => do access .loadMicrocode [← readRegister r]

/-- Reads an operand. -/
def readOperand : Operand → Exec Pipeline Word
  | .place p => readPlace p
  | .literal value => return value.toUInt64

/-- Writes a place. -/
def writePlace (place : Place) (value : Word) : Exec Pipeline Unit :=
  match place with
  | .register r => writeRegister r value
  | .memory r => do
    let _ ← access .store [← readRegister r, value]
  | .memoryAt address => do
    let _ ← access .store [address.toUInt64, value]
  | .microcode r => do
    let _ ← access .storeMicrocode [← readRegister r, value]

/-- Reads the data stack pointer. -/
def stackPointer : Exec Pipeline Word := do
  readRegister (← get).profile.registers.stackPointer

/-- Writes the data stack pointer. -/
def setStackPointer (pointer : Word) : Exec Pipeline Unit := do
  writeRegister (← get).profile.registers.stackPointer pointer

/-! ## Groups -/

/-- Carries out an arithmetic operation. -/
def executeArithmetic (op : ArithmeticOp) (i : Instruction) : Exec Pipeline Unit := do
  let operands ←
    if op.isImmediate then pure [← readRegister i.dest, i.immediate.toUInt64]
    else pure [← readRegister i.src0, ← readRegister i.src1]
  let value ← Exec.onPart arithmeticPart (Actor.submit arithmeticUnit op operands)
  writeRegister i.dest value

/-- Carries out a compare. -/
def executeCompare (op : CompareOp) (i : Instruction) : Exec Pipeline Unit := do
  let predicate := (← get).profile.registers.predicate
  let operands := [← readRegister predicate, ← readRegister i.src0, ← readRegister i.src1]
  let value ← Exec.onPart comparatorPart (Actor.submit compareUnit op operands)
  writeRegister predicate value

/-- Carries out a jump. -/
def executeJump (op : JumpOp) (i : Instruction) : Exec Pipeline Unit := do
  let special := (← get).profile.registers
  let form ← (JumpForm.ofJump i op).mapM readOperand
  let operands := [← readRegister special.instructionPointer, ← readRegister special.predicate,
    ← readRegister special.callPointer]
  let outcome ← Exec.onPart branchPart (Actor.submit branchUnit form operands)
  writeRegister special.callPointer outcome.callPointer
  writeRegister special.instructionPointer outcome.instructionPointer

/-- Carries out a transfer. A swap whose second half is refused undoes the first, and a pop
writes its destination before it moves the stack pointer. -/
def executeTransfer : Transfer → Exec Pipeline Unit
  | .copy dest source => do
    let value ← readOperand source
    writePlace dest value
  | .swap a b => do
    let first ← readPlace a
    let second ← readPlace b
    writePlace a second
    try
      writePlace b first
    catch fault =>
      writePlace a first
      throw fault
  | .push source => do
    let value ← readOperand source
    let pointer ← access .push [← stackPointer, value]
    setStackPointer pointer
  | .pop dest => do
    let pointer ← stackPointer
    let value ← access .peek [pointer]
    writePlace dest value
    let pointer ← access .pop [pointer]
    setStackPointer pointer
  | .peek dest => do
    let value ← access .peek [← stackPointer]
    writePlace dest value

/-- Carries out a system call. A pipeline has the calls that every machine has. -/
def executeSystemCall (i : Instruction) : Exec Pipeline Unit := do
  match (Opcode.ofCode? i.dest.toNat : Option SystemCommand) with
  | some .terminate =>
    let steps := (← get).steps
    Exec.note .debug fun _ => s!"pipeline terminate after {steps + 1} steps"
    modify fun pipeline => { pipeline with status := .halted }
  | some .panic => throw (.panic i.immediate)
  | some .putc =>
    let low ← readRegister i.src0
    let high ← readRegister i.src1
    let character ← composeCharacter low high (i.src0 == i.src1)
    Exec.onPart outputPart (Sink.write (String.utf8EncodeChar character))
  | none => throw (.invalidSystemCommand i.dest)

/-- Carries out an operation. -/
def executeOperation (i : Instruction) : Operation → Exec Pipeline Unit
  | .arithmetic op => executeArithmetic op i
  | .move op => executeTransfer (.ofMove i op)
  | .jump op => executeJump op i
  | .compare op => executeCompare op i
  | .misc .systemCall => executeSystemCall i

end RegisterMachine.Pipeline
