import RegisterMachine.Arithmetic
import RegisterMachine.Compare
import RegisterMachine.Core.SystemCall
import RegisterMachine.Jump
import RegisterMachine.Transfer

/-!
# Executing an instruction

`Core.execute` carries out one instruction on a core. It neither fetches the instruction nor
moves the instruction pointer on, except that a jump sets the pointer itself and clears the
`advance` flag, also where it is a condition that does not hold.
-/

namespace RegisterMachine.Core

variable {δ : Type}

/-- Carries out an arithmetic operation. -/
def executeArithmetic (op : ArithmeticOp) (i : Instruction) : Exec (Core δ) Unit := do
  let core ← get
  let value ←
    if op.isImmediate then op.eval (core.register i.dest) i.immediate.toUInt64
    else op.eval (core.register i.src0) (core.register i.src1)
  setRegister i.dest value

/-- Carries out a compare. -/
def executeCompare (op : CompareOp) (i : Instruction) : Exec (Core δ) Unit := do
  let core ← get
  setPredicate (op.eval core.predicate (core.register i.src0) (core.register i.src1))

/-- Carries out a transfer. A swap whose second half is refused undoes the first, and a pop
writes its destination before it moves the stack pointer, so that a refused write leaves the
stack as it was. -/
def executeTransfer [Device δ] : Transfer → Exec (Core δ) Unit
  | .copy dest source => do
    let value ← readOperand source
    writePlace dest value
  | .swap a b => do
    let first ← readPlace a
    let second ← readPlace b
    writePlace a second
    try
      writePlace b first
    catch fault =>
      writePlace a first
      throw fault
  | .push source => do
    let value ← readOperand source
    pushData value
  | .pop dest => do
    let value ← (← get).peekData
    writePlace dest value
    let _ ← popData
  | .peek dest => do
    let value ← (← get).peekData
    writePlace dest value

/-- Clears the `advance` flag. -/
def suppressAdvance : Exec (Core δ) Unit :=
  modify fun core => { core with advance := false }

/-- Lets control go on as a jump has settled. -/
def follow : Flow → Exec (Core δ) Unit
  | .next => do
    setInstructionPointer (← get).nextAddress
    suppressAdvance
  | .goto address => do
    setInstructionPointer address
    suppressAdvance
  | .call address => do
    pushCall (← get).nextAddress
    setInstructionPointer address
    suppressAdvance
  | .ret => do
    let address ← popCall
    setInstructionPointer address
    suppressAdvance

/-- Carries out a jump. -/
def executeJump [Device δ] (op : JumpOp) (i : Instruction) : Exec (Core δ) Unit := do
  let form ← (JumpForm.ofJump i op).mapM readOperand
  follow (form.flow (← get).predicate)

/-- Carries out an instruction. -/
def execute [Device δ] (calls : SystemCallTable δ) (i : Instruction) : Exec (Core δ) Unit := do
  match ← i.operation with
  | .arithmetic op => executeArithmetic op i
  | .move op => executeTransfer (.ofMove i op)
  | .jump op => executeJump op i
  | .compare op => executeCompare op i
  | .misc .systemCall => calls.handler i.dest i

end RegisterMachine.Core
