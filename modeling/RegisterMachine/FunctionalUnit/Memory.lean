import RegisterMachine.FunctionalUnit.Basic
import RegisterMachine.Memory.Segment
import RegisterMachine.Profile

/-!
# The memory controller

Owns data memory, the data stack and microcode. The stack pointer stays in a register: stack
operations take it as an operand and answer the new one.
-/

namespace RegisterMachine

/-- What the memory controller can do. -/
inductive MemoryOp where
  /-- Operand: the address. -/
  | load
  /-- Operands: the address and the value. Answers the value as stored. -/
  | store
  /-- Operand: the microcode address. -/
  | loadMicrocode
  /-- Operands: the microcode address and the value. Answers the value as stored. -/
  | storeMicrocode
  /-- Operands: the stack pointer and the value. Answers the new stack pointer. -/
  | push
  /-- Operand: the stack pointer. Answers the new stack pointer. -/
  | pop
  /-- Operand: the stack pointer. Answers the value on top. -/
  | peek
  deriving DecidableEq, Repr

namespace MemoryOp

/-- The name of an operation in log lines. -/
def label : MemoryOp → String
  | load => "Load"
  | store => "Store"
  | loadMicrocode => "LoadMicrocode"
  | storeMicrocode => "StoreMicrocode"
  | push => "Push"
  | pop => "Pop"
  | peek => "Peek"

/-- The number of operands of an operation. -/
def operandCount : MemoryOp → Nat
  | load | loadMicrocode | pop | peek => 1
  | store | storeMicrocode | push => 2

end MemoryOp

/-- The segments of a memory controller, and the mask of its words. -/
structure MemoryUnit where
  data : Segment Word
  stack : Segment Word
  microcode : Segment Word
  mask : Word
  deriving DecidableEq

namespace MemoryUnit

instance : Inhabited MemoryUnit := ⟨⟨default, default, default, 0⟩⟩

/-- A memory controller with all cells zero. -/
def ofProfile (profile : Profile) : MemoryUnit where
  data := .filled .data profile.dataCapacity 0
  stack := .filled .stack profile.stackCapacity 0
  microcode := .filled .microcode profile.microcodeCapacity 0
  mask := profile.wordMask

/-- The data memory of a memory controller. -/
def dataPart : Part MemoryUnit (Segment Word) where
  get := data
  set data unit := { unit with data }

/-- The data stack of a memory controller. -/
def stackPart : Part MemoryUnit (Segment Word) where
  get := stack
  set stack unit := { unit with stack }

/-- The microcode of a memory controller. -/
def microcodePart : Part MemoryUnit (Segment Word) where
  get := microcode
  set microcode unit := { unit with microcode }

/-- Stores the value of the second operand in a segment, at the address of the first. -/
def storeOperand (part : Part MemoryUnit (Segment Word)) (operands : List Word) :
    Exec MemoryUnit Word := do
  let address ← FunctionalUnit.operand "memory controller" operands 0
  let value := (← FunctionalUnit.operand "memory controller" operands 1) &&& (← get).mask
  Exec.onPart part (Segment.store address value)
  return value

end MemoryUnit

/-- The memory controller. -/
def memoryUnit : FunctionalUnit MemoryUnit MemoryOp Word where
  name := "memory controller"
  ports := 2
  operandCount := MemoryOp.operandCount
  label := MemoryOp.label
  execute op operands :=
    match op with
    | .load => do
      let address ← FunctionalUnit.operand "memory controller" operands 0
      (← get).data.load address
    | .store => MemoryUnit.storeOperand MemoryUnit.dataPart operands
    | .loadMicrocode => do
      let address ← FunctionalUnit.operand "memory controller" operands 0
      (← get).microcode.load address
    | .storeMicrocode => MemoryUnit.storeOperand MemoryUnit.microcodePart operands
    | .push => do
      let pointer ← FunctionalUnit.operand "memory controller" operands 0
      let value ← FunctionalUnit.operand "memory controller" operands 1
      let mask := (← get).mask
      Exec.onPart MemoryUnit.stackPart (Segment.push pointer (value &&& mask) mask)
    | .pop => do
      let pointer ← FunctionalUnit.operand "memory controller" operands 0
      let unit ← get
      let (_, pointer) ← unit.stack.pop pointer unit.mask
      return pointer
    | .peek => do
      let pointer ← FunctionalUnit.operand "memory controller" operands 0
      (← get).stack.peek pointer

end RegisterMachine
