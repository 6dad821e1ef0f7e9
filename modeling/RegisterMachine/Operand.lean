import RegisterMachine.Instruction.Disassembly

/-!
# Places and operands

A `Place` is where a value can be read and written; an `Operand` is a place or a literal, and
can only be read.
-/

namespace RegisterMachine

/-- Where a value lives. -/
inductive Place where
  | register (r : UInt8)
  /-- The data cell at the address in a register. -/
  | memory (r : UInt8)
  /-- The data cell at a given address. -/
  | memoryAt (address : UInt16)
  /-- The microcode cell at the address in a register. -/
  | microcode (r : UInt8)
  deriving DecidableEq, Repr

namespace Place

/-- Whether a place is a register itself. -/
def isRegister : Place → Bool
  | register _ => true
  | _ => false

/-- The text of a place. -/
def text : Place → String
  | register r => Instruction.registerName r
  | memory r => "data[" ++ Instruction.registerName r ++ "]"
  | memoryAt address => "data[" ++ hexPadded 4 address.toNat ++ "]"
  | microcode r => "micro[" ++ Instruction.registerName r ++ "]"

end Place

/-- What a value is read from. -/
inductive Operand where
  | place (p : Place)
  | literal (value : UInt16)
  deriving DecidableEq, Repr

instance : Coe Place Operand := ⟨.place⟩

/-- The text of an operand. -/
def Operand.text : Operand → String
  | place p => p.text
  | literal value => "#" ++ hexPadded 4 value.toNat

end RegisterMachine
