/-!
# Coded operations

The operations of a kind are listed in the order of their codes: the code of an operation is
its position in the list. Codes past the end of the list belong to no operation.
-/

namespace RegisterMachine

/-- A kind of operation, in the order of the codes. -/
class Opcode (α : Type) extends BEq α where
  all : List α
  /-- The name in assembly text. -/
  mnemonic : α → String
  /-- The name in log lines. -/
  label : α → String

namespace Opcode

variable {α : Type} [Opcode α]

/-- The code of an operation. -/
def code (operation : α) : Nat :=
  (all : List α).idxOf operation

/-- The operation with a given code. -/
def ofCode? (code : Nat) : Option α :=
  all[code]?

/-- The operation with a given mnemonic. -/
def ofMnemonic? (name : String) : Option α :=
  all.find? (mnemonic · == name)

end Opcode

end RegisterMachine
