import RegisterMachine.Arithmetic
import RegisterMachine.FunctionalUnit.Basic

/-!
# The arithmetic unit

Takes the two arguments of an operation as its operands. For an immediate form the first is the
value of the destination and the second the immediate. The arguments and the result are cut down
to the word width, which is the unit's only state.
-/

namespace RegisterMachine

/-- The word width of an arithmetic unit, as a mask. -/
structure ArithmeticUnit where
  mask : Word
  deriving DecidableEq, Repr

instance : Inhabited ArithmeticUnit := ⟨⟨0⟩⟩

/-- The arithmetic unit. -/
def arithmeticUnit : FunctionalUnit ArithmeticUnit ArithmeticOp Word where
  name := "arithmetic"
  ports := 2
  operandCount _ := 2
  label := Opcode.label
  execute op operands := do
    let mask := (← get).mask
    let a ← FunctionalUnit.operand "arithmetic" operands 0
    let b ← FunctionalUnit.operand "arithmetic" operands 1
    let value ← op.eval (a &&& mask) (b &&& mask)
    return value &&& mask

end RegisterMachine
