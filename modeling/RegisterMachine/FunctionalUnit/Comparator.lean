import RegisterMachine.Compare
import RegisterMachine.FunctionalUnit.Basic

/-!
# The comparator

Takes the predicate and the two values to compare as its operands, and answers the new
predicate as zero or one.
-/

namespace RegisterMachine

/-- The comparator, which has no state. -/
def compareUnit : FunctionalUnit Unit CompareOp Word where
  name := "compare"
  ports := 3
  operandCount _ := 3
  label := Opcode.label
  execute op operands := do
    let predicate ← FunctionalUnit.operand "compare" operands 0
    let a ← FunctionalUnit.operand "compare" operands 1
    let b ← FunctionalUnit.operand "compare" operands 2
    return if op.eval (predicate != 0) a b then 1 else 0

end RegisterMachine
