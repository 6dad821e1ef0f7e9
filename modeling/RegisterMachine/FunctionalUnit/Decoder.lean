import RegisterMachine.FunctionalUnit.Basic
import RegisterMachine.Instruction.Basic

/-!
# The decoder

Takes an instruction word as its operand and answers the instruction.
-/

namespace RegisterMachine

/-- What the decoder can do. -/
inductive DecoderOp where
  | decode
  deriving DecidableEq, Repr

/-- The decoder, which has no state. -/
def decoderUnit : FunctionalUnit Unit DecoderOp Instruction where
  name := "decode"
  ports := 1
  operandCount _ := 1
  label _ := "Decode"
  execute _ operands := do
    let word ← FunctionalUnit.operand "decode" operands 0
    if word.toNat < UInt32.size then
      return Instruction.decode word.toUInt32
    else
      throw (.indexOutOfRange .instructionWord word.toNat (UInt32.size - 1))

end RegisterMachine
