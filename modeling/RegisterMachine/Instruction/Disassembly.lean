import RegisterMachine.Instruction.Basic

/-!
# Disassembly

An instruction is written as its mnemonic and the operands that its operation uses. A word that
names no operation is written as `.word` and its value.
-/

namespace RegisterMachine.Instruction

/-- The name of a register. -/
def registerName (register : UInt8) : String :=
  s!"r{register.toNat}"

/-- The operands of an instruction, as a layout shows them. -/
def operandTexts (i : Instruction) : Layout → List String
  | .three => [registerName i.dest, registerName i.src0, registerName i.src1]
  | .two => [registerName i.dest, registerName i.src0]
  | .one => [registerName i.dest]
  | .pair => [registerName i.src0, registerName i.src1]
  | .destImmediate => [registerName i.dest, hexPadded 4 i.immediate.toNat]
  | .immediate => [hexPadded 4 i.immediate.toNat]
  | .none => []

/-- Joins a mnemonic and its operands. -/
def assemblyLine (mnemonic : String) (operands : List String) : String :=
  if operands.isEmpty then mnemonic else mnemonic ++ " " ++ ", ".intercalate operands

/-- The assembly text of an instruction. -/
def text (i : Instruction) : String :=
  match i.operation with
  | .ok op => assemblyLine op.spelling.mnemonic (i.operandTexts op.spelling.layout)
  | .error _ => assemblyLine ".word" [hexPadded 8 i.encode.toNat]

end RegisterMachine.Instruction
