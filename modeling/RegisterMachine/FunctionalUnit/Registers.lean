import RegisterMachine.FunctionalUnit.Basic
import RegisterMachine.RegisterFile

/-!
# The register unit

Reads and writes a register file. A write answers the value as it was stored.
-/

namespace RegisterMachine

/-- What the register unit can do. -/
inductive RegisterOp where
  | read (r : UInt8)
  /-- Operand: the value. -/
  | write (r : UInt8)
  deriving DecidableEq, Repr

/-- The register unit. -/
def registerUnit : FunctionalUnit RegisterFile RegisterOp Word where
  name := "register file"
  ports := 1
  operandCount
    | .read _ => 0
    | .write _ => 1
  label
    | .read r => s!"Read({r.toNat})"
    | .write r => s!"Write({r.toNat})"
  execute op operands :=
    match op with
    | .read r => return (← get).get r
    | .write r => do
      let value ← FunctionalUnit.operand "register file" operands 0
      RegisterFile.set r value
      return (← get).get r

end RegisterMachine
