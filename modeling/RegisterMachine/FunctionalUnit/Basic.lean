import RegisterMachine.Exec

/-!
# Functional units

A functional unit does one kind of work: it has a state, a set of operations, and executes an
operation on a list of operands. Operands arrive on numbered ports, one per port, so a unit says
how many ports it has and how many operands each of its operations takes.
-/

namespace RegisterMachine

/-- A unit with states `σ`, operations `ω` and outputs `ρ`. -/
structure FunctionalUnit (σ ω ρ : Type) where
  name : String
  /-- The number of operand ports. -/
  ports : Nat
  /-- The number of operands an operation takes. -/
  operandCount : ω → Nat
  /-- An operation as log lines show it. -/
  label : ω → String
  execute : ω → List Word → Exec σ ρ

namespace FunctionalUnit

/-- The operand at a position. A unit that is given fewer operands than it reads is lost to its
caller. -/
def operand {σ : Type} (unit : String) (operands : List Word) (position : Nat) : Exec σ Word :=
  match operands[position]? with
  | some value => return value
  | none => throw (.unitDisconnected unit)

/-- Executes an operation and logs that it does. -/
def perform {σ ω ρ : Type} (unit : FunctionalUnit σ ω ρ) (op : ω) (operands : List Word) :
    Exec σ ρ := do
  Exec.note .trace fun _ =>
    let values := ", ".intercalate (operands.map fun value => s!"{value.toNat}")
    s!"{unit.name} unit: {unit.label op} [{values}]"
  unit.execute op operands

end FunctionalUnit

end RegisterMachine
