import RegisterMachine.FunctionalUnit.Basic
import RegisterMachine.Jump
import RegisterMachine.Memory.Segment
import RegisterMachine.Profile

/-!
# The branch unit

Owns the call stack. Its operands are the instruction pointer, the predicate and the call stack
pointer; it answers where both pointers go. The call stack pointer itself stays in a register.
-/

namespace RegisterMachine

/-- The call stack of a branch unit, and the mask of its words. -/
structure BranchUnit where
  callStack : Segment Word
  mask : Word
  deriving DecidableEq

/-- Where the pointers go after a jump. -/
structure BranchOutcome where
  instructionPointer : Word
  callPointer : Word
  deriving DecidableEq, Repr

namespace BranchUnit

instance : Inhabited BranchUnit := ⟨⟨default, 0⟩⟩

/-- A branch unit with a given call stack. -/
def ofCallStack (profile : Profile) (callStack : Segment Word) : BranchUnit :=
  ⟨callStack, profile.wordMask⟩

/-- A branch unit with an empty call stack. -/
def ofProfile (profile : Profile) : BranchUnit :=
  ofCallStack profile (.filled .callStack profile.callStackCapacity 0)

/-- The call stack of a branch unit. -/
def callStackPart : Part BranchUnit (Segment Word) where
  get := callStack
  set callStack unit := { unit with callStack }

/-- Lets control go as a jump has settled, from the pointers before it. -/
def follow (ip csp : Word) : Flow → Exec BranchUnit BranchOutcome
  | .next => return ⟨(ip + 1) &&& (← get).mask, csp⟩
  | .goto address => return ⟨address &&& (← get).mask, csp⟩
  | .call address => do
    let mask := (← get).mask
    let csp ← Exec.onPart callStackPart (Segment.push csp ((ip + 1) &&& mask) mask)
    return ⟨address &&& mask, csp⟩
  | .ret => do
    let unit ← get
    let (address, csp) ← unit.callStack.pop csp unit.mask
    return ⟨address &&& unit.mask, csp⟩

end BranchUnit

/-- The branch unit. -/
def branchUnit : FunctionalUnit BranchUnit (JumpForm Word) BranchOutcome where
  name := "branch"
  ports := 3
  operandCount _ := 3
  label := JumpForm.label
  execute form operands := do
    let ip ← FunctionalUnit.operand "branch" operands 0
    let predicate ← FunctionalUnit.operand "branch" operands 1
    let csp ← FunctionalUnit.operand "branch" operands 2
    BranchUnit.follow ip csp (form.flow (predicate != 0))

end RegisterMachine
