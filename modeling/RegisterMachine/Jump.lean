import RegisterMachine.Operand

/-!
# Jumps

A `JumpForm` is the shape of a jump, with its targets as operands, or as addresses once they
have been read. `JumpForm.flow` settles a conditional with the predicate, and leaves one of
four ways for control to go, which each machine carries out on its own state.
-/

namespace RegisterMachine

/-- The shape of a jump. -/
inductive JumpForm (α : Type) where
  | unconditional (call : Bool) (target : α)
  /-- Jumps if the predicate is `polarity`. -/
  | conditional (call polarity : Bool) (target : α)
  /-- Jumps to `yes` if the predicate is `polarity`, and to `no` otherwise. -/
  | select (call polarity : Bool) (yes no : α)
  | ret
  deriving DecidableEq, Repr

/-- Where control goes after an instruction. -/
inductive Flow where
  | next
  | goto (address : Word)
  /-- Goes to an address and leaves the next one as the place to return to. -/
  | call (address : Word)
  | ret
  deriving DecidableEq, Repr

namespace JumpForm

variable {α β : Type}

/-- Reads the targets of a jump, the one for a true condition first. -/
def mapM {m : Type → Type} [Monad m] (read : α → m β) : JumpForm α → m (JumpForm β)
  | unconditional call target => return unconditional call (← read target)
  | conditional call polarity target => return conditional call polarity (← read target)
  | select call polarity yes no => return select call polarity (← read yes) (← read no)
  | ret => return ret

/-- Whether a jump leaves a place to return to when it is taken. -/
def isCall : JumpForm α → Bool
  | unconditional call _ => call
  | conditional call _ _ => call
  | select call _ _ _ => call
  | ret => false

/-- The jump to an address, as a call or not. -/
def jumpTo (call : Bool) (address : Word) : Flow :=
  if call then .call address else .goto address

/-- Where a jump leads under a predicate. -/
def flow (predicate : Bool) : JumpForm Word → Flow
  | unconditional call target => jumpTo call target
  | conditional call polarity target => if predicate = polarity then jumpTo call target else .next
  | select call polarity yes no => jumpTo call (if predicate = polarity then yes else no)
  | ret => .ret

/-- The jump that a jump operation makes of an instruction's operands. Immediate forms go to
the immediate, register forms to the address in the destination register, and selects to one of
those in the source registers. -/
def ofJump (i : Instruction) : JumpOp → JumpForm Operand
  | .branch => unconditional false (.literal i.immediate)
  | .branchRegister => unconditional false (Place.register i.dest)
  | .call => unconditional true (.literal i.immediate)
  | .callRegister => unconditional true (Place.register i.dest)
  | .branchIfTrue => conditional false true (.literal i.immediate)
  | .branchIfTrueRegister => conditional false true (Place.register i.dest)
  | .callIfTrue => conditional true true (.literal i.immediate)
  | .callIfTrueRegister => conditional true true (Place.register i.dest)
  | .branchIfFalse => conditional false false (.literal i.immediate)
  | .branchIfFalseRegister => conditional false false (Place.register i.dest)
  | .callIfFalse => conditional true false (.literal i.immediate)
  | .callIfFalseRegister => conditional true false (Place.register i.dest)
  | .selectIfTrue => select false true (Place.register i.src0) (Place.register i.src1)
  | .selectIfFalse => select false false (Place.register i.src0) (Place.register i.src1)
  | .selectCallIfTrue => select true true (Place.register i.src0) (Place.register i.src1)
  | .selectCallIfFalse => select true false (Place.register i.src0) (Place.register i.src1)
  | .ret => ret

/-- A jump with addresses for targets, as log lines show it. -/
def label : JumpForm Word → String
  | unconditional call target =>
    s!"Unconditional \x7b call: {call}, target: {target.toNat} \x7d"
  | conditional call polarity target =>
    s!"Conditional \x7b call: {call}, when: {polarity}, target: {target.toNat} \x7d"
  | select call polarity yes no =>
    s!"Select \x7b call: {call}, when: {polarity}, then: {yes.toNat}, otherwise: {no.toNat} \x7d"
  | ret => "Return"

end JumpForm

end RegisterMachine
