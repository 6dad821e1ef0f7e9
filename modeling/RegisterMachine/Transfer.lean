import RegisterMachine.Operand

/-!
# Transfers

Every move operation is one of five transfers between places. `Transfer.ofMove` names the
places that an instruction touches; the machines carry the transfer out.
-/

namespace RegisterMachine

/-- What a move operation does. -/
inductive Transfer where
  | copy (dest : Place) (source : Operand)
  | swap (a b : Place)
  | push (source : Operand)
  | pop (dest : Place)
  | peek (dest : Place)
  deriving DecidableEq, Repr

/-- The transfer that a move operation makes of an instruction's operands. -/
def Transfer.ofMove (i : Instruction) : MoveOp → Transfer
  | .move => .copy (.register i.dest) (Place.register i.src0)
  | .swap => .swap (.register i.dest) (.register i.src0)
  | .swapRegMem => .swap (.register i.dest) (.memory i.src0)
  | .swapMemMem => .swap (.memory i.dest) (.memory i.src0)
  | .swapRegAddr => .swap (.register i.dest) (.memoryAt i.immediate)
  | .swapMemAddr => .swap (.memory i.dest) (.memoryAt i.immediate)
  | .set => .copy (.register i.dest) (.literal i.immediate)
  | .load => .copy (.register i.dest) (Place.memory i.src0)
  | .loadImmediate => .copy (.register i.dest) (Place.memoryAt i.immediate)
  | .store => .copy (.memory i.dest) (Place.register i.src0)
  | .storeMemory => .copy (.memory i.dest) (Place.memory i.src0)
  | .storeImmediateAddress => .copy (.memoryAt i.immediate) (Place.register i.dest)
  | .storeImmediate => .copy (.memory i.dest) (.literal i.immediate)
  | .push => .push (Place.register i.dest)
  | .pushImmediate => .push (.literal i.immediate)
  | .pop => .pop (.register i.dest)
  | .peek => .peek (.register i.dest)
  | .loadMicrocode => .copy (.register i.dest) (Place.microcode i.src0)
  | .storeMicrocode => .copy (.microcode i.dest) (Place.register i.src0)

end RegisterMachine
