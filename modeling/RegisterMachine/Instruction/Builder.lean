import RegisterMachine.Instruction.Basic

/-!
# Building instructions

One function per way of giving operands to the operations of a group. None of them checks that
the operation suits the operands: an immediate given to a register form is a legal instruction,
whose source bytes are the immediate.
-/

namespace RegisterMachine.Instruction

/-- An instruction with three operand bytes. -/
def withRegisters (op : Operation) (dest src0 src1 : UInt8) : Instruction :=
  ofCodes (Opcode.code op.group) op.code dest src0 src1

/-- An instruction with an immediate. -/
def withImmediate (op : Operation) (dest : UInt8) (immediate : UInt16) : Instruction :=
  withRegisters op dest immediate.toUInt8 (UInt8.ofNat (immediate.toNat / 0x100))

/-- An arithmetic instruction on registers. -/
def arithmetic (op : ArithmeticOp) (dest src0 src1 : UInt8) : Instruction :=
  withRegisters (.arithmetic op) dest src0 src1

/-- An arithmetic instruction on a register and an immediate. -/
def arithmeticImmediate (op : ArithmeticOp) (dest : UInt8) (immediate : UInt16) : Instruction :=
  withImmediate (.arithmetic op) dest immediate

/-- A move instruction on registers. -/
def move (op : MoveOp) (dest src0 : UInt8) : Instruction :=
  withRegisters (.move op) dest src0 0

/-- A move instruction with an immediate. -/
def moveImmediate (op : MoveOp) (dest : UInt8) (immediate : UInt16) : Instruction :=
  withImmediate (.move op) dest immediate

/-- A jump to the address in `target`, or to one of those in `yes` and `no`. -/
def jump (op : JumpOp) (target yes no : UInt8) : Instruction :=
  withRegisters (.jump op) target yes no

/-- A jump to a given address. -/
def jumpImmediate (op : JumpOp) (address : UInt16) : Instruction :=
  withImmediate (.jump op) 0 address

/-- A compare of two registers. The result goes to the predicate register. -/
def compare (op : CompareOp) (src0 src1 : UInt8) : Instruction :=
  withRegisters (.compare op) 0 src0 src1

/-- A system call with two registers. -/
def systemCall (selector src0 src1 : UInt8) : Instruction :=
  withRegisters (.misc .systemCall) selector src0 src1

/-- A system call with an immediate. -/
def systemCallImmediate (selector : UInt8) (immediate : UInt16) : Instruction :=
  withImmediate (.misc .systemCall) selector immediate

/-- The selector of a built-in system call. -/
def selector (command : SystemCommand) : UInt8 :=
  UInt8.ofNat (Opcode.code command)

/-- The instruction that halts the machine. -/
def terminate : Instruction :=
  systemCall (selector .terminate) 0 0

end RegisterMachine.Instruction
