import RegisterMachine.Fault
import RegisterMachine.Instruction.Operation

/-!
# Instructions and their coding

An instruction is four bytes, stored as a little-endian word:

    [operation:5|group:3] [dest:8] [src0:8] [src1:8]
    [operation:5|group:3] [dest:8] [immediate:16]

Every word is an instruction. Whether its group and operation code mean anything is a question
of its own, which `Instruction.operation` answers.

* `Instruction.encode` and `Instruction.decode` go between instructions and words.
* `Instruction.ofFields` builds an instruction from numbers that may be too large.
* `Instruction.operation` is the operation an instruction names, or why there is none.
-/

namespace RegisterMachine

/-- The fields of an instruction. -/
@[ext] structure Instruction where
  groupCode : Fin 8
  code : Fin 32
  dest : UInt8
  src0 : UInt8
  src1 : UInt8
  deriving DecidableEq, Repr

namespace Instruction

/-- The number of groups that have operations; the other group codes are reserved. -/
def groupCount : Nat := (Opcode.all : List Group).length

/-- Builds an instruction from the low bits of two numbers and three operand bytes. -/
def ofCodes (group code : Nat) (dest src0 src1 : UInt8) : Instruction where
  groupCode := Fin.ofNat 8 group
  code := Fin.ofNat 32 code
  dest := dest
  src0 := src0
  src1 := src1

/-- Builds an instruction, unless a field is too large for its bits. -/
def ofFields (group code : Nat) (dest src0 src1 : UInt8) : Except Fault Instruction :=
  if hg : group < 8 then
    if hc : code < 32 then
      .ok ⟨⟨group, hg⟩, ⟨code, hc⟩, dest, src0, src1⟩
    else
      .error (.indexOutOfRange .operation code 32)
  else
    .error (.indexOutOfRange .group group 8)

/-! ## Words -/

/-- The word of an instruction. -/
def encode (i : Instruction) : UInt32 :=
  UInt32.ofNat (i.groupCode.val + 8 * i.code.val + 0x100 * i.dest.toNat +
    0x10000 * i.src0.toNat + 0x1000000 * i.src1.toNat)

/-- The instruction in a word. -/
def decode (word : UInt32) : Instruction :=
  ofCodes word.toNat (word.toNat / 8) (UInt8.ofNat (word.toNat / 0x100))
    (UInt8.ofNat (word.toNat / 0x10000)) (UInt8.ofNat (word.toNat / 0x1000000))

/-! ## Operands -/

/-- The 16 bits in the two source bytes, the low byte first. -/
def immediate (i : Instruction) : UInt16 :=
  UInt16.ofNat (i.src0.toNat + 0x100 * i.src1.toNat)

/-- An operand byte by position. -/
def operand (i : Instruction) : Nat → Except Fault UInt8
  | 0 => .ok i.dest
  | 1 => .ok i.src0
  | 2 => .ok i.src1
  | position => .error (.operandByte position)

/-! ## Operations -/

/-- The group of an instruction, unless its group code is reserved. -/
def group? (i : Instruction) : Option Group :=
  Opcode.ofCode? i.groupCode

/-- The operation of an instruction, or the fault of executing it. -/
def operation (i : Instruction) : Except Fault Operation :=
  match i.group? with
  | none => .error (.indexOutOfRange .instructionGroup i.groupCode groupCount)
  | some .arithmetic =>
    match Opcode.ofCode? i.code.val with
    | some op => .ok (.arithmetic op)
    | none => .error (.unimplementedArithmetic i.code)
  | some .move =>
    match Opcode.ofCode? i.code.val with
    | some op => .ok (.move op)
    | none => .error (.invalidMove i.code)
  | some .jump =>
    match Opcode.ofCode? i.code.val with
    | some op => .ok (.jump op)
    | none => .error (.illegalJump i.code)
  | some .compare =>
    match Opcode.ofCode? i.code.val with
    | some op => .ok (.compare op)
    | none => .error (.invalidCompare i.code)
  | some .misc =>
    match Opcode.ofCode? i.code.val with
    | some op => .ok (.misc op)
    | none => .error (.invalidMisc i.code)

end Instruction

end RegisterMachine
