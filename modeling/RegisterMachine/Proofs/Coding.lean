import RegisterMachine.Instruction.Builder
import RegisterMachine.Proofs.Instruction

/-!
# Instructions and words correspond

An instruction is cut into bit fields in three places: where it is encoded, where it is decoded, and
where it is built from an operation and its operands. The three agree for all words and operands.

* `Instruction.encode_decode`: a word has all that there is to its instruction.
* `Instruction.ofFields_eq_ok_iff`: fields are accepted if and only if they fit.
* `Instruction.Built`: what a built instruction is built from. `Instruction.Carries`: an instruction
  says the same.
* `Instruction.coding_lossless`: nothing is lost on the way through a word.
-/

namespace RegisterMachine

/-! ## Codes that fit -/

theorem Opcode.code_lt {α : Type} [Opcode α] [h : Lawful α] (op : α) :
    code op < (all : List α).length := by
  have := h.beq
  exact List.idxOf_lt_length_of_mem (h.mem_all op)

/-- Every operation has room in the operation bits. -/
theorem Operation.code_lt (op : Operation) : op.code < 32 := by
  cases op with
  | arithmetic op | move op | jump op | compare op | misc op =>
    exact (Opcode.code_lt op).trans_le (by decide)

namespace Instruction

variable {i : Instruction}

/-! ## Words -/

theorem encode_decode (word : UInt32) : (decode word).encode = word := by
  have hlt := word.toNat_lt
  rw [← UInt32.toNat_inj]
  simp only [encode, decode, ofCodes, Fin.ofNat, UInt8.toNat_ofNat', UInt32.toNat_ofNat']
  omega

/-- Fields are accepted if and only if they are those of an instruction. -/
theorem ofFields_eq_ok_iff {group code : ℕ} {dest src0 src1 : UInt8} :
    ofFields group code dest src0 src1 = .ok i ↔
      i.groupCode = group ∧ i.code = code ∧ i.dest = dest ∧ i.src0 = src0 ∧ i.src1 = src1 := by
  rw [ofFields]
  constructor
  · intro h
    split_ifs at h
    cases h
    exact ⟨rfl, rfl, rfl, rfl, rfl⟩
  · rintro ⟨rfl, rfl, rfl, rfl, rfl⟩
    rw [dif_pos i.groupCode.isLt, dif_pos i.code.isLt]

theorem exists_ofFields_iff {group code : ℕ} {dest src0 src1 : UInt8} :
    (∃ i, ofFields group code dest src0 src1 = .ok i) ↔ group < 8 ∧ code < 32 := by
  constructor
  · rintro ⟨i, h⟩
    obtain ⟨rfl, rfl, -⟩ := ofFields_eq_ok_iff.1 h
    exact ⟨i.groupCode.isLt, i.code.isLt⟩
  · rintro ⟨hg, hc⟩
    exact ⟨⟨⟨group, hg⟩, ⟨code, hc⟩, dest, src0, src1⟩,
      ofFields_eq_ok_iff.2 ⟨rfl, rfl, rfl, rfl, rfl⟩⟩

/-! ## Operands -/

/-- The operand bytes of an instruction. -/
def operandBytes (i : Instruction) : List UInt8 :=
  [i.dest, i.src0, i.src1]

theorem operand_of_lt {position : ℕ} (h : position < i.operandBytes.length) :
    i.operand position = .ok i.operandBytes[position] := by
  match position with
  | 0 | 1 | 2 => rfl
  | _ + 3 => exact absurd h (by simp [operandBytes])

theorem operand_of_le {position : ℕ} (h : i.operandBytes.length ≤ position) :
    i.operand position = .error (.operandByte position) := by
  match position with
  | 0 | 1 | 2 => exact absurd h (by simp [operandBytes])
  | _ + 3 => rfl

/-- What is given for the two source bytes of an instruction. -/
inductive Source where
  | registers (src0 src1 : UInt8)
  | immediate (value : UInt16)

/-- An instruction says what it was built from: an operation, a destination and what is given for
the source bytes. -/
structure Carries (i : Instruction) (op : Operation) (dest : UInt8) (source : Source) : Prop where
  groupCode_eq : i.groupCode = Opcode.code op.group
  code_eq : i.code = op.code
  dest_eq : i.dest = dest
  source_eq : match source with
    | .registers src0 src1 => i.src0 = src0 ∧ i.src1 = src1
    | .immediate value => i.immediate = value

theorem carries_withRegisters (op : Operation) (dest src0 src1 : UInt8) :
    (withRegisters op dest src0 src1).Carries op dest (.registers src0 src1) where
  groupCode_eq := Nat.mod_eq_of_lt ((Opcode.code_lt op.group).trans (by decide))
  code_eq := Nat.mod_eq_of_lt op.code_lt
  dest_eq := rfl
  source_eq := ⟨rfl, rfl⟩

/-- The two halves of an immediate are put together again. -/
theorem immediate_withImmediate (op : Operation) (dest : UInt8) (value : UInt16) :
    (withImmediate op dest value).immediate = value := by
  have hlt := value.toNat_lt
  rw [← UInt16.toNat_inj]
  simp only [immediate, withImmediate, withRegisters, ofCodes, UInt16.toNat_toUInt8,
    UInt8.toNat_ofNat', UInt16.toNat_ofNat']
  omega

theorem carries_withImmediate (op : Operation) (dest : UInt8) (value : UInt16) :
    (withImmediate op dest value).Carries op dest (.immediate value) :=
  { carries_withRegisters op dest _ _ with source_eq := immediate_withImmediate op dest value }

/-- The instructions that can be built, with what they are built from. -/
inductive Built : Instruction → Operation → UInt8 → Source → Prop
  | arithmetic (op : ArithmeticOp) (dest src0 src1 : UInt8) :
      Built (arithmetic op dest src0 src1) (.arithmetic op) dest (.registers src0 src1)
  | arithmeticImmediate (op : ArithmeticOp) (dest : UInt8) (value : UInt16) :
      Built (arithmeticImmediate op dest value) (.arithmetic op) dest (.immediate value)
  | move (op : MoveOp) (dest src0 : UInt8) :
      Built (move op dest src0) (.move op) dest (.registers src0 0)
  | moveImmediate (op : MoveOp) (dest : UInt8) (value : UInt16) :
      Built (moveImmediate op dest value) (.move op) dest (.immediate value)
  | jump (op : JumpOp) (target yes no : UInt8) :
      Built (jump op target yes no) (.jump op) target (.registers yes no)
  | jumpImmediate (op : JumpOp) (address : UInt16) :
      Built (jumpImmediate op address) (.jump op) 0 (.immediate address)
  | compare (op : CompareOp) (src0 src1 : UInt8) :
      Built (compare op src0 src1) (.compare op) 0 (.registers src0 src1)
  | systemCall (selector src0 src1 : UInt8) :
      Built (systemCall selector src0 src1) (.misc .systemCall) selector (.registers src0 src1)
  | systemCallImmediate (selector : UInt8) (value : UInt16) :
      Built (systemCallImmediate selector value) (.misc .systemCall) selector (.immediate value)
  | terminate : Built terminate (.misc .systemCall) 0 (.registers 0 0)

theorem Built.carries {op : Operation} {dest : UInt8} {source : Source}
    (h : Built i op dest source) : i.Carries op dest source := by
  cases h with
  | arithmetic | move | jump | compare | systemCall | terminate =>
    exact carries_withRegisters _ _ _ _
  | arithmeticImmediate | moveImmediate | jumpImmediate | systemCallImmediate =>
    exact carries_withImmediate _ _ _

/-- **Nothing is lost between instructions and words.** A word is that of its instruction. Fields
    are accepted if and only if they fit, and then come back from the word unchanged. So does what
    an instruction is built from, in whichever way it is built; its operand bytes are found by
    position, and there are no others. -/
theorem coding_lossless :
    (∀ word, (decode word).encode = word) ∧
    (∀ (group code : ℕ) (dest src0 src1 : UInt8),
      ((∃ i, ofFields group code dest src0 src1 = .ok i) ↔ group < 8 ∧ code < 32) ∧
      ∀ i, ofFields group code dest src0 src1 = .ok i →
        decode i.encode = i ∧
        i.groupCode = group ∧ i.code = code ∧ i.dest = dest ∧ i.src0 = src0 ∧ i.src1 = src1) ∧
    ∀ (built : Instruction) (op : Operation) (dest : UInt8) (source : Source),
      Built built op dest source →
        let i := decode built.encode
        i.Carries op dest source ∧
        (∀ (position : ℕ) (h : position < 3), i.operand position = .ok i.operandBytes[position]) ∧
        ∀ position, 3 ≤ position → i.operand position = .error (.operandByte position) := by
  refine ⟨encode_decode, fun group code dest src0 src1 => ⟨exists_ofFields_iff, fun i h => ?_⟩, ?_⟩
  · exact ⟨decode_encode i, ofFields_eq_ok_iff.1 h⟩
  · intro built op dest source h i
    have hi : i = built := decode_encode built
    refine ⟨hi ▸ h.carries, fun position hlt => operand_of_lt hlt, fun position hle => ?_⟩
    exact operand_of_le hle

theorem coding_lossless_set :
    ofFields 7 31 0 0 0 = .ok ⟨7, 31, 0, 0, 0⟩ ∧
    decode (encode ⟨7, 31, 0, 0, 0⟩) = ⟨7, 31, 0, 0, 0⟩ ∧
    (decode (moveImmediate .set 6 0xBEEF).encode).Carries (.move .set) 6 (.immediate 0xBEEF) ∧
    (decode (moveImmediate .set 6 0xBEEF).encode).operand 2 = .ok 0xBE ∧
    (decode (moveImmediate .set 6 0xBEEF).encode).operand 3 = .error (.operandByte 3) := by
  have hfields : ofFields 7 31 0 0 0 = .ok ⟨7, 31, 0, 0, 0⟩ := by decide
  obtain ⟨-, haccept, hbuilt⟩ := coding_lossless
  obtain ⟨hcarries, hwithin, hpast⟩ := hbuilt _ _ _ _ (.moveImmediate .set 6 0xBEEF)
  refine ⟨hfields, ((haccept 7 31 0 0 0).2 _ hfields).1, hcarries, ?_, hpast 3 (by decide)⟩
  exact (hwithin 2 (by decide)).trans (by decide)

end Instruction

end RegisterMachine
