import RegisterMachine.Proofs.Text

/-!
# Instructions and their texts

An instruction names an operation by two codes. No two operations have the same codes, and no two
the same mnemonic, even in different groups; a mnemonic has no blanks and is never mistaken for the
mark of a word that names no operation.

* `Opcode.Lawful`, `Opcode.ofCode?_eq_some_iff`: a kind of operation whose codes are all different.
* `Instruction.operation_eq_ok_iff`, `Instruction.unassigned_iff`: which codes name an operation.
* `Instruction.decode_encode`: the word of an instruction has all that there is to it.
* `Operation.eq_of_mnemonic_eq`: operations are told apart by their mnemonics.
* `Instruction.visible`, `Instruction.visible_eq_of_text_eq`: instructions with the same text agree
  in all that it shows.
-/

namespace RegisterMachine

/-! ## Codes -/

/-- A kind of operation that lists each of its operations once. -/
class Opcode.Lawful (α : Type) [Opcode α] : Prop where
  beq : LawfulBEq α
  mem_all : ∀ op : α, op ∈ (Opcode.all : List α)
  nodup : (Opcode.all : List α).Nodup

namespace Opcode

instance : Lawful Group where
  beq := inferInstanceAs (LawfulBEq Group)
  mem_all op := by cases op <;> decide
  nodup := by decide

instance : Lawful ArithmeticOp where
  beq := inferInstanceAs (LawfulBEq ArithmeticOp)
  mem_all op := by cases op <;> decide
  nodup := by decide

instance : Lawful MoveOp where
  beq := inferInstanceAs (LawfulBEq MoveOp)
  mem_all op := by cases op <;> decide
  nodup := by decide

instance : Lawful JumpOp where
  beq := inferInstanceAs (LawfulBEq JumpOp)
  mem_all op := by cases op <;> decide
  nodup := by decide

instance : Lawful CompareOp where
  beq := inferInstanceAs (LawfulBEq CompareOp)
  mem_all op := by
    obtain ⟨relation, combinator⟩ := op
    cases relation <;> cases combinator <;> decide
  nodup := by decide

instance : Lawful MiscOp where
  beq := inferInstanceAs (LawfulBEq MiscOp)
  mem_all op := by cases op; decide
  nodup := by decide

instance : Lawful SystemCommand where
  beq := inferInstanceAs (LawfulBEq SystemCommand)
  mem_all op := by cases op <;> decide
  nodup := by decide

variable {α : Type} [Opcode α] {n : ℕ}

/-- The operation with a code is the one that has the code. -/
theorem ofCode?_eq_some_iff [h : Lawful α] {op : α} :
    ofCode? n = some op ↔ code op = n := by
  have := h.beq
  have hop : (all : List α)[code op]? = some op := List.getElem?_idxOf (h.mem_all op)
  constructor
  · intro hn
    have hlt := (List.getElem?_eq_some_iff.1 hop).1
    exact (List.getElem?_inj hlt h.nodup).1 (hop.trans hn.symm)
  · rintro rfl
    exact hop

theorem code_inj [Lawful α] {op op' : α} : code op = code op' ↔ op = op' := by
  rw [← ofCode?_eq_some_iff, ofCode?_eq_some_iff.2 rfl, Option.some.injEq, eq_comm]

end Opcode

namespace Instruction

variable {i i' : Instruction} {op : Operation}

/-- An operation is named by the codes of its group and of itself. -/
theorem operation_eq_ok_iff : i.operation = .ok op ↔
    Opcode.code op.group = i.groupCode ∧ op.code = i.code := by
  constructor
  · intro h
    rw [operation] at h
    split at h
    · cases h
    all_goals
      next hg =>
        split at h
        · next hop =>
          cases h
          exact ⟨Opcode.ofCode?_eq_some_iff.1 hg, Opcode.ofCode?_eq_some_iff.1 hop⟩
        · cases h
  · rintro ⟨hg, hop⟩
    have hgroup : i.group? = some op.group := Opcode.ofCode?_eq_some_iff.2 hg
    cases op with
    | arithmetic op | move op | jump op | compare op | misc op =>
      rw [operation, hgroup]
      dsimp only [Operation.group]
      rw [Opcode.ofCode?_eq_some_iff.2 hop]

/-- No operation has the codes of an instruction: there is no such group, or the group has no such
operation. -/
def Unassigned (i : Instruction) : Prop :=
  (∀ group : Group, Opcode.code group ≠ i.groupCode) ∨
    ∃ group : Group, Opcode.code group = i.groupCode ∧
      ∀ op : Operation, op.group = group → op.code ≠ i.code

theorem unassigned_iff : i.Unassigned ↔ ∃ fault, i.operation = .error fault := by
  constructor
  · intro h
    cases hop : i.operation with
    | error fault => exact ⟨fault, rfl⟩
    | ok op =>
      obtain ⟨hgroup, hcode⟩ := operation_eq_ok_iff.1 hop
      rcases h with h | ⟨group, hg, h⟩
      · exact absurd hgroup (h op.group)
      · exact absurd hcode (h op (Opcode.code_inj.1 (hgroup.trans hg.symm)))
  · rintro ⟨fault, hfault⟩
    by_cases hg : ∃ group : Group, Opcode.code group = i.groupCode
    · obtain ⟨group, hgroup⟩ := hg
      refine .inr ⟨group, hgroup, fun op hop hcode => ?_⟩
      have hok := operation_eq_ok_iff.2 ⟨hop ▸ hgroup, hcode⟩
      rw [hfault] at hok
      cases hok
    · exact .inl fun group hgroup => hg ⟨group, hgroup⟩

/-! ## Words -/

/-- The word of an instruction has all that there is to it. -/
theorem decode_encode (i : Instruction) : decode i.encode = i := by
  have hg := i.groupCode.isLt
  have hc := i.code.isLt
  have hdest := i.dest.toNat_lt
  have hsrc0 := i.src0.toNat_lt
  have hsrc1 := i.src1.toNat_lt
  have hword : i.encode.toNat = i.groupCode.val + 8 * i.code.val + 0x100 * i.dest.toNat +
      0x10000 * i.src0.toNat + 0x1000000 * i.src1.toNat :=
    UInt32.toNat_ofNat_of_lt' (by simp only [UInt32.size]; omega)
  ext
  · simp only [decode, ofCodes, Fin.ofNat, hword]
    omega
  · simp only [decode, ofCodes, Fin.ofNat, hword]
    omega
  all_goals
    simp only [decode, ofCodes, UInt8.toNat_ofNat', hword]
    omega

theorem src_eq_of_immediate_eq (h : i.immediate = i'.immediate) :
    i.src0 = i'.src0 ∧ i.src1 = i'.src1 := by
  have himmediate (i : Instruction) :
      i.immediate.toNat = i.src0.toNat + 0x100 * i.src1.toNat := by
    have hsrc0 := i.src0.toNat_lt
    have hsrc1 := i.src1.toNat_lt
    exact UInt16.toNat_ofNat_of_lt' (by simp only [UInt16.size]; omega)
  have heq : i.src0.toNat + 0x100 * i.src1.toNat = i'.src0.toNat + 0x100 * i'.src1.toNat := by
    rw [← himmediate, h, himmediate]
  have hsrc0 := i.src0.toNat_lt
  have hsrc0' := i'.src0.toNat_lt
  rw [← UInt8.toNat_inj, ← UInt8.toNat_inj]
  omega

end Instruction

/-! ## Mnemonics -/

namespace Operation

/-- The operations of all groups. -/
def all : List Operation :=
  (Opcode.all : List ArithmeticOp).map arithmetic ++ (Opcode.all : List MoveOp).map move ++
    (Opcode.all : List JumpOp).map jump ++ (Opcode.all : List CompareOp).map compare ++
    (Opcode.all : List MiscOp).map misc

theorem mem_all (op : Operation) : op ∈ all := by
  simp only [all, List.mem_append, List.mem_map]
  cases op with
  | arithmetic op => exact .inl (.inl (.inl (.inl ⟨op, Opcode.Lawful.mem_all op, rfl⟩)))
  | move op => exact .inl (.inl (.inl (.inr ⟨op, Opcode.Lawful.mem_all op, rfl⟩)))
  | jump op => exact .inl (.inl (.inr ⟨op, Opcode.Lawful.mem_all op, rfl⟩))
  | compare op => exact .inl (.inr ⟨op, Opcode.Lawful.mem_all op, rfl⟩)
  | misc op => exact .inr ⟨op, Opcode.Lawful.mem_all op, rfl⟩

/-- No two operations have the same mnemonic, not even in different groups. -/
theorem eq_of_mnemonic_eq {op op' : Operation}
    (h : op.spelling.mnemonic = op'.spelling.mnemonic) : op = op' := by
  -- the mnemonics of all groups in one table, compared with each other
  have hnodup : (all.map fun op => op.spelling.mnemonic).Nodup := by decide +kernel
  exact List.inj_on_of_nodup_map hnodup (mem_all op) (mem_all op') h

theorem blank_notMem_mnemonic (op : Operation) : ' ' ∉ op.spelling.mnemonic.toList := by
  have hall : ∀ op ∈ all, ' ' ∉ op.spelling.mnemonic.toList := by decide +kernel
  exact hall op (mem_all op)

/-- A mnemonic starts with a letter. -/
theorem exists_mnemonic_eq (op : Operation) :
    ∃ c rest, op.spelling.mnemonic.toList = c :: rest ∧ c ≠ '.' := by
  have hall : ∀ op ∈ all, op.spelling.mnemonic.toList ≠ [] ∧
      op.spelling.mnemonic.toList.head? ≠ some '.' := by decide +kernel
  obtain ⟨hne, hhead⟩ := hall op (mem_all op)
  obtain ⟨c, rest, hc⟩ := List.exists_cons_of_ne_nil hne
  rw [hc] at hhead
  exact ⟨c, rest, hc, fun h => hhead (congrArg some h)⟩

end Operation

/-! ## Texts -/

namespace Instruction

variable {i i' : Instruction} {op : Operation}

theorem text_of_ok (h : i.operation = .ok op) :
    i.text = assemblyLine op.spelling.mnemonic (i.operandTexts op.spelling.layout) := by
  rw [text, h]

theorem text_of_error {fault : Fault} (h : i.operation = .error fault) :
    i.text = assemblyLine ".word" [hexPadded 8 i.encode.toNat] := by
  rw [text, h]

/-- The mark of a word that names no operation is on those words only. -/
theorem isPrefix_text_iff : ".word".toList <+: i.text.toList ↔ i.Unassigned := by
  have hprefix (mnemonic : String) (operands : List String) :
      ∃ rest, (assemblyLine mnemonic operands).toList = mnemonic.toList ++ rest := by
    rw [assemblyLine]
    split_ifs
    · exact ⟨[], (List.append_nil _).symm⟩
    · exact ⟨_, by rw [String.toList_append, String.toList_append, List.append_assoc]⟩
  rw [unassigned_iff]
  cases h : i.operation with
  | error fault =>
    obtain ⟨rest, hrest⟩ := hprefix ".word" [hexPadded 8 i.encode.toNat]
    rw [text_of_error h, hrest]
    exact iff_of_true (List.prefix_append _ _) ⟨fault, rfl⟩
  | ok op =>
    obtain ⟨rest, hrest⟩ := hprefix op.spelling.mnemonic (i.operandTexts op.spelling.layout)
    obtain ⟨c, tail, hc, hne⟩ := op.exists_mnemonic_eq
    rw [text_of_ok h, hrest, hc]
    refine iff_of_false ?_ (by rintro ⟨fault, hfault⟩; cases hfault)
    rintro ⟨t, ht⟩
    exact hne (List.cons.inj ht).1.symm

/-- The instruction with zeros for the operand bytes that a layout does not show. -/
def keep (i : Instruction) : Layout → Instruction
  | .three | .destImmediate => i
  | .two => { i with src1 := 0 }
  | .one => { i with src0 := 0, src1 := 0 }
  | .pair | .immediate => { i with dest := 0 }
  | .none => { i with dest := 0, src0 := 0, src1 := 0 }

/-- The instruction with zeros for the operand bytes that its text does not show. -/
def visible (i : Instruction) : Instruction :=
  match i.operation with
  | .ok op => i.keep op.spelling.layout
  | .error _ => i

theorem comma_notMem_operandTexts (i : Instruction) (layout : Layout) :
    ∀ text ∈ i.operandTexts layout, ',' ∉ text.toList := by
  cases layout <;> simp [operandTexts, comma_notMem_registerName, comma_notMem_hexPadded]

theorem keep_eq_of_operandTexts_eq {layout : Layout} (hg : i.groupCode = i'.groupCode)
    (hc : i.code = i'.code) (h : i.operandTexts layout = i'.operandTexts layout) :
    i.keep layout = i'.keep layout := by
  have himmediate (h : hexPadded 4 i.immediate.toNat = hexPadded 4 i'.immediate.toNat) :
      i.src0 = i'.src0 ∧ i.src1 = i'.src1 :=
    src_eq_of_immediate_eq (UInt16.toNat_inj.1 (hexPadded_inj h))
  cases layout with
  | three =>
    simp only [operandTexts, List.cons.injEq, and_true] at h
    exact Instruction.ext hg hc (registerName_inj h.1) (registerName_inj h.2.1)
      (registerName_inj h.2.2)
  | two =>
    simp only [operandTexts, List.cons.injEq, and_true] at h
    exact Instruction.ext hg hc (registerName_inj h.1) (registerName_inj h.2) rfl
  | one =>
    simp only [operandTexts, List.cons.injEq, and_true] at h
    exact Instruction.ext hg hc (registerName_inj h) rfl rfl
  | pair =>
    simp only [operandTexts, List.cons.injEq, and_true] at h
    exact Instruction.ext hg hc rfl (registerName_inj h.1) (registerName_inj h.2)
  | destImmediate =>
    simp only [operandTexts, List.cons.injEq, and_true] at h
    exact Instruction.ext hg hc (registerName_inj h.1) (himmediate h.2).1 (himmediate h.2).2
  | immediate =>
    simp only [operandTexts, List.cons.injEq, and_true] at h
    exact Instruction.ext hg hc rfl (himmediate h).1 (himmediate h).2
  | none => exact Instruction.ext hg hc rfl rfl rfl

/-- **Instructions with the same text agree in all that it shows**, the operation included. -/
theorem visible_eq_of_text_eq (h : i.text = i'.text) : i.visible = i'.visible := by
  have hword : ' ' ∉ ".word".toList := by decide
  have hnot (op : Operation) : op.spelling.mnemonic ≠ ".word" := by
    obtain ⟨c, rest, hc, hne⟩ := op.exists_mnemonic_eq
    intro heq
    rw [heq] at hc
    exact hne (List.cons.inj hc).1.symm
  cases hop : i.operation with
  | ok op =>
    cases hop' : i'.operation with
    | ok op' =>
      rw [text_of_ok hop, text_of_ok hop'] at h
      obtain rfl : op = op' := Operation.eq_of_mnemonic_eq
        (mnemonic_eq_of_assemblyLine_eq op.blank_notMem_mnemonic op'.blank_notMem_mnemonic h)
      obtain ⟨hg, hc⟩ := operation_eq_ok_iff.1 hop
      obtain ⟨hg', hc'⟩ := operation_eq_ok_iff.1 hop'
      have hlen : (i.operandTexts op.spelling.layout).length =
          (i'.operandTexts op.spelling.layout).length := by
        cases op.spelling.layout <;> rfl
      have hoperands := operands_eq_of_assemblyLine_eq (comma_notMem_operandTexts i _)
        (comma_notMem_operandTexts i' _) hlen h
      rw [visible, visible, hop, hop']
      exact keep_eq_of_operandTexts_eq (Fin.ext (hg.symm.trans hg')) (Fin.ext (hc.symm.trans hc'))
        hoperands
    | error fault =>
      rw [text_of_ok hop, text_of_error hop'] at h
      exact absurd (mnemonic_eq_of_assemblyLine_eq op.blank_notMem_mnemonic hword h) (hnot op)
  | error fault =>
    cases hop' : i'.operation with
    | ok op' =>
      rw [text_of_error hop, text_of_ok hop'] at h
      exact absurd (mnemonic_eq_of_assemblyLine_eq hword op'.blank_notMem_mnemonic h).symm
        (hnot op')
    | error fault' =>
      rw [text_of_error hop, text_of_error hop'] at h
      have hcomma (n : ℕ) : ∀ text ∈ [hexPadded 8 n], ',' ∉ text.toList := by
        rintro _ (_ | ⟨_, ⟨⟩⟩)
        exact comma_notMem_hexPadded 8 n
      have hoperands := operands_eq_of_assemblyLine_eq (hcomma i.encode.toNat)
        (hcomma i'.encode.toNat) rfl h
      have hencode := UInt32.toNat_inj.1 (hexPadded_inj (List.cons.inj hoperands).1)
      rw [← decode_encode i, hencode, decode_encode]

end Instruction

end RegisterMachine
