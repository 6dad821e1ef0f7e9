import Mathlib.Tactic
import Mathlib.Data.List.TakeWhile
import RegisterMachine.Instruction.Disassembly

/-!
# Texts that can be read back

* `ofHexDigits?_hexPadded`: hexadecimal digits are read back as the number that they write.
* `intercalate_inj`: what is joined can be told apart, if the separator starts with a character that
  does not occur in it.
* `Instruction.mnemonic_eq_of_assemblyLine_eq`, `Instruction.operands_eq_of_assemblyLine_eq`: a
  mnemonic and its operands can be told from their line.
-/

namespace RegisterMachine

/-! ## Numbers -/

theorem hexDigit?_digitChar {digit : ℕ} (h : digit < 16) :
    hexDigit? (Nat.digitChar digit) = some digit := by
  interval_cases digit <;> rfl

theorem ofHexDigits?_append {digits digits' : List Char} {n : ℕ}
    (h : ofHexDigits? digits = some n) :
    ofHexDigits? (digits ++ digits') =
      digits'.foldlM (fun number c => (hexDigit? c).map (number * 16 + ·)) n := by
  rw [ofHexDigits?, List.foldlM_append]
  rw [ofHexDigits?] at h
  rw [h]
  rfl

theorem ofHexDigits?_toDigits (n : ℕ) : ofHexDigits? (Nat.toDigits 16 n) = some n := by
  induction n using Nat.strongRecOn with
  | ind n ih =>
    rw [Nat.toDigits_eq_if (by decide)]
    split_ifs with h
    · rw [ofHexDigits?, List.foldlM_cons, hexDigit?_digitChar h]
      simp
    · have hdigit := hexDigit?_digitChar (Nat.mod_lt n (by decide : 0 < 16))
      rw [ofHexDigits?_append (ih (n / 16) (by omega)), List.foldlM_cons, hdigit]
      simp [Nat.div_add_mod']

theorem ofHexDigits?_replicate (count : ℕ) : ofHexDigits? (List.replicate count '0') = some 0 := by
  induction count with
  | zero => rfl
  | succ count ih =>
    rw [List.replicate_succ', ofHexDigits?_append ih]
    rfl

/-- The digits after the mark are read back as the number. -/
theorem ofHexDigits?_hexPadded (count n : ℕ) :
    ofHexDigits? ((hexPadded count n).toList.drop 2) = some n := by
  have hdigits : (hexPadded count n).toList.drop 2 =
      List.replicate (count - (Nat.toDigits 16 n).length) '0' ++ Nat.toDigits 16 n := by
    simp [hexPadded]
  rw [hdigits, ofHexDigits?_append (ofHexDigits?_replicate _)]
  exact ofHexDigits?_toDigits n

theorem hexPadded_inj {count n n' : ℕ} (h : hexPadded count n = hexPadded count n') : n = n' := by
  have hread := ofHexDigits?_hexPadded count n
  rw [h, ofHexDigits?_hexPadded count n'] at hread
  exact (Option.some.inj hread).symm

theorem exists_digit_of_mem {base n : ℕ} (hb : 1 < base) {c : Char} (h : c ∈ Nat.toDigits base n) :
    ∃ digit, c = Nat.digitChar digit := by
  induction n using Nat.strongRecOn with
  | ind n ih =>
    rw [Nat.toDigits_eq_if hb] at h
    split_ifs at h with hn
    · exact ⟨n, List.mem_singleton.1 h⟩
    · rcases List.mem_append.1 h with h | h
      · exact ih (n / base) (Nat.div_lt_self (by omega) hb) h
      · exact ⟨n % base, List.mem_singleton.1 h⟩

theorem comma_notMem_toDigits {base n : ℕ} (hb : 1 < base) : ',' ∉ Nat.toDigits base n := by
  intro h
  obtain ⟨digit, hd⟩ := exists_digit_of_mem hb h
  exact Nat.digitChar_ne ',' rfl hd.symm

theorem comma_notMem_hexPadded (count n : ℕ) : ',' ∉ (hexPadded count n).toList := by
  have hdigits := comma_notMem_toDigits (n := n) (by decide : 1 < 16)
  simp [hexPadded, hdigits]

/-! ## Lines -/

/-- The first of two parts ends where the mark between them is. -/
theorem eq_of_append_cons {α : Type} {x : α} {l l' t t' : List α} (hl : x ∉ l) (hl' : x ∉ l')
    (h : l ++ x :: t = l' ++ x :: t') : l = l' ∧ t = t' := by
  induction l generalizing l' with
  | nil =>
    cases l' with
    | nil => exact ⟨rfl, (List.cons.inj h).2⟩
    | cons a l' => exact absurd ((List.cons.inj h).1 ▸ List.mem_cons_self) hl'
  | cons a l ih =>
    cases l' with
    | nil => exact absurd ((List.cons.inj h).1 ▸ List.mem_cons_self) hl
    | cons a' l' =>
      obtain ⟨rfl, htail⟩ := List.cons.inj h
      obtain ⟨rfl, ht⟩ := ih (List.not_mem_of_not_mem_cons hl)
        (List.not_mem_of_not_mem_cons hl') htail
      exact ⟨rfl, ht⟩

theorem intercalate_inj : ∀ {texts texts' : List String}, (∀ text ∈ texts, ',' ∉ text.toList) →
    (∀ text ∈ texts', ',' ∉ text.toList) → texts.length = texts'.length →
    ", ".intercalate texts = ", ".intercalate texts' → texts = texts'
  | [], [], _, _, _, _ => rfl
  | [text], [text'], _, _, _, h => by
    rw [String.intercalate_singleton, String.intercalate_singleton] at h
    rw [h]
  | text :: next :: rest, text' :: next' :: rest', hc, hc', hlen, h => by
    rw [String.intercalate_cons_cons, String.intercalate_cons_cons, ← String.toList_inj] at h
    simp only [String.toList_append, List.append_assoc] at h
    -- the separator starts with the first comma of the line
    obtain ⟨htext, hrest⟩ := eq_of_append_cons (hc text List.mem_cons_self)
      (hc' text' List.mem_cons_self) h
    have htail : next :: rest = next' :: rest' :=
      intercalate_inj (fun t ht => hc t (List.mem_cons_of_mem _ ht))
        (fun t ht => hc' t (List.mem_cons_of_mem _ ht)) (Nat.succ.inj hlen)
        (String.toList_inj.1 (List.cons.inj hrest).2)
    rw [String.toList_inj.1 htext, htail]

namespace Instruction

theorem registerName_eq (r : UInt8) :
    (registerName r).toList = 'r' :: Nat.toDigits 10 r.toNat := by
  have hname : registerName r = "r" ++ Nat.repr r.toNat := rfl
  rw [hname, String.toList_append, Nat.toList_repr]
  rfl

theorem registerName_inj {r r' : UInt8} (h : registerName r = registerName r') : r = r' := by
  rw [← String.toList_inj, registerName_eq, registerName_eq] at h
  have hread := congrArg (Nat.ofDigitChars 10 · 0) (List.cons.inj h).2
  simp only [Nat.ofDigitChars_ten_toDigits] at hread
  exact UInt8.toNat_inj.1 hread

theorem comma_notMem_registerName (r : UInt8) : ',' ∉ (registerName r).toList := by
  rw [registerName_eq, List.mem_cons, not_or]
  exact ⟨by decide, comma_notMem_toDigits (by decide)⟩

variable {mnemonic mnemonic' : String} {operands operands' : List String}

/-- A line begins with its mnemonic, up to the first blank. -/
theorem takeWhile_assemblyLine (hm : ' ' ∉ mnemonic.toList) (operands : List String) :
    (assemblyLine mnemonic operands).toList.takeWhile (· != ' ') = mnemonic.toList := by
  have hall : ∀ c ∈ mnemonic.toList, (c != ' ') = true := by
    intro c hc
    rw [bne_iff_ne]
    rintro rfl
    exact hm hc
  rw [assemblyLine]
  split_ifs
  · exact List.takeWhile_eq_self_iff.2 hall
  · rw [String.toList_append, String.toList_append, List.append_assoc,
      List.takeWhile_append_of_pos hall]
    simp

theorem mnemonic_eq_of_assemblyLine_eq (hm : ' ' ∉ mnemonic.toList) (hm' : ' ' ∉ mnemonic'.toList)
    (h : assemblyLine mnemonic operands = assemblyLine mnemonic' operands') :
    mnemonic = mnemonic' := by
  rw [← String.toList_inj, ← takeWhile_assemblyLine hm operands, h,
    takeWhile_assemblyLine hm' operands']

theorem operands_eq_of_assemblyLine_eq (hc : ∀ text ∈ operands, ',' ∉ text.toList)
    (hc' : ∀ text ∈ operands', ',' ∉ text.toList) (hlen : operands.length = operands'.length)
    (h : assemblyLine mnemonic operands = assemblyLine mnemonic operands') :
    operands = operands' := by
  cases operands with
  | nil => exact (List.length_eq_zero_iff.1 hlen.symm).symm
  | cons text rest =>
    cases operands' with
    | nil => cases hlen
    | cons text' rest' =>
      refine intercalate_inj hc hc' hlen ?_
      rw [assemblyLine, assemblyLine, List.isEmpty_cons, List.isEmpty_cons,
        if_neg Bool.false_ne_true, if_neg Bool.false_ne_true, ← String.toList_inj] at h
      simp only [String.toList_append] at h
      exact String.toList_inj.1 (List.append_cancel_left h)

end Instruction

end RegisterMachine
