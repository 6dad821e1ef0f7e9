import Mathlib.Tactic
import Mathlib.Data.List.TakeWhile
import RegisterMachine.Sink

/-!
# Written text is read back

A character takes one byte to four. Its first byte says how many there are, the second leaves out
what has a shorter form, and the numbers in all of them make up the character.

* `Utf8.read_tailBytes`: a whole sequence is read as one character, whatever comes after it.
* `Utf8.read_utf8EncodeChar`: so every character is read back.
* `Utf8.decode_encode`: so is a text.
-/

namespace RegisterMachine

namespace Utf8

/-! ## First and second bytes -/

section
variable {lead second : UInt8}

theorem width_eq_two (h : 0xC2 ≤ lead.toNat) (h' : lead.toNat ≤ 0xDF) : width lead = 2 := by
  simp [width, UInt8.le_iff_toNat_le, h, h']

theorem width_eq_three (h : 0xE0 ≤ lead.toNat) (h' : lead.toNat ≤ 0xEF) : width lead = 3 := by
  have hnot : ¬lead.toNat ≤ 0xDF := by omega
  simp [width, UInt8.le_iff_toNat_le, h, h', hnot]

theorem width_eq_four (h : 0xF0 ≤ lead.toNat) (h' : lead.toNat ≤ 0xF4) : width lead = 4 := by
  have hnot : ¬lead.toNat ≤ 0xDF := by omega
  have hnot' : ¬lead.toNat ≤ 0xEF := by omega
  simp [width, UInt8.le_iff_toNat_le, h, h', hnot, hnot']

theorem isContinuation_iff {byte : UInt8} :
    isContinuation byte = true ↔ 0x80 ≤ byte.toNat ∧ byte.toNat ≤ 0xBF := by
  simp [isContinuation, UInt8.le_iff_toNat_le]

/-- A second byte fits if it continues the sequence and keeps to the narrower bounds of the lead. -/
theorem secondFits_of (h : isContinuation second = true)
    (hE0 : lead.toNat = 0xE0 → 0xA0 ≤ second.toNat) (hED : lead.toNat = 0xED → second.toNat ≤ 0x9F)
    (hF0 : lead.toNat = 0xF0 → 0x90 ≤ second.toNat)
    (hF4 : lead.toNat = 0xF4 → second.toNat ≤ 0x8F) : secondFits lead second = true := by
  obtain ⟨hlow, hhigh⟩ := isContinuation_iff.1 h
  unfold secondFits
  split_ifs with h₀ h₁ h₂ h₃
  · simp [UInt8.le_iff_toNat_le, hE0 (by rw [h₀]; rfl), hhigh]
  · simp [UInt8.le_iff_toNat_le, hED (by rw [h₁]; rfl), hlow]
  · simp [UInt8.le_iff_toNat_le, hF0 (by rw [h₂]; rfl), hhigh]
  · simp [UInt8.le_iff_toNat_le, hF4 (by rw [h₃]; rfl), hlow]
  · exact h

end

/-! ## Sequences -/

/-- The byte after the first that has the low six bits of a number. -/
def tailByte (n : ℕ) : UInt8 :=
  UInt8.ofNat (n % 64 + 128)

theorem toNat_tailByte (n : ℕ) : (tailByte n).toNat = n % 64 + 128 := by
  rw [tailByte, UInt8.toNat_ofNat']
  omega

theorem isContinuation_tailByte (n : ℕ) : isContinuation (tailByte n) = true := by
  rw [isContinuation_iff, toNat_tailByte]
  omega

/-- A whole sequence is read as one character, whatever comes after it. -/
theorem read_tailBytes {lead : UInt8} {n : ℕ} {ns : List ℕ} (hlead : 0x80 ≤ lead.toNat)
    (hw : width lead = ns.length + 2) (hsecond : secondFits lead (tailByte n) = true)
    (rest : List UInt8) :
    read lead ((n :: ns).map tailByte ++ rest) =
      (Char.ofNat ((n :: ns).foldl (fun number n => number * 64 + n % 64)
        (lead.toNat % (128 >>> width lead))), ((n :: ns).map tailByte).length) := by
  have hnot : ¬lead < 0x80 := by
    rw [UInt8.lt_iff_toNat_lt]
    exact Nat.not_lt.2 hlead
  have hmore : ∀ byte ∈ ns.map tailByte, isContinuation byte = true := by
    simp [isContinuation_tailByte]
  have htail : continuation lead ((n :: ns).map tailByte ++ rest) = (n :: ns).map tailByte := by
    have hne : width lead ≠ 0 := by omega
    have htake : (ns.map tailByte ++ rest).take (width lead - 2) = ns.map tailByte := by
      rw [hw, Nat.add_sub_cancel, List.take_left' (List.length_map _)]
    rw [List.map_cons, List.cons_append, continuation, if_pos ⟨hne, hsecond⟩, htake,
      List.takeWhile_eq_self_iff.2 hmore]
  have hlen : ((n :: ns).map tailByte).length + 1 = width lead := by
    rw [hw, List.length_map, List.length_cons]
  have hbits (n : ℕ) : (tailByte n).toNat % 64 = n % 64 := by
    rw [toNat_tailByte]
    omega
  rw [read, if_neg hnot, htail, if_pos hlen]
  simp only [List.foldl_map, hbits]

/-! ## Characters -/

/-- The bytes of a character are read back as the character, whatever comes after them. -/
theorem read_utf8EncodeChar (c : Char) (rest : List UInt8) :
    ∃ lead tail, String.utf8EncodeChar c = lead :: tail ∧
      read lead (tail ++ rest) = (c, tail.length) := by
  have hc : Char.ofNat c.val.toNat = c := Char.ofNat_toNat c
  have hvalid : c.val.toNat < 0xD800 ∨ 0xDFFF < c.val.toNat ∧ c.val.toNat < 0x110000 := c.valid
  rw [String.utf8EncodeChar]
  generalize c.val.toNat = v at hc hvalid
  -- the bounds of the second byte come from the number of bytes and from `hvalid`
  split_ifs with h₁ h₂ h₃
  · have hlead : (UInt8.ofNat v).toNat = v := by rw [UInt8.toNat_ofNat']; omega
    have hlt : UInt8.ofNat v < 0x80 := by
      rw [UInt8.lt_iff_toNat_lt, hlead]
      exact Nat.lt_succ_of_le h₁
    refine ⟨_, [], rfl, ?_⟩
    rw [read, if_pos hlt, hlead, hc, List.length_nil]
  · have hlead : (UInt8.ofNat (v / 64 % 32 + 192)).toNat = v / 64 + 192 := by
      rw [UInt8.toNat_ofNat']; omega
    generalize UInt8.ofNat (v / 64 % 32 + 192) = lead at hlead
    have hw : width lead = 2 := width_eq_two (by omega) (by omega)
    have hsecond : secondFits lead (tailByte v) = true :=
      secondFits_of (isContinuation_tailByte v) (by omega) (by omega) (by omega) (by omega)
    have hv : (v / 64 + 192) % 32 * 64 + v % 64 = v := by omega
    refine ⟨lead, [v].map tailByte, rfl, ?_⟩
    rw [read_tailBytes (by omega) hw hsecond, hw, hlead]
    exact congrArg (·, _) ((congrArg Char.ofNat hv).trans hc)
  · have hlead : (UInt8.ofNat (v / 4096 % 16 + 224)).toNat = v / 4096 + 224 := by
      rw [UInt8.toNat_ofNat']; omega
    generalize UInt8.ofNat (v / 4096 % 16 + 224) = lead at hlead
    have hw : width lead = 3 := width_eq_three (by omega) (by omega)
    have hbyte := toNat_tailByte (v / 64)
    have hsecond : secondFits lead (tailByte (v / 64)) = true :=
      secondFits_of (isContinuation_tailByte _) (by omega) (by omega) (by omega) (by omega)
    have hv : ((v / 4096 + 224) % 16 * 64 + v / 64 % 64) * 64 + v % 64 = v := by omega
    refine ⟨lead, [v / 64, v].map tailByte, rfl, ?_⟩
    rw [read_tailBytes (by omega) hw hsecond, hw, hlead]
    exact congrArg (·, _) ((congrArg Char.ofNat hv).trans hc)
  · have hlead : (UInt8.ofNat (v / 262144 % 8 + 240)).toNat = v / 262144 + 240 := by
      rw [UInt8.toNat_ofNat']; omega
    generalize UInt8.ofNat (v / 262144 % 8 + 240) = lead at hlead
    have hw : width lead = 4 := width_eq_four (by omega) (by omega)
    have hbyte := toNat_tailByte (v / 4096)
    have hsecond : secondFits lead (tailByte (v / 4096)) = true :=
      secondFits_of (isContinuation_tailByte _) (by omega) (by omega) (by omega) (by omega)
    have hv : (((v / 262144 + 240) % 8 * 64 + v / 4096 % 64) * 64 + v / 64 % 64) * 64 + v % 64 =
        v := by omega
    refine ⟨lead, [v / 4096, v / 64, v].map tailByte, rfl, ?_⟩
    rw [read_tailBytes (by omega) hw hsecond, hw, hlead]
    exact congrArg (·, _) ((congrArg Char.ofNat hv).trans hc)

/-! ## Texts -/

theorem decode_append (c : Char) (rest : List UInt8) :
    decode (String.utf8EncodeChar c ++ rest) = c :: decode rest := by
  obtain ⟨lead, tail, hbytes, hread⟩ := read_utf8EncodeChar c rest
  rw [hbytes, List.cons_append, decode, hread, List.drop_left]

/-- A text is read back from its bytes. -/
theorem decode_encode (text : List Char) : decode (encode text) = text := by
  induction text with
  | nil => rw [encode, List.flatMap_nil, decode]
  | cons c text ih => rw [encode, List.flatMap_cons, decode_append, ← encode, ih]

theorem encode_append (text text' : List Char) :
    encode (text ++ text') = encode text ++ encode text' :=
  List.flatMap_append

end Utf8

end RegisterMachine
