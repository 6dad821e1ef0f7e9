import RegisterMachine.Proofs.Core.Actions

/-!
# Arithmetic is exact in the word width

Operations compute in 64 bits, and the result is cut down where it is written. What gets there is
nevertheless what the operation is in arithmetic on numbers: sums, differences, products and shifts
towards the high bits are the residue of the true result, because cutting down twice is the same as
once; the other operations do not leave the range of their operands, which are cut down already.

* `residue`, `ArithmeticOp.exact`: the true results.
* `Profile.toNat_mask_of_modEq`, `Profile.toNat_mask_of_lt`: what cutting down makes of a word.
* `ArithmeticOp.exists_eval`: an operation computes its true result, unless it divides by zero.
* `Core.arithmetic_exact`: what this says of an instruction.
-/

namespace RegisterMachine

/-- A number modulo a power of two. -/
def residue (width : ℕ) (n : ℤ) : ℕ :=
  (n % 2 ^ width).toNat

namespace ArithmeticOp

/-- Whether an operation divides by its second operand. -/
def divides : ArithmeticOp → Bool
  | div | rem | divImmediate | remImmediate => true
  | _ => false

/-- Whether an operation shifts its first operand. -/
def shifts : ArithmeticOp → Bool
  | shiftLeft | shiftRight | shiftLeftImmediate | shiftRightImmediate => true
  | _ => false

/-- The result of an operation on two numbers of `width` bits, in arithmetic on numbers. -/
def exact (width a b : ℕ) : ArithmeticOp → ℕ
  | add | addImmediate => residue width (a + b)
  | sub | subImmediate => residue width (a - b)
  | mul | mulImmediate => residue width (a * b)
  | div | divImmediate => a / b
  | rem | remImmediate => a % b
  | shiftLeft | shiftLeftImmediate => residue width (a * 2 ^ b)
  | shiftRight | shiftRightImmediate => a / 2 ^ b
  | binaryAnd => a &&& b
  | binaryOr => a ||| b
  | binaryNot => 2 ^ width - 1 - a
  | binaryXor => a ^^^ b
  | increment => residue width (a + 1)
  | decrement => residue width (a - 1)
  | double => residue width (2 * a)
  | halve => a / 2

/-- Nothing is left of a number that is shifted by its width or more. -/
theorem exact_of_shifts {op : ArithmeticOp} (hop : op.shifts = true) {width a b : ℕ}
    (ha : a < 2 ^ width) (hb : width ≤ b) : op.exact width a b = 0 := by
  have hup : residue width (a * 2 ^ b) = 0 := by
    rw [residue, Int.emod_eq_zero_of_dvd (Dvd.dvd.mul_left (pow_dvd_pow 2 hb) _), Int.toNat_zero]
  have hdown : a / 2 ^ b = 0 :=
    Nat.div_eq_of_lt (ha.trans_le (Nat.pow_le_pow_right (by omega) hb))
  cases op
  case shiftLeft | shiftLeftImmediate => exact hup
  case shiftRight | shiftRightImmediate => exact hdown
  all_goals cases hop

end ArithmeticOp

/-! ## Cutting down -/

namespace Profile
variable {profile : Profile} (hle : profile.wordBits ≤ 64)
include hle

theorem toNat_mask_eq_mod (v : Word) : (profile.mask v).toNat = v.toNat % 2 ^ profile.wordBits := by
  rw [mask, wordMask, toNat_and_wordMask, Nat.min_eq_left hle]

theorem lt_of_le_wordMask {v : Word} (h : v ≤ profile.wordMask) :
    v.toNat < 2 ^ profile.wordBits := by
  have hpos := Nat.two_pow_pos profile.wordBits
  rw [UInt64.le_iff_toNat_le, wordMask, toNat_wordMask, Nat.min_eq_left hle] at h
  omega

/-- A word that is right modulo 64 bits is right modulo the word width once it is cut down. -/
theorem toNat_mask_of_modEq {v : Word} {n : ℤ} (h : (v.toNat : ℤ) ≡ n [ZMOD 2 ^ 64]) :
    (profile.mask v).toNat = residue profile.wordBits n := by
  have hmod : (v.toNat : ℤ) ≡ n [ZMOD 2 ^ profile.wordBits] := h.of_dvd (pow_dvd_pow 2 hle)
  rw [toNat_mask_eq_mod hle, residue, ← hmod.eq, ← Int.toNat_natCast (v.toNat % _)]
  norm_cast

/-- A word that fits the word width stays as it is. -/
theorem toNat_mask_of_lt {v : Word} {n : ℕ} (h : v.toNat = n) (hn : n < 2 ^ profile.wordBits) :
    (profile.mask v).toNat = n := by
  rw [toNat_mask_eq_mod hle, h, Nat.mod_eq_of_lt hn]

end Profile

/-! ## Operations on words -/

section
variable (a b : Word)

theorem toNat_add_modEq : ((a + b).toNat : ℤ) ≡ a.toNat + b.toNat [ZMOD 2 ^ 64] := by
  rw [UInt64.toNat_add]
  exact_mod_cast Nat.mod_modEq _ _

theorem toNat_mul_modEq : ((a * b).toNat : ℤ) ≡ a.toNat * b.toNat [ZMOD 2 ^ 64] := by
  rw [UInt64.toNat_mul]
  exact_mod_cast Nat.mod_modEq _ _

theorem toNat_sub_modEq : ((a - b).toNat : ℤ) ≡ a.toNat - b.toNat [ZMOD 2 ^ 64] := by
  have hsum := toNat_add_modEq (a - b) b
  rw [UInt64.sub_add_cancel] at hsum
  simpa using (hsum.sub_right (b.toNat : ℤ)).symm

theorem toNat_not_modEq : ((~~~a).toNat : ℤ) ≡ -1 - a.toNat [ZMOD 2 ^ 64] := by
  have hsum : (~~~a).toNat + a.toNat = 2 ^ 64 - 1 := by
    have hlt := a.toNat_lt
    rw [UInt64.toNat_not, UInt64.size]
    omega
  have hall : ((2 ^ 64 - 1 : ℕ) : ℤ) ≡ -1 [ZMOD 2 ^ 64] := by decide
  have hall := hall.sub_right (a.toNat : ℤ)
  rw [← hsum] at hall
  simpa using hall

/-- Words have no bits left to shift into from 64 on. -/
theorem toNat_shiftUp_modEq :
    ((ArithmeticOp.shiftUp a b).toNat : ℤ) ≡ a.toNat * 2 ^ b.toNat [ZMOD 2 ^ 64] := by
  rw [ArithmeticOp.shiftUp]
  split_ifs with hb
  · have hb : b.toNat < 64 := UInt64.lt_iff_toNat_lt.1 hb
    rw [UInt64.toNat_shiftLeft, Nat.mod_eq_of_lt hb, Nat.shiftLeft_eq]
    exact_mod_cast Nat.mod_modEq _ _
  · have hb : 64 ≤ b.toNat := UInt64.le_iff_toNat_le.1 (UInt64.not_lt.1 hb)
    have hdvd : (2 : ℤ) ^ 64 ∣ a.toNat * 2 ^ b.toNat := Dvd.dvd.mul_left (pow_dvd_pow 2 hb) _
    exact (Int.modEq_zero_iff_dvd.2 hdvd).symm

theorem toNat_shiftDown : (ArithmeticOp.shiftDown a b).toNat = a.toNat / 2 ^ b.toNat := by
  rw [ArithmeticOp.shiftDown]
  split_ifs with hb
  · have hb : b.toNat < 64 := UInt64.lt_iff_toNat_lt.1 hb
    rw [UInt64.toNat_shiftRight, Nat.mod_eq_of_lt hb, Nat.shiftRight_eq_div_pow]
  · have hb : 64 ≤ b.toNat := UInt64.le_iff_toNat_le.1 (UInt64.not_lt.1 hb)
    have hlt : a.toNat < 2 ^ b.toNat :=
      a.toNat_lt.trans_le (Nat.pow_le_pow_right (by omega) hb)
    rw [Nat.div_eq_of_lt hlt]
    rfl

end

theorem residue_neg_one_sub {width a : ℕ} (ha : a < 2 ^ width) :
    residue width (-1 - a) = 2 ^ width - 1 - a := by
  have hmod : (-1 - a : ℤ) ≡ (2 ^ width - 1 - a : ℕ) [ZMOD 2 ^ width] := by
    rw [Int.modEq_iff_dvd]
    refine ⟨1, ?_⟩
    push_cast [Nat.cast_sub (show 1 ≤ 2 ^ width by omega),
      Nat.cast_sub (show a ≤ 2 ^ width - 1 by omega)]
    ring
  rw [residue, hmod.eq]
  have hlt : 2 ^ width - 1 - a < 2 ^ width := by omega
  exact_mod_cast congrArg Int.toNat (congrArg Nat.cast (Nat.mod_eq_of_lt hlt))

namespace ArithmeticOp
variable {profile : Profile} {a b : Word}

theorem eval_of_divides {op : ArithmeticOp} (hop : op.divides = true) (hb : b = 0) :
    op.eval a b = .error .divideByZero := by
  cases op
  case div | divImmediate | rem | remImmediate => exact if_pos hb
  all_goals cases hop

variable (hle : profile.wordBits ≤ 64)
include hle

/-- An operation computes its true result, once that is cut down, unless it divides by zero. -/
theorem exists_eval (op : ArithmeticOp) (ha : a ≤ profile.wordMask) (hb : b ≤ profile.wordMask)
    (hd : ¬(op.divides = true ∧ b = 0)) :
    ∃ value, op.eval a b = .ok value ∧
      (profile.mask value).toNat = op.exact profile.wordBits a.toNat b.toNat := by
  have ha := Profile.lt_of_le_wordMask hle ha
  have hb := Profile.lt_of_le_wordMask hle hb
  have hmod {value : Word} {n : ℤ} (h : (value.toNat : ℤ) ≡ n [ZMOD 2 ^ 64]) :=
    Profile.toNat_mask_of_modEq hle h
  have hfit {value : Word} {n : ℕ} (h : value.toNat = n) (hn : n ≤ a.toNat) :=
    Profile.toNat_mask_of_lt hle h (hn.trans_lt ha)
  cases op
  case add | addImmediate => exact ⟨_, rfl, hmod (toNat_add_modEq a b)⟩
  case sub | subImmediate => exact ⟨_, rfl, hmod (toNat_sub_modEq a b)⟩
  case mul | mulImmediate => exact ⟨_, rfl, hmod (toNat_mul_modEq a b)⟩
  case div | divImmediate =>
    have hne : b ≠ 0 := fun h => hd ⟨rfl, h⟩
    exact ⟨_, if_neg hne, hfit (UInt64.toNat_div a b) (Nat.div_le_self _ _)⟩
  case rem | remImmediate =>
    have hne : b ≠ 0 := fun h => hd ⟨rfl, h⟩
    exact ⟨_, if_neg hne, hfit (UInt64.toNat_mod a b) (Nat.mod_le _ _)⟩
  case shiftLeft | shiftLeftImmediate => exact ⟨_, rfl, hmod (toNat_shiftUp_modEq a b)⟩
  case shiftRight | shiftRightImmediate =>
    exact ⟨_, rfl, hfit (toNat_shiftDown a b) (Nat.div_le_self _ _)⟩
  case binaryAnd => exact ⟨_, rfl, hfit (UInt64.toNat_and a b) Nat.and_le_left⟩
  case binaryOr =>
    exact ⟨_, rfl, Profile.toNat_mask_of_lt hle (UInt64.toNat_or a b) (Nat.or_lt_two_pow ha hb)⟩
  case binaryXor =>
    exact ⟨_, rfl, Profile.toNat_mask_of_lt hle (UInt64.toNat_xor a b) (Nat.xor_lt_two_pow ha hb)⟩
  case binaryNot => exact ⟨_, rfl, (hmod (toNat_not_modEq a)).trans (residue_neg_one_sub ha)⟩
  case increment => exact ⟨_, rfl, hmod (toNat_add_modEq a 1)⟩
  case decrement => exact ⟨_, rfl, hmod (toNat_sub_modEq a 1)⟩
  case double => exact ⟨_, rfl, hmod (mul_comm (a.toNat : ℤ) 2 ▸ toNat_mul_modEq a 2)⟩
  case halve => exact ⟨_, rfl, hfit (UInt64.toNat_shiftRight a 1) (Nat.div_le_self _ _)⟩

end ArithmeticOp

/-! ## Instructions -/

namespace Core

open Exec

variable {δ : Type} {core : Core δ} {i : Instruction} {op : ArithmeticOp}

/-- What an arithmetic instruction works on first: the immediate forms work on their
destination. -/
def leftOperand (core : Core δ) (i : Instruction) : ArithmeticOp → Word
  | .addImmediate | .subImmediate | .mulImmediate | .divImmediate | .remImmediate |
    .shiftLeftImmediate | .shiftRightImmediate => core.register i.dest
  | _ => core.register i.src0

/-- What it works on second. -/
def rightOperand (core : Core δ) (i : Instruction) : ArithmeticOp → Word
  | .addImmediate | .subImmediate | .mulImmediate | .divImmediate | .remImmediate |
    .shiftLeftImmediate | .shiftRightImmediate => i.immediate.toUInt64
  | _ => core.register i.src1

theorem computed_eq (core : Core δ) (op : ArithmeticOp) (i : Instruction) :
    core.computed op i = op.eval (core.leftOperand i op) (core.rightOperand i op) := by
  cases op <;> rfl

section
variable (hregisters : ∀ r, core.register r ≤ core.profile.wordMask)
include hregisters

theorem leftOperand_le (i : Instruction) (op : ArithmeticOp) :
    core.leftOperand i op ≤ core.profile.wordMask := by
  cases op <;> exact hregisters _

/-- An immediate fits a machine with words of 16 bits. -/
theorem rightOperand_le (hmin : 16 ≤ core.profile.wordBits) (i : Instruction) (op : ArithmeticOp) :
    core.rightOperand i op ≤ core.profile.wordMask := by
  have himmediate : i.immediate.toUInt64 ≤ core.profile.wordMask := by
    have hlt := i.immediate.toNat_lt
    have hpow : 2 ^ 16 ≤ 2 ^ min core.profile.wordBits 64 :=
      Nat.pow_le_pow_right (by omega) (by omega)
    rw [UInt64.le_iff_toNat_le, Profile.wordMask, toNat_wordMask, UInt16.toNat_toUInt64]
    omega
  cases op <;> first | exact himmediate | exact hregisters _

end

section
variable [Device δ] {calls : SystemCallTable δ} (hi : i.operation = .ok (.arithmetic op))
include hi

theorem ensures_arithmetic {Q : Except Fault Unit → Core δ → Prop}
    (hx : Ensures core (liftM (core.computed op i) >>= setRegister i.dest) Q) :
    Ensures core (execute calls i) Q := by
  rw [execute_eq hi]
  dsimp only
  rw [executeArithmetic_eq]
  exact (gives_get core).bind hx

theorem gives_arithmetic_error {fault : Fault} (h : core.computed op i = .error fault) :
    Gives core (execute calls i) (.error fault) core :=
  ensures_arithmetic hi ((gives_lift_of core h).bind_error ⟨rfl, rfl⟩)

theorem gives_arithmetic_protected {value : Word} (h : core.computed op i = .ok value)
    (hr : i.dest ≤ 1) : Gives core (execute calls i) (.error (.writeProtected i.dest)) core :=
  ensures_arithmetic hi ((gives_lift_of core h).bind (gives_setRegister_protected hr value))

theorem gives_arithmetic {value : Word} (h : core.computed op i = .ok value)
    (hmask : core.registers.mask = core.profile.wordMask) (hr : 1 < i.dest) :
    Gives core (execute calls i) (.ok ()) (core.put i.dest (core.profile.mask value)) :=
  ensures_arithmetic hi ((gives_lift_of core h).bind (gives_setRegister hmask hr value))

end

/-- **Arithmetic is exact in the word width.** An instruction that divides by zero faults, any other
    that writes a constant faults, and neither changes anything; otherwise the destination has the
    true result and nothing else has changed. -/
theorem arithmetic_exact [Device δ] (calls : SystemCallTable δ)
    (hi : i.operation = .ok (.arithmetic op))
    (hmask : core.registers.mask = core.profile.wordMask)
    (hregisters : ∀ r, core.register r ≤ core.profile.wordMask)
    (hmin : 16 ≤ core.profile.wordBits) (hmax : core.profile.wordBits ≤ 64) :
    let width := core.profile.wordBits
    let a := (core.leftOperand i op).toNat
    let b := (core.rightOperand i op).toNat
    (if op.divides = true ∧ b = 0 then Gives core (execute calls i) (.error .divideByZero) core
      else if i.dest ≤ 1 then Gives core (execute calls i) (.error (.writeProtected i.dest)) core
      else ∃ word : Word, word.toNat = op.exact width a b ∧
        Gives core (execute calls i) (.ok ()) (core.put i.dest word)) ∧
    (op.shifts = true → width ≤ b → op.exact width a b = 0) ∧
    (0 < b → ArithmeticOp.div.exact width a b * b + ArithmeticOp.rem.exact width a b = a ∧
      ArithmeticOp.rem.exact width a b < b) := by
  intro width a b
  have ha : core.leftOperand i op ≤ core.profile.wordMask := leftOperand_le hregisters i op
  have hb : core.rightOperand i op ≤ core.profile.wordMask := rightOperand_le hregisters hmin i op
  have hzero : b = 0 ↔ core.rightOperand i op = 0 := UInt64.toNat_inj (b := 0)
  refine ⟨?_, fun hop => ArithmeticOp.exact_of_shifts hop (Profile.lt_of_le_wordMask hmax ha),
    fun hpos => ⟨Nat.div_add_mod' a b, Nat.mod_lt a hpos⟩⟩
  split_ifs with hd hr
  · exact gives_arithmetic_error hi ((computed_eq core op i).trans
      (ArithmeticOp.eval_of_divides hd.1 (hzero.1 hd.2)))
  · obtain ⟨value, hv, -⟩ := ArithmeticOp.exists_eval hmax op ha hb (by rwa [← hzero])
    exact gives_arithmetic_protected hi ((computed_eq core op i).trans hv) hr
  · obtain ⟨value, hv, hexact⟩ := ArithmeticOp.exists_eval hmax op ha hb (by rwa [← hzero])
    refine ⟨_, hexact, ?_⟩
    exact gives_arithmetic hi ((computed_eq core op i).trans hv) hmask (UInt8.not_le.1 hr)

/-- A core with a one in the highest bit of a register, and a small number in another. -/
def carrying : Core Empty :=
  ((powerOn .small .empty default).put 8 0x8001).put 9 17

/-- The bytes of the immediate here name registers other than the destination. -/
theorem arithmetic_exact_carrying :
    (∃ word : Word, word.toNat = 0x8010 ∧
      Gives carrying (execute .standard (Instruction.arithmetic .sub 10 9 8)) (.ok ())
        (carrying.put 10 word)) ∧
    (∃ word : Word, word.toNat = 0x75f8 ∧
      Gives carrying (execute .standard (Instruction.arithmeticImmediate .subImmediate 8 0x0a09))
        (.ok ()) (carrying.put 8 word)) ∧
    (∃ word : Word, word.toNat = 0 ∧
      Gives carrying (execute .standard (Instruction.arithmetic .shiftLeft 10 8 9)) (.ok ())
        (carrying.put 10 word)) ∧
    Gives carrying (execute .standard (Instruction.arithmetic .div 1 8 0)) (.error .divideByZero)
      carrying ∧
    Gives carrying (execute .standard (Instruction.arithmetic .binaryNot 1 8 0))
      (.error (.writeProtected 1)) carrying := by
  have hw : Profile.small.Writable := ⟨by decide, by decide, by decide, by decide⟩
  have hs : carrying.Sound :=
    ((RegisterFile.sound_powerOn hw).put (by decide) (by decide)).put (by decide) (by decide)
  have hregisters (r : UInt8) : carrying.register r ≤ carrying.profile.wordMask :=
    hs.get_le (by decide) r
  have hexact {op : ArithmeticOp} {i : Instruction} (hi : i.operation = .ok (.arithmetic op)) :=
    (arithmetic_exact .standard hi hs.mask_eq hregisters (by decide) (by decide)).1
  have hsub := hexact (i := Instruction.arithmetic .sub 10 9 8) rfl
  have himmediate := hexact (i := Instruction.arithmeticImmediate .subImmediate 8 0x0a09) rfl
  have hshift := hexact (i := Instruction.arithmetic .shiftLeft 10 8 9) rfl
  have hdiv := hexact (i := Instruction.arithmetic .div 1 8 0) rfl
  have hnot := hexact (i := Instruction.arithmetic .binaryNot 1 8 0) rfl
  rw [if_neg (by decide), if_neg (by decide)] at hsub himmediate hshift
  rw [if_pos (by decide +kernel)] at hdiv
  rw [if_neg (by decide), if_pos (by decide)] at hnot
  exact ⟨hsub, himmediate, hshift, hdiv, hnot⟩

end Core

end RegisterMachine
