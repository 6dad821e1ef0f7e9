import RegisterMachine.RegisterFile
import RegisterMachine.Proofs.Exec
import RegisterMachine.Proofs.Word

/-!
# Registers that stay sound

* `Profile.Writable`: the machine can write the registers that it uses.
* `RegisterFile.Sound`: the constants are in place and no other register has a word too large.
* `RegisterFile.sound_powerOn`, `RegisterFile.Sound.put`: a register file is sound from the start
  and stays so.
-/

namespace RegisterMachine

theorem eq_zero_or_one {r : UInt8} (h : r ≤ 1) : r = 0 ∨ r = 1 := by
  rw [UInt8.le_iff_toNat_le, UInt8.toNat_one] at h
  rw [← UInt8.toNat_inj, ← UInt8.toNat_inj, UInt8.toNat_zero, UInt8.toNat_one]
  omega

theorem one_lt_of_ne {r : UInt8} (h₀ : r ≠ 0) (h₁ : r ≠ 1) : 1 < r := by
  rw [UInt8.lt_iff_toNat_lt]
  have h₀ := mt UInt8.toNat_inj.1 h₀
  have h₁ := mt UInt8.toNat_inj.1 h₁
  simp only [UInt8.toNat_zero, UInt8.toNat_one] at h₀ h₁ ⊢
  omega

namespace Profile
variable {profile : Profile}

/-- None of the registers that the machine uses is one of the constants. -/
structure Writable (profile : Profile) : Prop where
  instructionPointer : 1 < profile.registers.instructionPointer
  stackPointer : 1 < profile.registers.stackPointer
  predicate : 1 < profile.registers.predicate
  callPointer : 1 < profile.registers.callPointer

namespace WellFormed
variable (h : profile.WellFormed)
include h

theorem writable : profile.Writable := by
  simp only [WellFormed, SpecialRegisters.reserved, List.nodup_cons, List.mem_cons, not_or] at h
  constructor <;> refine one_lt_of_ne (Ne.symm ?_) (Ne.symm ?_) <;> tauto

theorem stackPointer_ne_instructionPointer :
    profile.registers.stackPointer ≠ profile.registers.instructionPointer := by
  simp only [WellFormed, SpecialRegisters.reserved, List.nodup_cons, List.mem_cons, not_or] at h
  exact Ne.symm h.2.2.1.1

theorem predicate_ne_instructionPointer :
    profile.registers.predicate ≠ profile.registers.instructionPointer := by
  simp only [WellFormed, SpecialRegisters.reserved, List.nodup_cons, List.mem_cons, not_or] at h
  exact Ne.symm h.2.2.1.2.1

theorem callPointer_ne_instructionPointer :
    profile.registers.callPointer ≠ profile.registers.instructionPointer := by
  simp only [WellFormed, SpecialRegisters.reserved, List.nodup_cons, List.mem_cons, not_or] at h
  exact Ne.symm h.2.2.1.2.2.1

theorem callPointer_ne_stackPointer :
    profile.registers.callPointer ≠ profile.registers.stackPointer := by
  simp only [WellFormed, SpecialRegisters.reserved, List.nodup_cons, List.mem_cons, not_or] at h
  exact Ne.symm h.2.2.2.1.2.1

theorem callPointer_ne_predicate :
    profile.registers.callPointer ≠ profile.registers.predicate := by
  simp only [WellFormed, SpecialRegisters.reserved, List.nodup_cons, List.mem_cons, not_or] at h
  exact Ne.symm h.2.2.2.2.1.1

end WellFormed

end Profile

namespace RegisterFile
variable {file : RegisterFile} {profile : Profile} {r : UInt8}

/-! ## Putting and getting -/

theorem get_put (file : RegisterFile) (r q : UInt8) (value : Word) :
    (file.put r value).get q = if q = r then value else file.get q := by
  split_ifs with h
  · rw [h, get_put_self]
  · exact get_put_of_ne _ h _

@[simp] theorem put_put_self (file : RegisterFile) (r : UInt8) (v w : Word) :
    (file.put r v).put r w = file.put r w := by
  simp [put]

@[simp] theorem put_get (file : RegisterFile) (r : UInt8) : file.put r (file.get r) = file := by
  simp [put, get]

theorem gives_set (hr : 1 < r) (value : Word) :
    Exec.Gives file (set r value) (.ok ()) (file.put r (value &&& file.mask)) := by
  rw [set, if_neg (UInt8.not_le.2 hr)]
  exact Exec.gives_modify file _

theorem gives_set_protected (hr : r ≤ 1) (value : Word) :
    Exec.Gives file (set r value) (.error (.writeProtected r)) file := by
  rw [set, if_pos hr]
  exact Exec.gives_throw file _

/-! ## Soundness -/

/-- The constants are in place, and every other register has a word of the profile. -/
structure Sound (file : RegisterFile) (profile : Profile) : Prop where
  mask_eq : file.mask = profile.wordMask
  zero : file.get 0 = 0
  one : file.get 1 = 1
  le_wordMask : ∀ r, 1 < r → file.get r ≤ profile.wordMask

theorem Sound.put (h : file.Sound profile) (hr : 1 < r) {value : Word}
    (hv : value ≤ profile.wordMask) : (file.put r value).Sound profile where
  mask_eq := h.mask_eq
  zero := by rw [get_put, if_neg (by rintro rfl; simp at hr), h.zero]
  one := by rw [get_put, if_neg (by rintro rfl; simp at hr), h.one]
  le_wordMask q hq := by
    rw [get_put]
    split_ifs
    exacts [hv, h.le_wordMask q hq]

/-- What is written is cut down to the word width. -/
theorem Sound.and_mask (h : file.Sound profile) (value : Word) :
    value &&& file.mask = profile.mask value := by
  rw [h.mask_eq]; rfl

theorem Sound.mask_get (h : file.Sound profile) (hr : 1 < r) :
    profile.mask (file.get r) = file.get r :=
  Profile.mask_of_le (h.le_wordMask r hr)

/-- A word that has a bit has room for the constants as well. -/
theorem Sound.get_le (h : file.Sound profile) (hpos : 1 ≤ profile.wordBits) (r : UInt8) :
    file.get r ≤ profile.wordMask := by
  by_cases hr : 1 < r
  · exact h.le_wordMask r hr
  · rcases eq_zero_or_one (UInt8.not_lt.1 hr) with rfl | rfl
    · rw [h.zero]
      exact UInt64.zero_le
    · rw [h.one]
      exact Profile.one_le_wordMask hpos

theorem sound_powerOn (h : profile.Writable) : (powerOn profile).Sound profile := by
  have hcleared : (cleared profile).Sound profile := by
    refine ⟨rfl, ?_, get_put_self _ _ _, fun r hr => ?_⟩
    · rw [cleared, get_put_of_ne _ (by decide)]; simp [get]
    · rw [cleared, get_put_of_ne _ (by rintro rfl; simp at hr)]; simp [get]
  exact (hcleared.put h.stackPointer (UInt64.le_refl _)).put h.callPointer (UInt64.le_refl _)

end RegisterFile

end RegisterMachine
