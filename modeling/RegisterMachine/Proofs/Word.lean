import Mathlib.Tactic
import RegisterMachine.Profile

/-!
# Masks as remainders

Cutting a value down to the word width is taking its remainder by a power of two.

* `Profile.toNat_mask`: the remainder; `Profile.mask_of_le`: words that fit are not changed.
* `Profile.mask_mask_add`, `Profile.mask_mask_sub`: a value may be cut down early in a sum.
-/

namespace RegisterMachine

theorem toNat_wordMask (bits : ℕ) : (wordMask bits).toNat = 2 ^ min bits 64 - 1 := by
  unfold wordMask
  split_ifs with h
  · rw [Nat.min_eq_right h]; rfl
  · have hlt : 2 ^ bits < 2 ^ 64 := Nat.pow_lt_pow_right (by omega) (by omega)
    rw [Nat.min_eq_left (by omega), Nat.one_shiftLeft, UInt64.toNat_ofNat_of_lt']
    simpa [UInt64.size] using by omega

theorem toNat_and_wordMask (bits : ℕ) (v : Word) :
    (v &&& wordMask bits).toNat = v.toNat % 2 ^ min bits 64 := by
  rw [UInt64.toNat_and, toNat_wordMask, Nat.and_two_pow_sub_one_eq_mod]

theorem succ_wordMask_dvd (bits : ℕ) : (wordMask bits).toNat + 1 ∣ UInt64.size := by
  rw [toNat_wordMask, Nat.sub_add_cancel Nat.one_le_two_pow]
  exact pow_dvd_pow 2 (Nat.min_le_right _ _)

namespace Profile
variable (profile : Profile)

theorem toNat_mask (v : Word) :
    (profile.mask v).toNat = v.toNat % (profile.wordMask.toNat + 1) := by
  have := Nat.two_pow_pos (min profile.wordBits 64)
  rw [mask, wordMask, toNat_and_wordMask, toNat_wordMask, Nat.sub_add_cancel this]

theorem one_le_wordMask {profile : Profile} (h : 1 ≤ profile.wordBits) :
    1 ≤ profile.wordMask := by
  have hpow : 2 ^ 1 ≤ 2 ^ min profile.wordBits 64 := Nat.pow_le_pow_right (by omega) (by omega)
  rw [UInt64.le_iff_toNat_le, UInt64.toNat_one, wordMask, toNat_wordMask]
  omega

theorem mask_le (v : Word) : profile.mask v ≤ profile.wordMask := by
  rw [UInt64.le_iff_toNat_le, toNat_mask]
  exact Nat.le_of_lt_succ (Nat.mod_lt _ (Nat.succ_pos _))

variable {profile}

theorem mask_of_le {v : Word} (h : v ≤ profile.wordMask) : profile.mask v = v := by
  rw [UInt64.le_iff_toNat_le] at h
  rw [← UInt64.toNat_inj, toNat_mask, Nat.mod_eq_of_lt (by omega)]

theorem mask_ofNat {n : ℕ} (h : n ≤ profile.wordMask.toNat) :
    profile.mask (UInt64.ofNat n) = UInt64.ofNat n := by
  refine mask_of_le ?_
  rw [UInt64.le_iff_toNat_le, UInt64.toNat_ofNat_of_lt' (h.trans_lt (UInt64.toNat_lt _))]
  exact h

@[simp] theorem mask_mask (v : Word) : profile.mask (profile.mask v) = profile.mask v :=
  mask_of_le (profile.mask_le v)

@[simp] theorem mask_mask_add (v w : Word) :
    profile.mask (profile.mask v + w) = profile.mask (v + w) := by
  have hd := succ_wordMask_dvd profile.wordBits
  rw [← UInt64.toNat_inj, toNat_mask, toNat_mask, UInt64.toNat_add, UInt64.toNat_add, toNat_mask]
  rw [wordMask] at *
  rw [Nat.mod_mod_of_dvd _ hd, Nat.mod_mod_of_dvd _ hd, Nat.mod_add_mod]

@[simp] theorem mask_mask_sub (v w : Word) :
    profile.mask (profile.mask v - w) = profile.mask (v - w) := by
  rw [UInt64.sub_eq_add_neg, mask_mask_add, ← UInt64.sub_eq_add_neg]

end Profile

end RegisterMachine
