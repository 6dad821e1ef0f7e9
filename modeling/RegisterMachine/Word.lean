/-!
# Words

Architectural state is held in 64 bit cells. A machine with narrower words keeps the low bits
of every value it stores.

* `Word` is a cell.
* `wordMask bits` has ones in the low `bits` positions and nowhere else (`getLsbD_wordMask`).
-/

namespace RegisterMachine

/-- A 64 bit cell; arithmetic on it wraps. -/
abbrev Word := UInt64

/-- The word whose low `bits` bits are ones; from 64 bits on, every bit is. -/
def wordMask (bits : Nat) : Word :=
  if 64 ≤ bits then UInt64.ofNat (UInt64.size - 1) else UInt64.ofNat (1 <<< bits - 1)

theorem getLsbD_wordMask (bits position : Nat) :
    (wordMask bits).toBitVec.getLsbD position = decide (position < min bits 64) := by
  have ones (width : Nat) : (1 <<< width - 1).testBit position = decide (position < width) := by
    rw [Nat.one_shiftLeft, Nat.testBit_two_pow_sub_one]
  unfold wordMask
  split
  · next h =>
    have all : UInt64.size - 1 = 1 <<< 64 - 1 := rfl
    rw [all, UInt64.toBitVec_ofNat', BitVec.getLsbD_ofNat, ones, Nat.min_eq_right h, Bool.and_self]
  · next h =>
    rw [UInt64.toBitVec_ofNat', BitVec.getLsbD_ofNat, ones, Bool.eq_iff_iff]
    simp only [Bool.and_eq_true, decide_eq_true_eq]
    omega

end RegisterMachine
