import RegisterMachine.Proofs.Segment
import RegisterMachine.Proofs.Word

/-!
# Segments as stacks

A segment and a pointer are a stack of words if the words are in the first cells, in order, and
the pointer is the address of the last. The pointer of an empty stack is one below address 0 and
has been cut down to the word width, so that it is outside a segment that is not too large.

* `Segment.Stacks`: a segment and a pointer are a stack of given words.
* `Segment.Stacks.push`, `Segment.Stacks.load_concat`, `Segment.Stacks.pop`: what pushes and pops
  do.
-/

namespace RegisterMachine.Segment

/-- A segment with a pointer to its top holds the words of a list and no more. -/
structure Stacks (segment : Segment Word) (profile : Profile) (pointer : Word)
    (words : List Word) : Prop where
  pointer_eq : pointer = profile.mask (UInt64.ofNat words.length - 1)
  length_le : words.length ≤ segment.capacity
  take_eq : segment.cells.toList.take words.length = words

namespace Stacks
variable {segment : Segment Word} {profile : Profile} {pointer word : Word} {words : List Word}

theorem ofNat_length_concat (words : List Word) (word : Word) :
    UInt64.ofNat (words ++ [word]).length - 1 = UInt64.ofNat words.length := by
  rw [List.length_append, List.length_singleton, UInt64.ofNat_add]
  exact UInt64.add_sub_cancel _ _

theorem nil (segment : Segment Word) (profile : Profile) :
    segment.Stacks profile profile.stackEmpty [] where
  pointer_eq := by
    simp [Profile.stackEmpty, Profile.mask]
  length_le := Nat.zero_le _
  take_eq := rfl

section
variable (h : segment.Stacks profile pointer words)
  (hcap : segment.capacity ≤ profile.wordMask.toNat)
include h hcap

/-- The address that a push goes to. -/
theorem slot_eq : profile.mask (pointer + 1) = UInt64.ofNat words.length := by
  rw [h.pointer_eq, Profile.mask_mask_add, UInt64.sub_add_cancel,
    Profile.mask_ofNat (h.length_le.trans hcap)]

theorem toNat_slot : (profile.mask (pointer + 1)).toNat = words.length := by
  rw [h.slot_eq hcap, UInt64.toNat_ofNat_of_lt']
  exact (h.length_le.trans hcap).trans_lt (UInt64.toNat_lt _)

theorem push (hr : words.length < segment.capacity) (word : Word) :
    (segment.put (profile.mask (pointer + 1)) word).Stacks profile (profile.mask (pointer + 1))
      (words ++ [word]) where
  pointer_eq := by
    rw [ofNat_length_concat, h.pointer_eq, Profile.mask_mask_add, UInt64.sub_add_cancel]
  length_le := by simpa using hr
  take_eq := by
    have hr : words.length < segment.cells.toList.length := hr
    have hput : (segment.put (profile.mask (pointer + 1)) word).cells.toList =
        segment.cells.toList.set words.length word := by
      rw [put, h.toNat_slot hcap, Array.toList_setIfInBounds]
    rw [hput, List.length_append, List.length_singleton, List.take_succ_eq_append_getElem (by simpa),
      List.getElem_set_self, List.take_set_of_le (Nat.le_refl _), h.take_eq]

end

section
variable (hcap : segment.capacity ≤ profile.wordMask.toNat)
include hcap

/-- There is nothing on top of an empty stack. -/
theorem load_nil (h : segment.Stacks profile pointer []) :
    segment.load pointer = .error (segment.outside pointer) := by
  refine load_outside ?_
  have hp : pointer = profile.stackEmpty := h.pointer_eq.trans (nil segment profile).pointer_eq.symm
  rw [hp]
  exact Nat.not_lt.2 hcap

theorem load_concat (h : segment.Stacks profile pointer (words ++ [word])) :
    segment.load pointer = .ok word := by
  have hlen : words.length < segment.capacity := by simpa using h.length_le
  have hn : words.length ≤ profile.wordMask.toNat := (Nat.le_of_lt hlen).trans hcap
  have hp : pointer.toNat = words.length := by
    rw [h.pointer_eq, ofNat_length_concat, Profile.mask_ofNat hn,
      UInt64.toNat_ofNat_of_lt' (hn.trans_lt (UInt64.toNat_lt _))]
  have hget := congrArg (fun l => l[words.length]?) h.take_eq
  rw [load_eq_ok_iff, hp, ← Array.getElem?_toList]
  simpa [List.getElem?_take] using hget

end

theorem pop (h : segment.Stacks profile pointer (words ++ [word])) :
    segment.Stacks profile (profile.mask (pointer - 1)) words where
  pointer_eq := by
    rw [h.pointer_eq, Profile.mask_mask_sub, ofNat_length_concat]
  length_le := by
    have hlen := h.length_le
    rw [List.length_append] at hlen
    omega
  take_eq := by
    have ht := congrArg (List.take words.length) h.take_eq
    simpa [List.take_take] using ht

end Stacks

end RegisterMachine.Segment
