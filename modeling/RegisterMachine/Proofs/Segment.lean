import RegisterMachine.Memory.Segment
import RegisterMachine.Proofs.Exec

/-!
# Segments as arrays

* `Segment.put`: the segment with one cell changed.
* `Segment.gives_store`, `Segment.gives_push`: what stores and pushes do, if they are in range and
  if they are not.
-/

namespace RegisterMachine.Segment

variable {α : Type} {segment : Segment α} {address : Word} {value : α}

/-- The segment with another value in a cell, if there is such a cell. -/
def put (segment : Segment α) (address : Word) (value : α) : Segment α :=
  { segment with cells := segment.cells.setIfInBounds address.toNat value }

section
variable (segment : Segment α) (address : Word) (value : α)

@[simp] theorem capacity_put : (segment.put address value).capacity = segment.capacity :=
  Array.size_setIfInBounds

@[simp] theorem put_put_self (value' : α) :
    (segment.put address value).put address value' = segment.put address value' := by
  simp [put]

end

/-! ## Loads -/

theorem exists_load (h : address.toNat < segment.capacity) :
    ∃ value, segment.load address = .ok value :=
  ⟨_, by rw [load, Array.getElem?_eq_getElem h]⟩

theorem load_outside (h : ¬address.toNat < segment.capacity) :
    segment.load address = .error (segment.outside address) := by
  rw [load, Array.getElem?_eq_none (Nat.not_lt.1 h)]

theorem load_eq_ok_iff : segment.load address = .ok value ↔
    segment.cells[address.toNat]? = some value := by
  rw [load]
  split <;> simp_all

theorem lt_capacity_of_load (h : segment.load address = .ok value) :
    address.toNat < segment.capacity :=
  (Array.getElem?_eq_some_iff.1 (load_eq_ok_iff.1 h)).1

theorem load_put_self (h : address.toNat < segment.capacity) (value : α) :
    (segment.put address value).load address = .ok value := by
  rw [load_eq_ok_iff, put, Array.getElem?_setIfInBounds_self_of_lt h]

theorem load_put_of_ne {other : Word} (h : other ≠ address) (value : α) :
    (segment.put address value).load other = segment.load other := by
  have h : address.toNat ≠ other.toNat := fun e => h (UInt64.toNat_inj.1 e.symm)
  simp [load, put, Array.getElem?_setIfInBounds_ne h, outside, capacity]

theorem put_load (h : segment.load address = .ok value) : segment.put address value = segment := by
  obtain ⟨hlt, h⟩ := Array.getElem?_eq_some_iff.1 (load_eq_ok_iff.1 h)
  rw [put, Array.setIfInBounds, dif_pos hlt, ← h, Array.set_getElem_self]

/-! ## Stores -/

theorem gives_store (h : address.toNat < segment.capacity) (value : α) :
    Exec.Gives segment (store address value) (.ok ()) (segment.put address value) := by
  refine (Exec.gives_get segment).bind ?_
  rw [if_pos h]
  exact Exec.gives_modify segment _

theorem gives_store_outside (h : ¬address.toNat < segment.capacity) (value : α) :
    Exec.Gives segment (store address value) (.error (segment.outside address)) segment := by
  refine (Exec.gives_get segment).bind ?_
  rw [if_neg h]
  exact (Exec.gives_get segment).bind (Exec.gives_throw segment _)

section
variable {segment : Segment Word} {pointer mask : Word}

theorem gives_push (h : ((pointer + 1) &&& mask).toNat < segment.capacity) (value : Word) :
    Exec.Gives segment (push pointer value mask) (.ok ((pointer + 1) &&& mask))
      (segment.put ((pointer + 1) &&& mask) value) :=
  (gives_store h value).bind (Exec.gives_pure _ _)

theorem gives_push_outside (h : ¬((pointer + 1) &&& mask).toNat < segment.capacity)
    (value : Word) :
    Exec.Gives segment (push pointer value mask)
      (.error (segment.outside ((pointer + 1) &&& mask))) segment :=
  (gives_store_outside h value).bind_error ⟨rfl, rfl⟩

theorem pop_eq (segment : Segment Word) (pointer mask : Word) :
    segment.pop pointer mask = (segment.load pointer).map fun value =>
      (value, (pointer - 1) &&& mask) := by
  rw [pop]
  cases segment.load pointer <;> rfl

end

end RegisterMachine.Segment
