import RegisterMachine.Exec

/-!
# Memory segments

A segment is the storage of one region: the addresses from 0 up to its capacity. Accesses
outside fault and change nothing.

A segment of words also serves as a stack that grows upwards. Its pointer lives in a register
of the owner, so that the stack operations take the pointer and answer the new one. The pointer
of an empty stack is all ones: a push moves up first and so starts at address 0.
-/

namespace RegisterMachine

/-- The cells of a region. -/
structure Segment (α : Type) where
  region : Region
  cells : Array α
  deriving DecidableEq

namespace Segment

variable {α : Type}

instance : Inhabited (Segment α) := ⟨.data, #[]⟩

/-- A segment of equal cells. -/
def filled (region : Region) (capacity : Nat) (value : α) : Segment α :=
  ⟨region, Array.replicate capacity value⟩

/-- The number of cells. -/
def capacity (segment : Segment α) : Nat :=
  segment.cells.size

/-- The fault of an access outside the segment. -/
def outside (segment : Segment α) (address : Word) : Fault :=
  .addressOutOfRange segment.region address segment.capacity

/-- The value of a cell. -/
def load (segment : Segment α) (address : Word) : Except Fault α :=
  match segment.cells[address.toNat]? with
  | some value => .ok value
  | none => .error (segment.outside address)

/-- Stores a value in a cell. -/
def store (address : Word) (value : α) : Exec (Segment α) Unit := do
  if address.toNat < (← get).capacity then
    modify fun segment =>
      { segment with cells := segment.cells.setIfInBounds address.toNat value }
  else
    throw ((← get).outside address)

/-- Stores values at successive addresses, up to the first that does not fit. Addresses do not
wrap: a value past the last address is refused like one past the segment. -/
def storeAll (start : Word) (values : List α) (offset : Nat) : Exec (Segment α) Unit :=
  match values with
  | [] => pure ()
  | value :: rest => do
    if start.toNat + offset < UInt64.size then
      store (start + UInt64.ofNat offset) value
      storeAll start rest (offset + 1)
    else
      throw ((← get).outside start)

/-! ## Stacks -/

/-- Pushes a value and answers the new pointer. -/
def push (pointer value mask : Word) : Exec (Segment Word) Word := do
  let top := (pointer + 1) &&& mask
  store top value
  return top

/-- The value on top, and the pointer without it. -/
def pop (segment : Segment Word) (pointer mask : Word) : Except Fault (Word × Word) := do
  let value ← segment.load pointer
  return (value, (pointer - 1) &&& mask)

/-- The value on top. -/
def peek (segment : Segment Word) (pointer : Word) : Except Fault Word :=
  segment.load pointer

end Segment

end RegisterMachine
