import RegisterMachine.Device.Basic

/-!
# Mapped memory

A window of plain cells among the device addresses. Starting a run clears it.
-/

namespace RegisterMachine

/-- A window of cells from `first` on. -/
structure MappedMemory where
  first : Word
  cells : Array Word
  /-- A window has a cell, and its last address is a word. -/
  cells_pos : 0 < cells.size
  fits : first.toNat + (cells.size - 1) < UInt64.size
  deriving DecidableEq

namespace MappedMemory

/-- A window of `length` cells, or of one cell for length zero. A window must end within the
address space. -/
def ofLength (first : Word) (length : Nat) : Except Fault MappedMemory :=
  let length := max length 1
  if h : first.toNat + (length - 1) < UInt64.size then
    have size : (Array.replicate length (0 : Word)).size = length := Array.size_replicate
    .ok ⟨first, Array.replicate length 0, by rw [size]; exact Nat.le_max_right _ 1,
      by rw [size]; exact h⟩
  else
    .error (.device
      s!"a {length} cell window at {hex first.toNat} runs past the address space")

/-- The addresses of a window. -/
def range (window : MappedMemory) : AddressRange :=
  ⟨window.first, window.first + UInt64.ofNat (window.cells.size - 1)⟩

/-- The position of an address in a window. -/
def offset (window : MappedMemory) (address : Word) : Except Fault Nat :=
  if window.range.contains address then .ok (address - window.first).toNat
  else .error (.unmappedAddress address)

/-- The window with one cell changed. -/
def put (window : MappedMemory) (offset : Nat) (value : Word) : MappedMemory where
  first := window.first
  cells := window.cells.setIfInBounds offset value
  cells_pos := by simpa using window.cells_pos
  fits := by simpa using window.fits

/-- The window with every cell zero. -/
def cleared (window : MappedMemory) : MappedMemory where
  first := window.first
  cells := window.cells.map fun _ => 0
  cells_pos := by simpa using window.cells_pos
  fits := by simpa using window.fits

instance : Device MappedMemory where
  range := range
  load address := do
    let window ← get
    let offset ← window.offset address
    return window.cells.getD offset 0
  store address value := do
    let offset ← (← get).offset address
    modify (·.put offset value)
  startup := modify cleared
  shutdown := pure ()

end MappedMemory

end RegisterMachine
