import RegisterMachine.Exec

/-!
# Devices

A device answers a range of data addresses above plain memory. `Device δ` says what a type of
devices must offer: the range that a device claims, loads and stores, and what happens when a
machine starts a run and when it ends one. Nothing else is asked, so a device may answer any
word, fail whenever it likes, and change with every access.
-/

namespace RegisterMachine

/-- The addresses from `first` to `last`, both included. -/
structure AddressRange where
  first : Word
  last : Word
  deriving DecidableEq, Repr

namespace AddressRange

/-- Whether an address is in a range. -/
def contains (range : AddressRange) (address : Word) : Bool :=
  range.first ≤ address && address ≤ range.last

instance : Membership Word AddressRange := ⟨fun range address => range.contains address⟩

/-- Whether a range has no addresses. -/
def isEmpty (range : AddressRange) : Bool :=
  range.last < range.first

/-- Whether a range gets in the way of one that is claimed: an end of it lies there, or it
encloses the claimed one. -/
def overlaps (claimed range : AddressRange) : Bool :=
  claimed.contains range.first || claimed.contains range.last ||
    (range.first ≤ claimed.first && claimed.last ≤ range.last)

theorem mem_iff {range : AddressRange} {address : Word} :
    address ∈ range ↔ range.first ≤ address ∧ address ≤ range.last := by
  simp [Membership.mem, contains]

/-- The test on the ends is right for ranges that are not empty. -/
theorem overlaps_iff {a b : AddressRange} (ha : a.isEmpty = false) (hb : b.isEmpty = false) :
    a.overlaps b ↔ ∃ address, address ∈ a ∧ address ∈ b := by
  simp only [isEmpty, decide_eq_false_iff_not, UInt64.not_lt] at ha hb
  simp only [overlaps, contains, Bool.or_eq_true, Bool.and_eq_true, decide_eq_true_eq, mem_iff]
  constructor
  · rintro ((⟨h₁, h₂⟩ | ⟨h₁, h₂⟩) | ⟨h₁, h₂⟩)
    · exact ⟨b.first, ⟨h₁, h₂⟩, UInt64.le_refl _, hb⟩
    · exact ⟨b.last, ⟨h₁, h₂⟩, hb, UInt64.le_refl _⟩
    · exact ⟨a.first, ⟨UInt64.le_refl _, ha⟩, h₁, UInt64.le_trans ha h₂⟩
  · rintro ⟨address, ⟨ha₁, ha₂⟩, hb₁, hb₂⟩
    by_cases hfirst : a.first ≤ b.first
    · exact .inl (.inl ⟨hfirst, UInt64.le_trans hb₁ ha₂⟩)
    by_cases hlast : b.last ≤ a.last
    · exact .inl (.inr ⟨UInt64.le_trans ha₁ hb₂, hlast⟩)
    · exact .inr ⟨UInt64.le_of_lt (UInt64.not_le.1 hfirst), UInt64.le_of_lt (UInt64.not_le.1 hlast)⟩

/-- The text of a range. -/
def text (range : AddressRange) : String :=
  s!"[{hex range.first.toNat}, {hex range.last.toNat}]"

end AddressRange

/-- What a machine asks of its devices. -/
class Device (δ : Type) where
  /-- The addresses that a device claims. -/
  range : δ → AddressRange
  load (address : Word) : Exec δ Word
  store (address value : Word) : Exec δ Unit
  startup : Exec δ Unit
  shutdown : Exec δ Unit

/-- A machine may have no devices at all. -/
instance : Device Empty where
  range := nofun
  load _ := fun device _ => nomatch device
  store _ _ := fun device _ => nomatch device
  startup := fun device _ => nomatch device
  shutdown := fun device _ => nomatch device

/-- One use of a device. -/
inductive Access where
  | load (address : Word)
  | store (address value : Word)
  | startup
  | shutdown
  deriving DecidableEq, Repr

/-- The text of an access to a device that starts at `first`. -/
def Access.text (first : Word) : Access → String
  | load address => s!"load {hex address.toNat}"
  | store address value => s!"store {hex address.toNat} {hex value.toNat}"
  | startup => s!"startup {hex first.toNat}"
  | shutdown => s!"shutdown {hex first.toNat}"

end RegisterMachine
