import RegisterMachine.Device.Basic

/-!
# The device registry

The registry holds the devices of a machine in the order in which they were registered. It
refuses empty ranges and ranges that share an address with one it holds already, so that at
most one device answers an address. It also keeps a record of every access it passed on.

* `Registry.register` adds a device.
* `Registry.load` and `Registry.store` pass an access on to the device that answers.
* `Registry.startupAll` and `Registry.shutdownAll` go through the devices in order, up to the
  first that fails.
-/

namespace RegisterMachine

/-- A registered device with the range it was registered for. -/
structure Slot (δ : Type) where
  range : AddressRange
  device : δ

/-- The devices of a machine and the accesses made to them, oldest first. -/
structure Registry (δ : Type) where
  slots : List (Slot δ)
  accesses : Array (AddressRange × Access)

namespace Registry

variable {δ α : Type}

/-- A registry without devices. -/
def empty : Registry δ := ⟨[], #[]⟩

instance : Inhabited (Registry δ) := ⟨empty⟩

/-- Whether a range may be added to a registry. -/
def accepts (registry : Registry δ) (range : AddressRange) : Bool :=
  !range.isEmpty && !registry.slots.any (·.range.overlaps range)

/-- Adds a device. -/
def register [Device δ] (device : δ) : Exec (Registry δ) Unit := do
  let range := Device.range device
  if (← get).accepts range then
    Exec.note .debug fun _ => "registered IO device at " ++ range.text
    modify fun registry => { registry with slots := registry.slots ++ [⟨range, device⟩] }
  else
    throw (.overlappingDevice range.first range.last)

/-- Runs an action on the device in a slot. -/
def onSlot (slot : Slot δ) (x : Exec δ α) (log : Log) : (Except Fault α × Slot δ) × Log :=
  let ((outcome, device), log) := x slot.device log
  ((outcome, { slot with device := device }), log)

/-- Passes an access on to the first of `slots` that answers the address. -/
def route (address : Word) (access : Access) (x : Exec δ α)
    (accesses : Array (AddressRange × Access)) :
    List (Slot δ) → Log → (Except Fault α × Registry δ) × Log
  | [], log => ((.error (.unmappedAddress address), ⟨[], accesses⟩), log)
  | slot :: rest, log =>
    if slot.range.contains address then
      let accesses := accesses.push (slot.range, access)
      let ((outcome, slot), log) := onSlot slot x log
      ((outcome, ⟨slot :: rest, accesses⟩), log)
    else
      let ((outcome, registry), log) := route address access x accesses rest log
      ((outcome, { registry with slots := slot :: registry.slots }), log)

/-- Loads from the device that answers an address. -/
def load [Device δ] (address : Word) : Exec (Registry δ) Word := fun registry log =>
  route address (.load address) (Device.load address) registry.accesses registry.slots log

/-- Stores to the device that answers an address. -/
def store [Device δ] (address value : Word) : Exec (Registry δ) Unit := fun registry log =>
  route address (.store address value) (Device.store address value) registry.accesses
    registry.slots log

/-- Runs an action on one device after another, up to the first that fails. -/
def sweep (verb : String) (access : Access) (x : Exec δ Unit)
    (accesses : Array (AddressRange × Access)) :
    List (Slot δ) → Log → (Except Fault Unit × Registry δ) × Log
  | [], log => ((.ok (), ⟨[], accesses⟩), log)
  | slot :: rest, log =>
    let log := log.note .debug fun _ => verb ++ " IO device at " ++ slot.range.text
    let accesses := accesses.push (slot.range, access)
    match onSlot slot x log with
    | ((.error fault, slot), log) => ((.error fault, ⟨slot :: rest, accesses⟩), log)
    | ((.ok (), slot), log) =>
      let ((outcome, registry), log) := sweep verb access x accesses rest log
      ((outcome, { registry with slots := slot :: registry.slots }), log)

/-- Starts the devices. -/
def startupAll [Device δ] : Exec (Registry δ) Unit := fun registry log =>
  sweep "starting" .startup Device.startup registry.accesses registry.slots log

/-- Shuts the devices down. -/
def shutdownAll [Device δ] : Exec (Registry δ) Unit := fun registry log =>
  sweep "shutting down" .shutdown Device.shutdown registry.accesses registry.slots log

end Registry

end RegisterMachine
