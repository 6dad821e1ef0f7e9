import RegisterMachine.Device.Basic

/-!
# Probes

A probe is a device for trying out a machine's dealings with devices: it claims any range,
answers every load the same or by position, and fails on the accesses it is told to fail on.
-/

namespace RegisterMachine

/-- A device that claims `claim`. -/
structure Probe where
  claim : AddressRange
  /-- What loads answer; without it, the distance of the address from the start of the range. -/
  answer : Option Word
  /-- The names of the accesses that fail. -/
  failing : List String
  deriving DecidableEq

namespace Probe

/-- Fails if accesses of this name are to fail. -/
def check (access : String) : Exec Probe Unit := do
  let probe ← get
  if probe.failing.contains access then
    throw (.device s!"{access} failure at {hex probe.claim.first.toNat}")

instance : Device Probe where
  range := claim
  load address := do
    check "load"
    let probe ← get
    return probe.answer.getD (address - probe.claim.first)
  store _ _ := check "store"
  startup := check "startup"
  shutdown := check "shutdown"

end Probe

end RegisterMachine
