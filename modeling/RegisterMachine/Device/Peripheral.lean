import RegisterMachine.Device.MappedMemory
import RegisterMachine.Device.ConsolePort
import RegisterMachine.Device.Probe

/-!
# Peripherals

A `Peripheral` is any of the stock devices, so that one machine can have devices of several
kinds.
-/

namespace RegisterMachine

/-- A stock device. -/
inductive Peripheral where
  | memory (window : MappedMemory)
  | console (port : ConsolePort)
  | probe (probe : Probe)
  deriving DecidableEq

namespace Peripheral

/-- Carries out an access by whatever device a peripheral is. -/
def delegate {α : Type} (onMemory : Exec MappedMemory α) (onConsole : Exec ConsolePort α)
    (onProbe : Exec Probe α) : Exec Peripheral α := fun peripheral log =>
  match peripheral with
  | memory window =>
    let ((outcome, window), log) := onMemory window log
    ((outcome, memory window), log)
  | console port =>
    let ((outcome, port), log) := onConsole port log
    ((outcome, console port), log)
  | probe p =>
    let ((outcome, p), log) := onProbe p log
    ((outcome, probe p), log)

instance : Device Peripheral where
  range
    | memory window => Device.range window
    | console port => Device.range port
    | probe p => Device.range p
  load address := delegate (Device.load address) (Device.load address) (Device.load address)
  store address value :=
    delegate (Device.store address value) (Device.store address value) (Device.store address value)
  startup := delegate Device.startup Device.startup Device.startup
  shutdown := delegate Device.shutdown Device.shutdown Device.shutdown

/-- What a console has been given, for a peripheral that is one. -/
def consoleText? : Peripheral → Option String
  | console port => some port.output.text
  | _ => none

/-- Whether a peripheral is a probe. -/
def isProbe : Peripheral → Bool
  | probe _ => true
  | _ => false

end Peripheral

end RegisterMachine
