import RegisterMachine.Device.Basic
import RegisterMachine.Sink

/-!
# Console ports

A console port is a device with a single address. A store writes the low byte of the value to
the console; a load takes the next byte of the input, or all ones when there is none left.
-/

namespace RegisterMachine

/-- A port to a console. -/
structure ConsolePort where
  address : Word
  input : List UInt8
  output : Sink
  deriving DecidableEq

namespace ConsolePort

/-- What a load answers when the input is used up. -/
def endOfInput : Word := UInt64.ofNat (UInt64.size - 1)

/-- Where a port keeps what was written to it. -/
def outputPart : Part ConsolePort Sink where
  get := output
  set sink port := { port with output := sink }

/-- Takes the next byte of the input. -/
def takeByte : Exec ConsolePort Word := do
  match (← get).input with
  | [] => return endOfInput
  | byte :: rest =>
    modify fun port => { port with input := rest }
    return byte.toUInt64

instance : Device ConsolePort where
  range port := ⟨port.address, port.address⟩
  load _ := takeByte
  store _ value := Exec.onPart outputPart (Sink.write [value.toUInt8])
  startup := pure ()
  shutdown := pure ()

end ConsolePort

end RegisterMachine
