import RegisterMachine.Exec
import RegisterMachine.Text.Utf8

/-!
# Byte sinks

A sink takes bytes until it is full. A write that does not fit passes on what fits and faults.
-/

namespace RegisterMachine

/-- The bytes a sink has taken, and how many it may hold in all (`none`: no limit). -/
structure Sink where
  limit : Option Nat
  bytes : Array UInt8
  deriving DecidableEq, Repr

namespace Sink

/-- An empty sink. -/
def ofLimit (limit : Option Nat) : Sink :=
  ⟨limit, #[]⟩

instance : Inhabited Sink := ⟨ofLimit none⟩

/-- Whether the sink takes another byte. -/
def hasRoom (sink : Sink) : Bool :=
  match sink.limit with
  | none => true
  | some limit => sink.bytes.size < limit

/-- The sink with more bytes, if all of them fit. -/
def append? (sink : Sink) (bytes : List UInt8) : Option Sink :=
  match sink.limit with
  | none => some { sink with bytes := sink.bytes ++ bytes }
  | some limit =>
    if sink.bytes.size + bytes.length ≤ limit then
      some { sink with bytes := sink.bytes ++ bytes }
    else none

/-- Writes bytes one after another; faults at the first that finds the sink full. -/
def write : List UInt8 → Exec Sink Unit
  | [] => pure ()
  | byte :: rest => do
    if (← get).hasRoom then
      modify fun sink => { sink with bytes := sink.bytes.push byte }
      write rest
    else
      throw .shortWrite

/-- The text in a sink. -/
def text (sink : Sink) : String :=
  String.ofList (Utf8.decode sink.bytes.toList)

end Sink

end RegisterMachine
