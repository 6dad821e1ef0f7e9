import RegisterMachine.Word
import RegisterMachine.Text.Hex
import RegisterMachine.Memory.Region

/-!
# Faults

Everything that can go wrong on a machine, as causes: `Fault` names the cause and carries the
values it concerns, and `Fault.message` is the only place where a cause becomes text.
-/

namespace RegisterMachine

/-- What an index counts, where one is found to be out of range. -/
inductive Indexed where
  | group
  | operation
  | register
  | instructionGroup
  | instructionWord
  | operandCount
  | operandPort
  deriving DecidableEq, Repr

/-- The name of the indexed thing in messages. -/
def Indexed.name : Indexed → String
  | .group => "group"
  | .operation => "operation"
  | .register => "register"
  | .instructionGroup => "instruction group"
  | .instructionWord => "instruction word"
  | .operandCount => "operand count"
  | .operandPort => "operand port"

/-- The cause of a failure. -/
inductive Fault where
  /-- An operand byte beyond the three that an instruction carries. -/
  | operandByte (position : Nat)
  /-- A write to one of the two constant registers. -/
  | writeProtected (register : UInt8)
  | indexOutOfRange (what : Indexed) (index limit : Nat)
  | divideByZero
  /-- An operation code that no arithmetic operation has. -/
  | unimplementedArithmetic (code : Nat)
  | invalidMove (code : Nat)
  | invalidCompare (code : Nat)
  | illegalJump (code : Nat)
  | invalidMisc (code : Nat)
  /-- A system call selector without a handler. -/
  | invalidSystemCommand (selector : UInt8)
  | addressOutOfRange (region : Region) (address : Word) (capacity : Nat)
  /-- A data address above plain memory that no device claims. -/
  | unmappedAddress (address : Word)
  /-- A device range that is empty or collides with plain memory or another device. -/
  | overlappingDevice (first last : Word)
  /-- A failure that the program itself asked for. -/
  | panic (code : UInt16)
  /-- A number that is no Unicode scalar value. -/
  | invalidCodePoint (codePoint : UInt32)
  | unitNotRunning (unit : String)
  | unitAlreadyRunning (unit : String)
  /-- A functional unit that was lost while it worked for a caller. -/
  | unitDisconnected (unit : String)
  /-- A failure reported by a device. -/
  | device (message : String)
  /-- A cell that has no form of so many bytes in an image. -/
  | imageCell (bytes : Nat)
  /-- A byte source that ended too early. -/
  | shortRead
  /-- A byte sink that took only part of what it was given. -/
  | shortWrite
  deriving DecidableEq, Repr

namespace Fault

/-- The text of a fault. -/
def message : Fault → String
  | operandByte position =>
    s!"operand byte {position} requested, but an instruction carries only three"
  | writeProtected register => s!"register {register} is write protected"
  | indexOutOfRange what index limit =>
    s!"{what.name} index {index} is out of range (limit {limit})"
  | divideByZero => "divide by zero"
  | unimplementedArithmetic code => s!"arithmetic operation {code} is not implemented"
  | invalidMove code => s!"invalid move operation {code}"
  | invalidCompare code => s!"invalid compare operation {code}"
  | illegalJump code => s!"illegal jump operation {code}"
  | invalidMisc code => s!"invalid misc operation {code}"
  | invalidSystemCommand selector => s!"invalid system command {selector}"
  | addressOutOfRange region address capacity =>
    s!"address {hex address.toNat} is outside the {region.name} segment (capacity {hex capacity})"
  | unmappedAddress address => s!"no device responds to IO address {hex address.toNat}"
  | overlappingDevice first last =>
    s!"device range [{hex first.toNat}, {hex last.toNat}] overlaps data RAM or a registered device"
  | panic code => s!"program panic with code {hexPadded 4 code.toNat}"
  | invalidCodePoint codePoint => s!"{hex codePoint.toNat} is not a valid character code point"
  | unitNotRunning unit => s!"functional unit `{unit}` is not running"
  | unitAlreadyRunning unit => s!"functional unit `{unit}` is already running"
  | unitDisconnected unit => s!"functional unit `{unit}` is disconnected"
  | device message => s!"device error: {message}"
  | imageCell bytes => s!"the cell has no form of {bytes} bytes"
  | shortRead => "IO error: failed to fill whole buffer"
  | shortWrite => "IO error: failed to write whole buffer"

end Fault

end RegisterMachine
