import RegisterMachine.Core.Basic
import RegisterMachine.Instruction.Builder

/-!
# System calls

A system call is an action on the core, given the instruction that called it. A table has a
place for every selector; the standard table holds the three calls that every machine has:

* `terminate` halts the core;
* `panic` faults with the immediate as its code;
* `putc` prints a character.
-/

namespace RegisterMachine

/-- What a system call does. -/
abbrev SystemCall (δ : Type) := Instruction → Exec (Core δ) Unit

/-- The character that `putc` prints. With the same register for both words (`single`), it is
the low byte; otherwise the low 16 bits of both words are the two halves of its number. -/
def composeCharacter (low high : Word) (single : Bool) : Except Fault Char :=
  let codePoint : UInt32 :=
    if single then (low &&& 0xFF).toUInt32
    else (((high &&& 0xFFFF) <<< 16) ||| (low &&& 0xFFFF)).toUInt32
  if h : codePoint.isValidChar then .ok ⟨codePoint, h⟩
  else .error (.invalidCodePoint codePoint)

namespace SystemCall

variable {δ : Type}

/-- Halts the core. -/
def terminate : SystemCall δ := fun _ => do
  let address := (← get).instructionPointer
  Exec.note .debug fun _ => "terminate at " ++ hex address.toNat
  modify fun core => { core with status := .halted }

/-- Faults with the immediate as its code. -/
def panic : SystemCall δ := fun i =>
  throw (.panic i.immediate)

/-- Prints a character. -/
def putc : SystemCall δ := fun i => do
  let low := (← get).register i.src0
  let high := (← get).register i.src1
  let character ← composeCharacter low high (i.src0 == i.src1)
  Core.emit character

/-- What a selector without a system call does. -/
def invalid : SystemCall δ := fun i =>
  throw (.invalidSystemCommand i.dest)

end SystemCall

/-- The system calls of a machine by selector. -/
structure SystemCallTable (δ : Type) where
  entry : UInt8 → Option (SystemCall δ)

namespace SystemCallTable

variable {δ : Type}

/-- The table with one call put in, in place of what was there. -/
def install (table : SystemCallTable δ) (selector : UInt8) (call : SystemCall δ) :
    SystemCallTable δ where
  entry other := if other = selector then some call else table.entry other

/-- Whether a selector has a call. -/
def isInstalled (table : SystemCallTable δ) (selector : UInt8) : Bool :=
  (table.entry selector).isSome

/-- The table with the calls that every machine has. -/
def standard : SystemCallTable δ where
  entry selector :=
    match (Opcode.ofCode? selector.toNat : Option SystemCommand) with
    | some .terminate => some SystemCall.terminate
    | some .panic => some SystemCall.panic
    | some .putc => some SystemCall.putc
    | none => none

/-- What happens on a call of a selector. -/
def handler (table : SystemCallTable δ) (selector : UInt8) : SystemCall δ :=
  (table.entry selector).getD SystemCall.invalid

end SystemCallTable

end RegisterMachine
