import RegisterMachine.Memory.Basic
import RegisterMachine.RegisterFile
import RegisterMachine.Device.Registry
import RegisterMachine.Sink
import RegisterMachine.Operand

/-!
# Cores

A core is a register file, memory, devices, an output for characters, and the flags of its run
loop. This module has its state and the elementary actions on it, all of which cut words down to
the word width where they store them:

* reading and writing registers and places (`readPlace`, `writePlace`, `readOperand`);
* data accesses, which go to plain memory below its capacity and to the devices above it;
* the data stack and the call stack;
* installing programs and data.
-/

namespace RegisterMachine

/-- Whether a machine goes on. -/
inductive Status where
  | running
  /-- Stopped by the program. -/
  | halted
  /-- Stopped by a fault. -/
  | faulted
  deriving DecidableEq, Repr

/-- The name of a status. -/
def Status.name : Status → String
  | running => "Running"
  | halted => "Halted"
  | faulted => "Faulted"

/-- A core with devices of type `δ`. -/
structure Core (δ : Type) where
  profile : Profile
  registers : RegisterFile
  memory : Memory
  devices : Registry δ
  output : Sink
  /-- Whether the instruction pointer moves on after the instruction. An instruction that sets
  the pointer itself clears the flag. -/
  advance : Bool
  status : Status
  /-- The instructions completed since the last reset. A machine counts them in 64 bits, so that
  its count agrees with this one below `2 ^ 64`. -/
  steps : Nat

namespace Core

variable {δ α : Type}

/-! ## Construction -/

/-- The core with registers and flags as they are when it is switched on. Memory stays. -/
def reset (core : Core δ) : Core δ :=
  { core with
    registers := RegisterFile.powerOn core.profile
    advance := true
    status := .running
    steps := 0 }

/-- A core that is switched on. -/
def powerOn (profile : Profile) (devices : Registry δ) (output : Sink) : Core δ where
  profile := profile
  registers := RegisterFile.powerOn profile
  memory := Memory.zeroed profile
  devices := devices
  output := output
  advance := true
  status := .running
  steps := 0

/-- Adds devices one after another. A device must not claim an address below `floor`. -/
def attach [Device δ] (floor : Nat) : List δ → Exec (Registry δ) Unit
  | [] => pure ()
  | device :: rest => do
    let range := Device.range device
    if range.first.toNat < floor then
      throw (.overlappingDevice range.first range.last)
    Registry.register device
    attach floor rest

/-- A core with given devices, which must all lie above plain memory and apart. -/
def build [Device δ] (profile : Profile) (devices : List δ) (output : Sink) (log : Log) :
    Except Fault (Core δ) × Log :=
  match attach profile.dataCapacity devices Registry.empty log with
  | ((.ok (), registry), log) => (.ok (powerOn profile registry output), log)
  | ((.error fault, _), log) => (.error fault, log)

/-! ## Components -/

/-- The registers of a core. -/
def registersPart : Part (Core δ) RegisterFile where
  get := registers
  set registers core := { core with registers }

/-- The code of a core. -/
def codePart : Part (Core δ) (Segment UInt32) where
  get core := core.memory.code
  set code core := { core with memory := { core.memory with code } }

/-- The data memory of a core. -/
def dataPart : Part (Core δ) (Segment Word) where
  get core := core.memory.data
  set data core := { core with memory := { core.memory with data } }

/-- The data stack of a core. -/
def stackPart : Part (Core δ) (Segment Word) where
  get core := core.memory.stack
  set stack core := { core with memory := { core.memory with stack } }

/-- The call stack of a core. -/
def callStackPart : Part (Core δ) (Segment Word) where
  get core := core.memory.callStack
  set callStack core := { core with memory := { core.memory with callStack } }

/-- The microcode of a core. -/
def microcodePart : Part (Core δ) (Segment Word) where
  get core := core.memory.microcode
  set microcode core := { core with memory := { core.memory with microcode } }

/-- The devices of a core. -/
def devicesPart : Part (Core δ) (Registry δ) where
  get := devices
  set devices core := { core with devices }

/-- The character output of a core. -/
def outputPart : Part (Core δ) Sink where
  get := output
  set output core := { core with output }

/-! ## Registers -/

/-- The value of a register. -/
def register (core : Core δ) (r : UInt8) : Word :=
  core.registers.get r

/-- Writes a register. -/
def setRegister (r : UInt8) (value : Word) : Exec (Core δ) Unit :=
  Exec.onPart registersPart (RegisterFile.set r value)

/-- The address of the instruction that is next or being executed. -/
def instructionPointer (core : Core δ) : Word :=
  core.register core.profile.registers.instructionPointer

/-- The instruction at the instruction pointer. -/
def nextInstruction (core : Core δ) : Except Fault Instruction :=
  Instruction.decode <$> core.memory.code.load core.instructionPointer

/-- Sets the instruction pointer. -/
def setInstructionPointer (address : Word) : Exec (Core δ) Unit := do
  setRegister (← get).profile.registers.instructionPointer address

/-- The address after the instruction pointer. -/
def nextAddress (core : Core δ) : Word :=
  core.profile.mask (core.instructionPointer + 1)

/-- The predicate: any word but zero is true. -/
def predicate (core : Core δ) : Bool :=
  core.register core.profile.registers.predicate != 0

/-- Sets the predicate, to zero or one. -/
def setPredicate (value : Bool) : Exec (Core δ) Unit := do
  setRegister (← get).profile.registers.predicate (if value then 1 else 0)

/-! ## Data addresses -/

/-- Whether a data address is in plain memory. -/
def inMemory (core : Core δ) (address : Word) : Bool :=
  address.toNat < core.memory.data.capacity

/-- Loads from a data address. -/
def loadData [Device δ] (address : Word) : Exec (Core δ) Word := do
  if (← get).inMemory address then
    (← get).memory.data.load address
  else
    let value ← Exec.onPart devicesPart (Registry.load address)
    return (← get).profile.mask value

/-- Stores at a data address. -/
def storeData [Device δ] (address value : Word) : Exec (Core δ) Unit := do
  let value := (← get).profile.mask value
  if (← get).inMemory address then
    Exec.onPart dataPart (Segment.store address value)
  else
    Exec.onPart devicesPart (Registry.store address value)

/-! ## Places -/

/-- Reads a place. -/
def readPlace [Device δ] : Place → Exec (Core δ) Word
  | .register r => return (← get).register r
  | .memory r => do loadData ((← get).register r)
  | .memoryAt address => loadData address.toUInt64
  | .microcode r => do
    let core ← get
    core.memory.microcode.load (core.register r)

/-- Writes a place. -/
def writePlace [Device δ] (place : Place) (value : Word) : Exec (Core δ) Unit :=
  match place with
  | .register r => setRegister r value
  | .memory r => do storeData ((← get).register r) value
  | .memoryAt address => storeData address.toUInt64 value
  | .microcode r => do
    let value := (← get).profile.mask value
    let address := (← get).register r
    Exec.onPart microcodePart (Segment.store address value)

/-- Reads an operand. -/
def readOperand [Device δ] : Operand → Exec (Core δ) Word
  | .place p => readPlace p
  | .literal value => return value.toUInt64

/-! ## Stacks -/

/-- The register that points to the top of the data stack. -/
def stackPointer (core : Core δ) : Word :=
  core.register core.profile.registers.stackPointer

/-- Sets the data stack pointer. -/
def setStackPointer (pointer : Word) : Exec (Core δ) Unit := do
  setRegister (← get).profile.registers.stackPointer pointer

/-- The register that points to the top of the call stack. -/
def callPointer (core : Core δ) : Word :=
  core.register core.profile.registers.callPointer

/-- Sets the call stack pointer. -/
def setCallPointer (pointer : Word) : Exec (Core δ) Unit := do
  setRegister (← get).profile.registers.callPointer pointer

/-- Pushes a value on the data stack. -/
def pushData (value : Word) : Exec (Core δ) Unit := do
  let profile := (← get).profile
  let pointer := (← get).stackPointer
  let pointer ← Exec.onPart stackPart (Segment.push pointer (profile.mask value) profile.wordMask)
  setStackPointer pointer

/-- Pops a value from the data stack. -/
def popData : Exec (Core δ) Word := do
  let core ← get
  let (value, pointer) ← core.memory.stack.pop core.stackPointer core.profile.wordMask
  setStackPointer pointer
  return value

/-- The value on top of the data stack. -/
def peekData (core : Core δ) : Except Fault Word :=
  core.memory.stack.peek core.stackPointer

/-- Pushes an address on the call stack. -/
def pushCall (address : Word) : Exec (Core δ) Unit := do
  let profile := (← get).profile
  let pointer := (← get).callPointer
  let pointer ←
    Exec.onPart callStackPart (Segment.push pointer (profile.mask address) profile.wordMask)
  setCallPointer pointer

/-- Pops an address from the call stack. -/
def popCall : Exec (Core δ) Word := do
  let core ← get
  let (address, pointer) ← core.memory.callStack.pop core.callPointer core.profile.wordMask
  setCallPointer pointer
  return address

/-! ## Output -/

/-- Writes a character to the output. -/
def emit (character : Char) : Exec (Core δ) Unit :=
  Exec.onPart outputPart (Sink.write (String.utf8EncodeChar character))

/-! ## Setting up memory -/

/-- Puts instruction words into code memory, from address 0 on. -/
def installWords (program : List UInt32) : Exec (Core δ) Unit :=
  Exec.onPart codePart (Segment.storeAll 0 program 0)

/-- Puts instructions into code memory, from address 0 on. -/
def installProgram (program : List Instruction) : Exec (Core δ) Unit :=
  installWords (program.map Instruction.encode)

/-- Puts words into data memory, from an address on. -/
def installData (start : Word) (words : List Word) : Exec (Core δ) Unit := do
  let profile := (← get).profile
  Exec.onPart dataPart (Segment.storeAll start (words.map profile.mask) 0)

/-- The cell at an address of a region, as it is. -/
def loadCell (core : Core δ) (region : Region) (address : Word) : Except Fault Word :=
  match region with
  | .code => return (← core.memory.code.load address).toUInt64
  | .data => core.memory.data.load address
  | .stack => core.memory.stack.load address
  | .callStack => core.memory.callStack.load address
  | .microcode => core.memory.microcode.load address

/-- Stores a value at an address of a region as it is; code keeps the low 32 bits. -/
def storeCell (region : Region) (address value : Word) : Exec (Core δ) Unit :=
  match region with
  | .code => Exec.onPart codePart (Segment.store address value.toUInt32)
  | .data => Exec.onPart dataPart (Segment.store address value)
  | .stack => Exec.onPart stackPart (Segment.store address value)
  | .callStack => Exec.onPart callStackPart (Segment.store address value)
  | .microcode => Exec.onPart microcodePart (Segment.store address value)

end Core

end RegisterMachine
