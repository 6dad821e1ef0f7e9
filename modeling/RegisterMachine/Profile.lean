import RegisterMachine.Word
import RegisterMachine.Memory.Region

/-!
# Machine profiles

The machine generations differ in word width, in the layout of the special registers and in
the sizes of their memory regions; they share one instruction format. Registers 0 and 1 hold
the constants 0 and 1 in every profile, the special registers follow, and the rest is general.

A profile is plain data: nothing asks that the special registers be distinct, so that being
`Profile.WellFormed` is a property of its own. The two standard profiles have it.
-/

namespace RegisterMachine

/-- A machine generation. -/
inductive Generation where
  /-- 16 bit words, no count register, no microcode. -/
  | compact16
  /-- 64 bit words, a count register and microcode. -/
  | wide64
  deriving DecidableEq, Repr

/-- The name of a generation. -/
def Generation.name : Generation → String
  | .compact16 => "compact16"
  | .wide64 => "wide64"

/-- The generation with a given name. -/
def Generation.ofName? (name : String) : Option Generation :=
  [compact16, wide64].find? (·.name = name)

/-- The registers that the machine itself uses. -/
structure SpecialRegisters where
  instructionPointer : UInt8
  stackPointer : UInt8
  predicate : UInt8
  callPointer : UInt8
  count : Option UInt8
  /-- The first register that is a program's own. -/
  firstGeneral : UInt8
  deriving DecidableEq, Repr

namespace SpecialRegisters

/-- The name of a reserved register; of two uses of one register the earlier in this list
counts. -/
def name? (special : SpecialRegisters) (register : UInt8) : Option String :=
  if register = 0 then some "false"
  else if register = 1 then some "true"
  else if register = special.instructionPointer then some "ip"
  else if register = special.stackPointer then some "sp"
  else if register = special.predicate then some "pred"
  else if register = special.callPointer then some "csp"
  else if some register = special.count then some "count"
  else none

/-- Whether a register is a program's own. -/
def isGeneral (special : SpecialRegisters) (register : UInt8) : Bool :=
  special.firstGeneral ≤ register

/-- The registers that the machine writes itself, after the constants. -/
def reserved (special : SpecialRegisters) : List UInt8 :=
  [0, 1, special.instructionPointer, special.stackPointer, special.predicate, special.callPointer]

end SpecialRegisters

/-- What distinguishes one machine from another. -/
structure Profile where
  generation : Generation
  wordBits : Nat
  registers : SpecialRegisters
  codeCapacity : Nat
  /-- Data addresses from this capacity on belong to devices. -/
  dataCapacity : Nat
  stackCapacity : Nat
  callStackCapacity : Nat
  /-- Zero where the machine has no microcode. -/
  microcodeCapacity : Nat
  deriving DecidableEq, Repr

namespace Profile

/-- The 16 bit machine. -/
def compact16 : Profile where
  generation := .compact16
  wordBits := 16
  registers := ⟨2, 3, 4, 5, none, 6⟩
  codeCapacity := 0x10000
  dataCapacity := 0xF000
  stackCapacity := 0x1000
  callStackCapacity := 0x400
  microcodeCapacity := 0

/-- The 64 bit machine. -/
def wide64 : Profile where
  generation := .wide64
  wordBits := 64
  registers := ⟨2, 3, 4, 6, some 5, 7⟩
  codeCapacity := 0x4000
  dataCapacity := 0x10000
  stackCapacity := 0x2000
  callStackCapacity := 0x800
  microcodeCapacity := 0x1000

/-- The standard profile of a generation. -/
def ofGeneration : Generation → Profile
  | .compact16 => compact16
  | .wide64 => wide64

instance : Inhabited Profile := ⟨compact16⟩

/-- The number of cells in a region. -/
def capacity (profile : Profile) : Region → Nat
  | .code => profile.codeCapacity
  | .data => profile.dataCapacity
  | .stack => profile.stackCapacity
  | .callStack => profile.callStackCapacity
  | .microcode => profile.microcodeCapacity

/-- The word with ones in every bit that the machine keeps. -/
def wordMask (profile : Profile) : Word :=
  RegisterMachine.wordMask profile.wordBits

/-- A value cut down to the word width. -/
def mask (profile : Profile) (value : Word) : Word :=
  value &&& profile.wordMask

/-- The number of bytes a word takes in an image. -/
def wordBytes (profile : Profile) : Nat :=
  profile.wordBits / 8

/-- The pointer of an empty stack. A push moves the pointer up first, so the first element of
a stack is at address 0. -/
def stackEmpty (profile : Profile) : Word :=
  profile.wordMask

/-- Whether the registers that the machine uses are apart from each other and from the
constants. -/
def WellFormed (profile : Profile) : Prop :=
  profile.registers.reserved.Nodup

instance (profile : Profile) : Decidable profile.WellFormed :=
  inferInstanceAs (Decidable (List.Nodup _))

theorem wellFormed_ofGeneration (generation : Generation) :
    (ofGeneration generation).WellFormed := by
  cases generation <;> decide

/-- The number of bytes in an image of all memory. -/
def imageSize (profile : Profile) : Nat :=
  profile.codeCapacity * 4 +
    (profile.dataCapacity + profile.microcodeCapacity + profile.stackCapacity +
      profile.callStackCapacity) * profile.wordBytes

end Profile

end RegisterMachine
