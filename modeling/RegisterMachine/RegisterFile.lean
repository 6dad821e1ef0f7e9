import RegisterMachine.Exec
import RegisterMachine.Profile

/-!
# The register file

There is one register per value of an operand byte, so that reading cannot fail. Registers 0
and 1 hold the constants 0 and 1 and refuse to be written; a write to any other register cuts
the value down to the word width.
-/

namespace RegisterMachine

/-- The registers of a machine, and the mask of the words they keep. -/
structure RegisterFile where
  slots : Vector Word 256
  mask : Word
  deriving DecidableEq

namespace RegisterFile

instance : Inhabited RegisterFile := ⟨Vector.replicate 256 0, 0⟩

/-- The value of a register. -/
def get (file : RegisterFile) (register : UInt8) : Word :=
  getElem file.slots register.toNat register.toNat_lt

/-- Puts a value into a register as it is. -/
def put (file : RegisterFile) (register : UInt8) (value : Word) : RegisterFile :=
  { file with slots := file.slots.set register.toNat value register.toNat_lt }

@[simp] theorem get_put_self (file : RegisterFile) (r : UInt8) (value : Word) :
    (file.put r value).get r = value := by
  simp [get, put]

theorem get_put_of_ne (file : RegisterFile) {r q : UInt8} (h : q ≠ r) (value : Word) :
    (file.put r value).get q = file.get q := by
  have hn : r.toNat ≠ q.toNat := fun e => h (UInt8.toNat_inj.1 e.symm)
  simp [get, put, Vector.getElem_set_ne, hn]

/-- The file with the constants in place and nothing else. -/
def cleared (profile : Profile) : RegisterFile :=
  put ⟨Vector.replicate 256 0, profile.wordMask⟩ 1 1

/-- The file of a machine that is switched on: both stacks are empty. -/
def powerOn (profile : Profile) : RegisterFile :=
  ((cleared profile).put profile.registers.stackPointer profile.stackEmpty).put
    profile.registers.callPointer profile.stackEmpty

/-- Writes a register. -/
def set (register : UInt8) (value : Word) : Exec RegisterFile Unit :=
  if register ≤ 1 then
    throw (.writeProtected register)
  else
    modify fun file => file.put register (value &&& file.mask)

/-- Reads a register by an index that may be too large. -/
def read (file : RegisterFile) (index : Nat) : Except Fault Word :=
  if index < 256 then .ok (file.get (UInt8.ofNat index))
  else .error (.indexOutOfRange .register index 256)

/-- Writes a register by an index that may be too large. -/
def write (index : Nat) (value : Word) : Exec RegisterFile Unit :=
  if index < 256 then set (UInt8.ofNat index) value
  else throw (.indexOutOfRange .register index 256)

/-- The registers with their values, in order. -/
def toList (file : RegisterFile) : List (UInt8 × Word) :=
  file.slots.toList.mapIdx fun index value => (UInt8.ofNat index, value)

end RegisterFile

end RegisterMachine
