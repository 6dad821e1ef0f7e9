import RegisterMachine.Memory.Basic
import RegisterMachine.Sink

/-!
# Memory images

An image is all memory as bytes: the cells of one segment after another, each as a little-endian
number. The order is code, data, microcode, stack, call stack. Instruction words take four bytes
and other cells the bytes of a word of the machine. Segment sizes come from the profile, so an
image has no header. A machine whose words take no bytes, or more than eight, has images only if
it has no words.

* `Image.littleEndian` and `Image.ofLittleEndian` go between numbers and bytes. Bytes are always
  read back (`littleEndian_ofLittleEndian`), a number only if it `Image.fits` them.
* `Memory.writeImage` writes the image to a sink.
* `Memory.readImage` reads an image and ignores what follows it.
-/

namespace RegisterMachine

namespace Image

/-! ## Numbers -/

/-- The `count` low bytes of a number, the lowest first. -/
def littleEndian : Nat → Nat → List UInt8
  | 0, _ => []
  | count + 1, number => UInt8.ofNat number :: littleEndian count (number / 256)

/-- The number with given bytes, the lowest first. -/
def ofLittleEndian : List UInt8 → Nat
  | [] => 0
  | byte :: rest => byte.toNat + 256 * ofLittleEndian rest

@[simp] theorem length_littleEndian (count number : Nat) :
    (littleEndian count number).length = count := by
  induction count generalizing number with
  | zero => rfl
  | succ count ih => simp [littleEndian, ih]

theorem littleEndian_ofLittleEndian (bytes : List UInt8) :
    littleEndian bytes.length (ofLittleEndian bytes) = bytes := by
  induction bytes with
  | nil => rfl
  | cons byte rest ih =>
    have h : byte.toNat < 256 := byte.toNat_lt
    have low : UInt8.ofNat (byte.toNat + 256 * ofLittleEndian rest) = byte := by
      apply UInt8.toNat_inj.1
      rw [UInt8.toNat_ofNat']
      omega
    have high : (byte.toNat + 256 * ofLittleEndian rest) / 256 = ofLittleEndian rest := by omega
    rw [List.length_cons, ofLittleEndian, littleEndian, low, high, ih]

/-! ## Writing -/

/-- Whether the cells of an image may take `count` bytes. -/
def isCellSize (count : Nat) : Bool :=
  1 ≤ count && count ≤ 8

/-- Whether a number can be written in `count` bytes, so that it is read back from them. -/
def fits (count number : Nat) : Bool :=
  isCellSize count && ofLittleEndian (littleEndian count number) = number

/-- Writes numbers, each in its count of bytes, up to the first that cannot be written. -/
def writeNumbers (sink : Sink) : List (Nat × Nat) → Except Fault Sink
  | [] => .ok sink
  | (count, number) :: rest =>
    if fits count number then
      match sink.append? (littleEndian count number) with
      | some sink => writeNumbers sink rest
      | none => .error .shortWrite
    else
      .error (.imageCell count)

/-! ## Reading -/

/-- Reads as many numbers of `count` bytes as `missing` says, after those read already. -/
def readNumbers (count : Nat) :
    Nat → Array Nat → List UInt8 → Except Fault (Array Nat × List UInt8)
  | 0, numbers, bytes => .ok (numbers, bytes)
  | missing + 1, numbers, bytes =>
    let (cell, rest) := bytes.splitAt count
    if !isCellSize count then .error (.imageCell count)
    else if cell.length < count then .error .shortRead
    else readNumbers count missing (numbers.push (ofLittleEndian cell)) rest

/-- Reads a segment of words. -/
def readWords (profile : Profile) (region : Region) (bytes : List UInt8) :
    Except Fault (Segment Word × List UInt8) := do
  let (numbers, rest) ← readNumbers profile.wordBytes (profile.capacity region) #[] bytes
  return (⟨region, numbers.map UInt64.ofNat⟩, rest)

/-- Reads the code segment. -/
def readCode (profile : Profile) (bytes : List UInt8) :
    Except Fault (Segment UInt32 × List UInt8) := do
  let (numbers, rest) ← readNumbers 4 profile.codeCapacity #[] bytes
  return (⟨.code, numbers.map UInt32.ofNat⟩, rest)

end Image

namespace Memory

/-- The cells in the order of an image, each with the bytes it takes. -/
def imageCells (profile : Profile) (memory : Memory) : List (Nat × Nat) :=
  let words (segment : Segment Word) :=
    segment.cells.toList.map fun cell => (profile.wordBytes, cell.toNat)
  memory.code.cells.toList.map (fun cell => (4, cell.toNat)) ++ words memory.data ++
    words memory.microcode ++ words memory.stack ++ words memory.callStack

/-- Writes all memory to a sink. -/
def writeImage (profile : Profile) (memory : Memory) (sink : Sink) : Except Fault Sink :=
  Image.writeNumbers sink (memory.imageCells profile)

/-- Reads all memory from the start of a byte list. -/
def readImage (profile : Profile) (bytes : List UInt8) : Except Fault Memory := do
  let (code, bytes) ← Image.readCode profile bytes
  let (data, bytes) ← Image.readWords profile .data bytes
  let (microcode, bytes) ← Image.readWords profile .microcode bytes
  let (stack, bytes) ← Image.readWords profile .stack bytes
  let (callStack, _) ← Image.readWords profile .callStack bytes
  return { code, data, stack, callStack, microcode }

end Memory

end RegisterMachine
