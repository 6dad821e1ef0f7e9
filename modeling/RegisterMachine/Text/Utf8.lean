/-!
# Reading bytes as text

Text is written in UTF-8 by `encode`. Bytes are read back by `decode`, which accepts any byte
list: wherever the bytes are no character, the longest run of bytes that begins one is read as
a single replacement character.
-/

namespace RegisterMachine.Utf8

/-- The bytes of a text. -/
def encode (text : List Char) : List UInt8 :=
  text.flatMap String.utf8EncodeChar

/-- The character read for bytes that encode none. -/
def replacement : Char := '\uFFFD'

/-- The number of bytes in a sequence of several bytes that starts with `lead`; zero where no
such sequence does. -/
def width (lead : UInt8) : Nat :=
  if 0xC2 ≤ lead && lead ≤ 0xDF then 2
  else if 0xE0 ≤ lead && lead ≤ 0xEF then 3
  else if 0xF0 ≤ lead && lead ≤ 0xF4 then 4
  else 0

/-- Whether a byte continues a sequence. -/
def isContinuation (byte : UInt8) : Bool :=
  0x80 ≤ byte && byte ≤ 0xBF

/-- Whether a byte may come second after `lead`. The narrower bounds leave out characters that
have a shorter form, surrogates, and numbers past the last character. -/
def secondFits (lead second : UInt8) : Bool :=
  if lead = 0xE0 then 0xA0 ≤ second && second ≤ 0xBF
  else if lead = 0xED then 0x80 ≤ second && second ≤ 0x9F
  else if lead = 0xF0 then 0x90 ≤ second && second ≤ 0xBF
  else if lead = 0xF4 then 0x80 ≤ second && second ≤ 0x8F
  else isContinuation second

/-- The bytes of `rest` that continue the sequence started by `lead`. -/
def continuation (lead : UInt8) : List UInt8 → List UInt8
  | [] => []
  | second :: rest =>
    if width lead ≠ 0 ∧ secondFits lead second then
      second :: (rest.take (width lead - 2)).takeWhile isContinuation
    else []

/-- The character at the start of `lead :: rest`, and how many bytes of `rest` it takes. -/
def read (lead : UInt8) (rest : List UInt8) : Char × Nat :=
  if lead < 0x80 then
    (Char.ofNat lead.toNat, 0)
  else
    let tail := continuation lead rest
    if tail.length + 1 = width lead then
      let high := lead.toNat % (128 >>> width lead)
      (Char.ofNat (tail.foldl (fun number byte => number * 64 + byte.toNat % 64) high), tail.length)
    else
      (replacement, tail.length)

/-- The text that bytes are read as. -/
def decode : List UInt8 → List Char
  | [] => []
  | lead :: rest => (read lead rest).1 :: decode (rest.drop (read lead rest).2)
  termination_by bytes => bytes.length
  decreasing_by
    simp only [List.length_drop, List.length_cons]
    omega

end RegisterMachine.Utf8
