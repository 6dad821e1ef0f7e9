/-!
# Hexadecimal numbers

Numbers are written with lower-case digits after `0x`: `hex` uses as few digits as the number
has, `hexPadded` fills up with zeros to a least count. `ofHexDigits?` reads digits back.
-/

namespace RegisterMachine

/-- `0x` and the hexadecimal digits of `n`, at least `count` of them. -/
def hexPadded (count n : Nat) : String :=
  let digits := Nat.toDigits 16 n
  "0x" ++ String.ofList (List.replicate (count - digits.length) '0' ++ digits)

/-- `0x` and the hexadecimal digits of `n`. -/
def hex (n : Nat) : String :=
  hexPadded 1 n

/-- The value of a hexadecimal digit of either case. -/
def hexDigit? (c : Char) : Option Nat :=
  if '0' ≤ c ∧ c ≤ '9' then some (c.toNat - '0'.toNat)
  else if 'a' ≤ c ∧ c ≤ 'f' then some (c.toNat - 'a'.toNat + 10)
  else if 'A' ≤ c ∧ c ≤ 'F' then some (c.toNat - 'A'.toNat + 10)
  else none

/-- The number that hexadecimal digits write. -/
def ofHexDigits? (digits : List Char) : Option Nat :=
  digits.foldlM (fun number c => (hexDigit? c).map (number * 16 + ·)) 0

end RegisterMachine
