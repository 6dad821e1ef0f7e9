import RegisterMachine.Fault
import RegisterMachine.Instruction.Operation

/-!
# Arithmetic on words

`ArithmeticOp.eval` computes in 64 bits whatever the machine's word width is: the result is cut
down where it is stored. Cutting down afterwards is right for every operation whose low result
bits depend on low operand bits only, and for the others because the operands are cut down
already.
-/

namespace RegisterMachine.ArithmeticOp

/-- The quotient; there is none by zero. -/
def quotient (a b : Word) : Except Fault Word :=
  if b = 0 then .error .divideByZero else .ok (a / b)

/-- The remainder; there is none by zero. -/
def remainder (a b : Word) : Except Fault Word :=
  if b = 0 then .error .divideByZero else .ok (a % b)

/-- Shifts towards the high bits; by 64 or more, nothing is left. -/
def shiftUp (a b : Word) : Word :=
  if b < 64 then a <<< b else 0

/-- Shifts towards the low bits; by 64 or more, nothing is left. -/
def shiftDown (a b : Word) : Word :=
  if b < 64 then a >>> b else 0

/-- The result of an operation on two words. -/
def eval (a b : Word) : ArithmeticOp → Except Fault Word
  | add | addImmediate => .ok (a + b)
  | sub | subImmediate => .ok (a - b)
  | mul | mulImmediate => .ok (a * b)
  | div | divImmediate => quotient a b
  | rem | remImmediate => remainder a b
  | shiftLeft | shiftLeftImmediate => .ok (shiftUp a b)
  | shiftRight | shiftRightImmediate => .ok (shiftDown a b)
  | binaryAnd => .ok (a &&& b)
  | binaryOr => .ok (a ||| b)
  | binaryNot => .ok (~~~a)
  | binaryXor => .ok (a ^^^ b)
  | increment => .ok (a + 1)
  | decrement => .ok (a - 1)
  | double => .ok (a * 2)
  | halve => .ok (a >>> 1)

end RegisterMachine.ArithmeticOp
