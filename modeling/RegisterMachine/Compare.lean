import RegisterMachine.Word
import RegisterMachine.Instruction.Operation

/-!
# Comparing words

A compare operation evaluates its relation on two words and joins the outcome to the predicate
that is already there, so that a chain of compares builds up a condition.
-/

namespace RegisterMachine

/-- Whether a relation holds between two words. -/
def Relation.holds (a b : Word) : Relation → Bool
  | equal => a == b
  | notEqual => a != b
  | lessThan => a < b
  | greaterThan => b < a
  | lessThanOrEqual => a ≤ b
  | greaterThanOrEqual => b ≤ a

/-- The predicate that comes of the old one and a new outcome. -/
def Combinator.combine (old new : Bool) : Combinator → Bool
  | overwrite => new
  | and => old && new
  | or => old || new
  | xor => old ^^ new

/-- The predicate after a compare. -/
def CompareOp.eval (op : CompareOp) (predicate : Bool) (a b : Word) : Bool :=
  op.combinator.combine predicate (op.relation.holds a b)

end RegisterMachine
