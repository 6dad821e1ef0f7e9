/-!
# Log lines

A log keeps the lines up to a chosen level of detail, in the order in which they were noted.
The text of a line is built only if the log keeps it, so a line may be expensive to write.
-/

namespace RegisterMachine

/-- How detailed a line is. -/
inductive Level where
  /-- What happens to the machine as a whole. -/
  | debug
  /-- Every single step as well. -/
  | trace
  deriving DecidableEq, Repr

/-- The lines noted so far, and the most detailed level that is kept (`none`: nothing is). -/
structure Log where
  level : Option Level
  lines : Array (Level × String)
  deriving DecidableEq, Repr

namespace Log

/-- An empty log. -/
def ofLevel (level : Option Level) : Log :=
  ⟨level, #[]⟩

/-- Whether a log keeps lines of a level. -/
def keeps (log : Log) (level : Level) : Bool :=
  match log.level, level with
  | none, _ => false
  | some .debug, .trace => false
  | some _, _ => true

/-- Adds a line if the log keeps lines of its level. -/
def note (log : Log) (level : Level) (text : Unit → String) : Log :=
  if log.keeps level then { log with lines := log.lines.push (level, text ()) } else log

end Log

end RegisterMachine
