/-!
# Memory regions

The five address spaces a core owns. They never share a cell, so an address means something
only together with its `Region`.
-/

namespace RegisterMachine

/-- An address space of a core. -/
inductive Region where
  | code
  | data
  | stack
  | callStack
  | microcode
  deriving DecidableEq, Repr

/-- The name a region has in messages. -/
def Region.name : Region → String
  | .code => "code"
  | .data => "data"
  | .stack => "stack"
  | .callStack => "call stack"
  | .microcode => "microcode"

/-- Every region. -/
def Region.all : List Region :=
  [.code, .data, .stack, .callStack, .microcode]

/-- The region with a given name. -/
def Region.ofName? (name : String) : Option Region :=
  all.find? (·.name = name)

end RegisterMachine
