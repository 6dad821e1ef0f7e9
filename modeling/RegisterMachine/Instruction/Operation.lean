import RegisterMachine.Instruction.Opcode

/-!
# Operations

Every instruction group has its own operations. An operation is described by its mnemonic, its
name in log lines, and the operands that its assembly text shows.
-/

namespace RegisterMachine

/-- Which operands are shown in assembly text, and in which order. -/
inductive Layout where
  /-- Destination and both sources. -/
  | three
  /-- Destination and first source. -/
  | two
  /-- Destination. -/
  | one
  /-- Both sources. -/
  | pair
  /-- Destination and immediate. -/
  | destImmediate
  | immediate
  | none
  deriving DecidableEq, Repr

/-- The name of a layout. -/
def Layout.label : Layout → String
  | three => "Three"
  | two => "Two"
  | one => "One"
  | pair => "Pair"
  | destImmediate => "DestImmediate"
  | immediate => "Immediate"
  | none => "None"

/-- How an operation is written. -/
structure Spelling where
  mnemonic : String
  label : String
  layout : Layout
  deriving DecidableEq, Repr

/-! ## Groups -/

/-- A group of operations. -/
inductive Group where
  | arithmetic
  | move
  | jump
  | compare
  | misc
  deriving DecidableEq, Repr

instance : Opcode Group where
  all := [.arithmetic, .move, .jump, .compare, .misc]
  mnemonic
    | .arithmetic => "arithmetic"
    | .move => "move"
    | .jump => "jump"
    | .compare => "compare"
    | .misc => "misc"
  label
    | .arithmetic => "Arithmetic"
    | .move => "Move"
    | .jump => "Jump"
    | .compare => "Compare"
    | .misc => "Misc"

/-! ## Arithmetic -/

/-- An arithmetic operation. The immediate forms come last. -/
inductive ArithmeticOp where
  | add
  | sub
  | mul
  | div
  | rem
  | shiftLeft
  | shiftRight
  | binaryAnd
  | binaryOr
  | binaryNot
  | binaryXor
  | increment
  | decrement
  | double
  | halve
  | addImmediate
  | subImmediate
  | mulImmediate
  | divImmediate
  | remImmediate
  | shiftLeftImmediate
  | shiftRightImmediate
  deriving DecidableEq, Repr

instance : Opcode ArithmeticOp where
  all := [.add, .sub, .mul, .div, .rem, .shiftLeft, .shiftRight, .binaryAnd, .binaryOr, .binaryNot,
    .binaryXor, .increment, .decrement, .double, .halve, .addImmediate, .subImmediate,
    .mulImmediate, .divImmediate, .remImmediate, .shiftLeftImmediate, .shiftRightImmediate]
  mnemonic
    | .add => "add"
    | .sub => "sub"
    | .mul => "mul"
    | .div => "div"
    | .rem => "rem"
    | .shiftLeft => "shl"
    | .shiftRight => "shr"
    | .binaryAnd => "and"
    | .binaryOr => "or"
    | .binaryNot => "not"
    | .binaryXor => "xor"
    | .increment => "incr"
    | .decrement => "decr"
    | .double => "double"
    | .halve => "halve"
    | .addImmediate => "addi"
    | .subImmediate => "subi"
    | .mulImmediate => "muli"
    | .divImmediate => "divi"
    | .remImmediate => "remi"
    | .shiftLeftImmediate => "shli"
    | .shiftRightImmediate => "shri"
  label
    | .add => "Add"
    | .sub => "Sub"
    | .mul => "Mul"
    | .div => "Div"
    | .rem => "Rem"
    | .shiftLeft => "ShiftLeft"
    | .shiftRight => "ShiftRight"
    | .binaryAnd => "BinaryAnd"
    | .binaryOr => "BinaryOr"
    | .binaryNot => "BinaryNot"
    | .binaryXor => "BinaryXor"
    | .increment => "Increment"
    | .decrement => "Decrement"
    | .double => "Double"
    | .halve => "Halve"
    | .addImmediate => "AddImmediate"
    | .subImmediate => "SubImmediate"
    | .mulImmediate => "MulImmediate"
    | .divImmediate => "DivImmediate"
    | .remImmediate => "RemImmediate"
    | .shiftLeftImmediate => "ShiftLeftImmediate"
    | .shiftRightImmediate => "ShiftRightImmediate"

namespace ArithmeticOp

/-- Whether the second operand is the immediate, and the first the destination. -/
def isImmediate (op : ArithmeticOp) : Bool :=
  Opcode.code addImmediate ≤ Opcode.code op

/-- Whether the second operand is ignored. -/
def isUnary : ArithmeticOp → Bool
  | binaryNot | increment | decrement | double | halve => true
  | _ => false

/-- The operands that an arithmetic operation shows. -/
def layout (op : ArithmeticOp) : Layout :=
  match op.isImmediate, op.isUnary with
  | true, _ => .destImmediate
  | false, true => .two
  | false, false => .three

/-- How an arithmetic operation is written. -/
def spelling (op : ArithmeticOp) : Spelling where
  mnemonic := Opcode.mnemonic op
  label := Opcode.label op
  layout := op.layout

end ArithmeticOp

/-! ## Moves -/

/-- A move operation. -/
inductive MoveOp where
  | move
  | swap
  /-- Swaps a register with the memory cell a register points to. -/
  | swapRegMem
  | swapMemMem
  /-- Swaps a register with the memory cell at the immediate address. -/
  | swapRegAddr
  | swapMemAddr
  | set
  | load
  | loadImmediate
  | store
  | storeMemory
  /-- Stores the destination register at the immediate address. -/
  | storeImmediateAddress
  /-- Stores the immediate at the address in the destination register. -/
  | storeImmediate
  | push
  | pushImmediate
  | pop
  | peek
  | loadMicrocode
  | storeMicrocode
  deriving DecidableEq, Repr

/-- How a move operation is written. -/
def MoveOp.spelling : MoveOp → Spelling
  | move => ⟨"move", "Move", .two⟩
  | swap => ⟨"swap", "Swap", .two⟩
  | swapRegMem => ⟨"swap.rm", "SwapRegMem", .two⟩
  | swapMemMem => ⟨"swap.mm", "SwapMemMem", .two⟩
  | swapRegAddr => ⟨"swap.ra", "SwapRegAddr", .destImmediate⟩
  | swapMemAddr => ⟨"swap.ma", "SwapMemAddr", .destImmediate⟩
  | set => ⟨"set", "Set", .destImmediate⟩
  | load => ⟨"load", "Load", .two⟩
  | loadImmediate => ⟨"load.i", "LoadImmediate", .destImmediate⟩
  | store => ⟨"store", "Store", .two⟩
  | storeMemory => ⟨"store.m", "StoreMemory", .two⟩
  | storeImmediateAddress => ⟨"store.a", "StoreImmediateAddress", .destImmediate⟩
  | storeImmediate => ⟨"store.i", "StoreImmediate", .destImmediate⟩
  | push => ⟨"push", "Push", .one⟩
  | pushImmediate => ⟨"push.i", "PushImmediate", .immediate⟩
  | pop => ⟨"pop", "Pop", .one⟩
  | peek => ⟨"peek", "Peek", .one⟩
  | loadMicrocode => ⟨"load.u", "LoadMicrocode", .two⟩
  | storeMicrocode => ⟨"store.u", "StoreMicrocode", .two⟩

instance : Opcode MoveOp where
  all := [.move, .swap, .swapRegMem, .swapMemMem, .swapRegAddr, .swapMemAddr, .set, .load,
    .loadImmediate, .store, .storeMemory, .storeImmediateAddress, .storeImmediate, .push,
    .pushImmediate, .pop, .peek, .loadMicrocode, .storeMicrocode]
  mnemonic op := op.spelling.mnemonic
  label op := op.spelling.label

/-! ## Jumps -/

/-- A jump operation. -/
inductive JumpOp where
  | branch
  | branchRegister
  | call
  | callRegister
  | branchIfTrue
  | branchIfTrueRegister
  | callIfTrue
  | callIfTrueRegister
  | branchIfFalse
  | branchIfFalseRegister
  | callIfFalse
  | callIfFalseRegister
  | selectIfTrue
  | selectIfFalse
  | selectCallIfTrue
  | selectCallIfFalse
  | ret
  deriving DecidableEq, Repr

/-- How a jump operation is written. -/
def JumpOp.spelling : JumpOp → Spelling
  | branch => ⟨"branch", "Branch", .immediate⟩
  | branchRegister => ⟨"branch.r", "BranchRegister", .one⟩
  | call => ⟨"call", "Call", .immediate⟩
  | callRegister => ⟨"call.r", "CallRegister", .one⟩
  | branchIfTrue => ⟨"branch.t", "BranchIfTrue", .immediate⟩
  | branchIfTrueRegister => ⟨"branch.tr", "BranchIfTrueRegister", .one⟩
  | callIfTrue => ⟨"call.t", "CallIfTrue", .immediate⟩
  | callIfTrueRegister => ⟨"call.tr", "CallIfTrueRegister", .one⟩
  | branchIfFalse => ⟨"branch.f", "BranchIfFalse", .immediate⟩
  | branchIfFalseRegister => ⟨"branch.fr", "BranchIfFalseRegister", .one⟩
  | callIfFalse => ⟨"call.f", "CallIfFalse", .immediate⟩
  | callIfFalseRegister => ⟨"call.fr", "CallIfFalseRegister", .one⟩
  | selectIfTrue => ⟨"select.t", "SelectIfTrue", .pair⟩
  | selectIfFalse => ⟨"select.f", "SelectIfFalse", .pair⟩
  | selectCallIfTrue => ⟨"select.ct", "SelectCallIfTrue", .pair⟩
  | selectCallIfFalse => ⟨"select.cf", "SelectCallIfFalse", .pair⟩
  | ret => ⟨"return", "Return", .none⟩

instance : Opcode JumpOp where
  all := [.branch, .branchRegister, .call, .callRegister, .branchIfTrue, .branchIfTrueRegister,
    .callIfTrue, .callIfTrueRegister, .branchIfFalse, .branchIfFalseRegister, .callIfFalse,
    .callIfFalseRegister, .selectIfTrue, .selectIfFalse, .selectCallIfTrue, .selectCallIfFalse,
    .ret]
  mnemonic op := op.spelling.mnemonic
  label op := op.spelling.label

/-! ## Compares -/

/-- An unsigned relation between two words. -/
inductive Relation where
  | equal
  | notEqual
  | lessThan
  | greaterThan
  | lessThanOrEqual
  | greaterThanOrEqual
  deriving DecidableEq, Repr

instance : Opcode Relation where
  all := [.equal, .notEqual, .lessThan, .greaterThan, .lessThanOrEqual, .greaterThanOrEqual]
  mnemonic
    | .equal => "eq"
    | .notEqual => "ne"
    | .lessThan => "lt"
    | .greaterThan => "gt"
    | .lessThanOrEqual => "le"
    | .greaterThanOrEqual => "ge"
  label
    | .equal => "Equal"
    | .notEqual => "NotEqual"
    | .lessThan => "LessThan"
    | .greaterThan => "GreaterThan"
    | .lessThanOrEqual => "LessThanOrEqual"
    | .greaterThanOrEqual => "GreaterThanOrEqual"

/-- How a comparison joins the predicate that is already there. -/
inductive Combinator where
  | overwrite
  | and
  | or
  | xor
  deriving DecidableEq, Repr

instance : Opcode Combinator where
  all := [.overwrite, .and, .or, .xor]
  mnemonic
    | .overwrite => ""
    | .and => ".and"
    | .or => ".or"
    | .xor => ".xor"
  label
    | .overwrite => "Overwrite"
    | .and => "And"
    | .or => "Or"
    | .xor => "Xor"

/-- A compare operation. -/
structure CompareOp where
  relation : Relation
  combinator : Combinator
  deriving DecidableEq, Repr

/-- How a compare operation is written. -/
def CompareOp.spelling (op : CompareOp) : Spelling where
  mnemonic := Opcode.mnemonic op.relation ++ Opcode.mnemonic op.combinator
  label := "CompareOp \x7b relation: " ++ Opcode.label op.relation ++ ", combinator: " ++
    Opcode.label op.combinator ++ " \x7d"
  layout := .pair

instance : Opcode CompareOp where
  all := (Opcode.all : List Relation).flatMap fun relation =>
    (Opcode.all : List Combinator).map fun combinator => ⟨relation, combinator⟩
  mnemonic op := op.spelling.mnemonic
  label op := op.spelling.label

/-! ## The rest -/

/-- A miscellaneous operation. -/
inductive MiscOp where
  /-- Calls the handler that the destination byte selects. -/
  | systemCall
  deriving DecidableEq, Repr

/-- How a miscellaneous operation is written. -/
def MiscOp.spelling : MiscOp → Spelling
  | systemCall => ⟨"system", "SystemCall", .three⟩

instance : Opcode MiscOp where
  all := [.systemCall]
  mnemonic op := op.spelling.mnemonic
  label op := op.spelling.label

/-- A system call that every machine has. -/
inductive SystemCommand where
  | terminate
  | panic
  | putc
  deriving DecidableEq, Repr

instance : Opcode SystemCommand where
  all := [.terminate, .panic, .putc]
  mnemonic
    | .terminate => "terminate"
    | .panic => "panic"
    | .putc => "putc"
  label
    | .terminate => "Terminate"
    | .panic => "Panic"
    | .putc => "Putc"

/-- An operation of any group. -/
inductive Operation where
  | arithmetic (op : ArithmeticOp)
  | move (op : MoveOp)
  | jump (op : JumpOp)
  | compare (op : CompareOp)
  | misc (op : MiscOp)
  deriving DecidableEq, Repr

namespace Operation

/-- The group of an operation. -/
def group : Operation → Group
  | arithmetic _ => .arithmetic
  | move _ => .move
  | jump _ => .jump
  | compare _ => .compare
  | misc _ => .misc

/-- The code of an operation within its group. -/
def code : Operation → Nat
  | arithmetic op => Opcode.code op
  | move op => Opcode.code op
  | jump op => Opcode.code op
  | compare op => Opcode.code op
  | misc op => Opcode.code op

/-- How an operation is written. -/
def spelling : Operation → Spelling
  | arithmetic op => op.spelling
  | move op => op.spelling
  | jump op => op.spelling
  | compare op => op.spelling
  | misc op => op.spelling

end Operation

end RegisterMachine
