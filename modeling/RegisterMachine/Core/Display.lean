import RegisterMachine.Core.Basic
import RegisterMachine.Text.Table

/-!
# Showing a core

A core is shown as a heading and three tables side by side: the registers, and the top of each
stack. Special registers are always listed, other registers only once they hold something. A
stack is listed if its pointer is inside it, down to the eighth cell from the top.
-/

namespace RegisterMachine.Core

variable {δ : Type}

/-- A table of two columns. -/
def contentsTable (title : String) (rows : List (String × Word)) : Table where
  titles := [.ofText .right title, .ofText .left "Contents"]
  rows := rows.map fun (name, value) => [.ofText .right name, .ofText .left (hex value.toNat)]

/-- The table of the registers. -/
def registerTable (core : Core δ) : Table :=
  contentsTable "Register" <| core.registers.toList.filterMap fun (r, value) =>
    match core.profile.registers.name? r with
    | some name => some (name ++ " " ++ Instruction.registerName r ++ " =", value)
    | none => if value = 0 then none else some (Instruction.registerName r ++ " =", value)

/-- The table of the top of a stack. -/
def stackTable (letter : String) (stack : Segment Word) (pointer : Word) : Table :=
  contentsTable "Address" <|
    let top := pointer.toNat
    if top < stack.capacity then
      let bottom := top - 7
      (List.range' bottom (top + 1 - bottom)).map fun index =>
        let marker := if index = top then "* --> " else ""
        (s!"{marker}{letter}[{index}] =", stack.cells.getD index 0)
    else []

/-- The text of the instruction that is next. -/
def nextText (core : Core δ) : String :=
  match core.nextInstruction with
  | .ok instruction => instruction.text
  | .error _ => "<outside code>"

/-- The text of a core. -/
def display (core : Core δ) : String :=
  let table : Table :=
    { titles := ["Registers", "Data Stack", "Call Stack"].map (.ofText .left)
      rows := [[⟨.left, core.registerTable.lines⟩,
        ⟨.left, (stackTable "S" core.memory.stack core.stackPointer).lines⟩,
        ⟨.left, (stackTable "C" core.memory.callStack core.callPointer).lines⟩]] }
  let heading := core.profile.generation.name ++ " core: " ++ core.status.name ++
    s!"\tSteps: {core.steps}\tNext: " ++ core.nextText
  String.join ((heading :: table.lines).map (· ++ "\n"))

end RegisterMachine.Core
