import RegisterMachine.Proofs.Core.Actions
import RegisterMachine.Proofs.Instruction

/-!
# What assembly text does not show does not matter

The text of an instruction leaves out operand bytes, as the layout of its operation says. The bytes
that are left out are just never read, so that the text of an instruction settles what it does on
every machine.

* `Core.execute_visible`: an instruction does what it does without the bytes that are not shown.
* `Core.execute_of_unassigned`: what becomes of a word that names no operation.
* `Core.disassembly_faithful`: what the texts of words tell.
-/

namespace RegisterMachine

open Exec

/-! ## Bytes that are not shown -/

theorem Instruction.operation_keep (i : Instruction) (layout : Layout) :
    (i.keep layout).operation = i.operation := by
  cases layout <;> rfl

theorem Transfer.ofMove_keep (i : Instruction) (op : MoveOp) :
    ofMove (i.keep op.spelling.layout) op = ofMove i op := by
  cases op <;> rfl

theorem JumpForm.ofJump_keep (i : Instruction) (op : JumpOp) :
    ofJump (i.keep op.spelling.layout) op = ofJump i op := by
  cases op <;> rfl

/-- A unary operation does not depend on a second operand. -/
theorem ArithmeticOp.eval_unary {op : ArithmeticOp} (h : op.isUnary = true) (a b b' : Word) :
    op.eval a b = op.eval a b' := by
  cases op <;> first | rfl | cases h

namespace Core

variable {δ : Type}

theorem computed_keep (core : Core δ) (op : ArithmeticOp) (i : Instruction) :
    core.computed op (i.keep op.layout) = core.computed op i := by
  cases himmediate : op.isImmediate <;> cases hunary : op.isUnary
  case false.true =>
    have hlayout : op.layout = .two := by simp [ArithmeticOp.layout, himmediate, hunary]
    simp only [computed, himmediate, hlayout]
    exact ArithmeticOp.eval_unary hunary _ _ _
  case false.false =>
    have hlayout : op.layout = .three := by simp [ArithmeticOp.layout, himmediate, hunary]
    rw [hlayout]
    rfl
  all_goals
    have hlayout : op.layout = .destImmediate := by simp [ArithmeticOp.layout, himmediate]
    rw [hlayout]
    rfl

theorem executeArithmetic_keep (op : ArithmeticOp) (i : Instruction) :
    executeArithmetic (δ := δ) op (i.keep op.layout) = executeArithmetic op i := by
  have hdest : (i.keep op.layout).dest = i.dest := by cases op <;> rfl
  simp only [executeArithmetic_eq, computed_keep, hdest]

theorem executeJump_keep [Device δ] (op : JumpOp) (i : Instruction) :
    executeJump (δ := δ) op (i.keep op.spelling.layout) = executeJump op i := by
  rw [executeJump, executeJump, JumpForm.ofJump_keep]

variable [Device δ] (calls : SystemCallTable δ)

/-- An instruction does what it does without the bytes that its text does not show. System calls
are handed all bytes, and their text shows all. -/
theorem execute_visible (i : Instruction) : execute calls i.visible = execute calls i := by
  rw [Instruction.visible]
  cases hop : i.operation with
  | error fault => rfl
  | ok op =>
    have hkeep : (i.keep op.spelling.layout).operation = .ok op := by
      rw [Instruction.operation_keep, hop]
    dsimp only
    rw [execute_eq hkeep, execute_eq hop]
    cases op with
    | arithmetic op => exact executeArithmetic_keep op i
    | move op => exact congrArg executeTransfer (Transfer.ofMove_keep i op)
    | jump op => exact executeJump_keep op i
    | compare op => rfl
    | misc op => cases op; rfl

/-- A word that names no operation is refused in every state. -/
theorem execute_of_unassigned {i : Instruction} (h : i.Unassigned) :
    ∃ fault, ∀ core : Core δ, Gives core (execute calls i) (.error fault) core := by
  obtain ⟨fault, hop⟩ := Instruction.unassigned_iff.1 h
  exact ⟨fault, fun core => gives_execute_error core hop⟩

/-- **Assembly text tells what a word does.** Words with the same text do the same from every state,
with the same result and the same log. The text of a word starts with `.word` just if there is no
group with its group code or no operation of the group with its code, and then the word is refused
in every state and changes nothing. -/
theorem disassembly_faithful :
    (∀ word word' : UInt32,
      (Instruction.decode word).text = (Instruction.decode word').text →
      ∀ (core : Core δ) (log : Log),
        (execute calls (Instruction.decode word)).run core log =
          (execute calls (Instruction.decode word')).run core log) ∧
    ∀ word : UInt32,
      (".word".toList <+: (Instruction.decode word).text.toList ↔
        (Instruction.decode word).Unassigned) ∧
      ((Instruction.decode word).Unassigned → ∃ fault, ∀ core : Core δ,
        Gives core (execute calls (Instruction.decode word)) (.error fault) core) := by
  refine ⟨fun word word' h core log => ?_, fun word => ⟨?_, execute_of_unassigned calls⟩⟩
  · rw [← execute_visible calls (Instruction.decode word), Instruction.visible_eq_of_text_eq h,
      execute_visible]
  · exact Instruction.isPrefix_text_iff

/-- Pushes that differ in a byte that is not shown, and a word of a group that there is not. -/
theorem disassembly_faithful_push :
    let word := (Instruction.move .push 8 9).encode
    let word' := (Instruction.move .push 8 0).encode
    word ≠ word' ∧ (Instruction.decode word).text = "push r8" ∧
      (∀ (core : Core Empty) (log : Log),
        (execute .standard (Instruction.decode word)).run core log =
          (execute .standard (Instruction.decode word')).run core log) ∧
      (Instruction.decode 14).text = ".word 0x0000000e" ∧
      ∃ fault, ∀ core : Core Empty,
        Gives core (execute .standard (Instruction.decode 14)) (.error fault) core := by
  intro word word'
  obtain ⟨hsame, hword⟩ := disassembly_faithful (SystemCallTable.standard (δ := Empty))
  have htext : (Instruction.decode word).text = (Instruction.decode word').text := by
    decide +kernel
  have hprefix : ".word".toList <+: (Instruction.decode 14).text.toList := by decide +kernel
  obtain ⟨hiff, hrefused⟩ := hword 14
  exact ⟨by decide +kernel, by decide +kernel, hsame word word' htext, by decide +kernel,
    hrefused (hiff.1 hprefix)⟩

end Core

end RegisterMachine
