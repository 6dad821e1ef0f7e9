import RegisterMachine.Proofs.Core.Step
import RegisterMachine.Proofs.Instruction

/-!
# What instructions have no part in

An invariant that does not look at registers, memory and flags, and that accesses to devices keep,
is kept by every instruction but perhaps `putc`. Unlike `Core.Stable`, nothing is asked of the
registers: the profile may be any, and a write that is refused changes nothing anyway.

* `Core.Detached`: such invariants.
* `Core.Detached.keeps_execute`: instructions keep them.
* `Core.Detached.ensures_step`: what a step then does besides.
-/

namespace RegisterMachine.Core

open Exec

variable {δ : Type} [Device δ]

/-- An invariant that does not depend on registers, memory and flags, and that accesses to devices
keep. -/
structure Detached (I : Core δ → Prop) : Prop where
  registers : ∀ file core, I core → I (registersPart.set file core)
  memory : ∀ memory core, I core → I { core with memory }
  flags : ∀ advance status core, I core → I { core with advance, status }
  load : ∀ address, Keeps I (Exec.onPart devicesPart (Registry.load address))
  store : ∀ address value, Keeps I (Exec.onPart devicesPart (Registry.store address value))

namespace Detached
variable {I : Core δ → Prop} (h : Detached I)
include h

/-! ## Registers and stacks -/

section
variable (r : UInt8) (value address : Word)

theorem keeps_setRegister : Keeps I (setRegister r value) :=
  .onPart h.registers _

theorem keeps_setInstructionPointer : Keeps I (setInstructionPointer address) :=
  .get_bind fun _ _ => h.keeps_setRegister _ _

theorem keeps_pushData : Keeps I (pushData value) :=
  .get_bind fun _ _ => .get_bind fun _ _ =>
    (Keeps.onPart (fun _ core hc => h.memory _ core hc) _).bind fun _ =>
      .get_bind fun _ _ => h.keeps_setRegister _ _

theorem keeps_popData : Keeps I popData :=
  .get_bind fun _ _ => (Keeps.lift _).bind fun _ =>
    (Keeps.get_bind fun _ _ => h.keeps_setRegister _ _).bind fun _ => .pure _

theorem keeps_pushCall : Keeps I (pushCall address) :=
  .get_bind fun _ _ => .get_bind fun _ _ =>
    (Keeps.onPart (fun _ core hc => h.memory _ core hc) _).bind fun _ =>
      .get_bind fun _ _ => h.keeps_setRegister _ _

theorem keeps_popCall : Keeps I popCall :=
  .get_bind fun _ _ => (Keeps.lift _).bind fun _ =>
    (Keeps.get_bind fun _ _ => h.keeps_setRegister _ _).bind fun _ => .pure _

/-! ## Control -/

theorem keeps_jumpTo : Keeps I (do setInstructionPointer address; suppressAdvance) :=
  (h.keeps_setInstructionPointer _).bind fun _ => .modify fun core hc => h.flags _ _ core hc

theorem keeps_follow (flow : Flow) : Keeps I (follow flow) := by
  cases flow with
  | next => exact .get_bind fun _ _ => h.keeps_jumpTo _
  | goto address => exact h.keeps_jumpTo address
  | call address =>
    exact .get_bind fun _ _ => (h.keeps_pushCall _).bind fun _ => h.keeps_jumpTo address
  | ret => exact h.keeps_popCall.bind fun _ => h.keeps_jumpTo _

/-! ## Data -/

theorem keeps_loadData : Keeps I (loadData address) :=
  .get_bind fun _ _ => .ite (.get_bind fun _ _ => .lift _)
    ((h.load address).bind fun _ => .get_bind fun _ _ => .pure _)

theorem keeps_storeData : Keeps I (storeData address value) :=
  .get_bind fun _ _ => .get_bind fun _ _ =>
    .ite (.onPart (fun _ core hc => h.memory _ core hc) _) (h.store address _)

theorem keeps_readPlace (p : Place) : Keeps I (readPlace p) := by
  cases p with
  | register r => exact .get_bind fun _ _ => .pure _
  | memory r => exact .get_bind fun _ _ => h.keeps_loadData _
  | memoryAt address => exact h.keeps_loadData _
  | microcode r => exact .get_bind fun _ _ => .lift _

theorem keeps_writePlace (p : Place) : Keeps I (writePlace p value) := by
  cases p with
  | register r => exact h.keeps_setRegister r value
  | memory r => exact .get_bind fun _ _ => h.keeps_storeData _ _
  | memoryAt address => exact h.keeps_storeData _ _
  | microcode r =>
    exact .get_bind fun _ _ => .get_bind fun _ _ =>
      .onPart (fun _ core hc => h.memory _ core hc) _

theorem keeps_readOperand (operand : Operand) : Keeps I (readOperand operand) := by
  cases operand with
  | place p => exact h.keeps_readPlace p
  | literal value => exact .pure _

end

/-! ## Instructions -/

theorem keeps_executeTransfer (transfer : Transfer) : Keeps I (executeTransfer transfer) := by
  cases transfer with
  | copy dest source =>
    exact (h.keeps_readOperand source).bind fun _ => h.keeps_writePlace _ dest
  | swap a b =>
    refine (h.keeps_readPlace a).bind fun _ => (h.keeps_readPlace b).bind fun _ => ?_
    refine (h.keeps_writePlace _ a).bind fun _ => (h.keeps_writePlace _ b).tryCatch fun _ => ?_
    exact (h.keeps_writePlace _ a).bind fun _ => .throw _
  | push source => exact (h.keeps_readOperand source).bind fun _ => h.keeps_pushData _
  | pop dest =>
    refine Keeps.get_bind fun _ _ => (Keeps.lift _).bind fun _ => ?_
    exact (h.keeps_writePlace _ dest).bind fun _ => h.keeps_popData.bind fun _ => .pure _
  | peek dest =>
    exact .get_bind fun _ _ => (Keeps.lift _).bind fun _ => h.keeps_writePlace _ dest

/-- A system call keeps the invariant if it is not `putc` or that keeps it. -/
theorem keeps_systemCall {i : Instruction}
    (hputc : i.dest = Instruction.selector .putc → Keeps I (SystemCall.putc i)) :
    Keeps I (SystemCallTable.standard.handler i.dest i) := by
  rw [handler_standard]
  cases hc : (Opcode.ofCode? i.dest.toNat : Option SystemCommand) with
  | none => exact .throw _
  | some command =>
    cases command with
    | terminate =>
      exact .get_bind fun _ _ => (Keeps.note _ _).bind fun _ =>
        .modify fun core hc => h.flags _ _ core hc
    | panic => exact .throw _
    | putc => exact hputc (UInt8.toNat_inj.1 (Opcode.ofCode?_eq_some_iff.1 hc).symm)

/-- **An invariant that instructions have no part in is kept by them.** -/
theorem keeps_execute {i : Instruction}
    (hputc : i.operation = .ok (.misc .systemCall) → i.dest = Instruction.selector .putc →
      Keeps I (SystemCall.putc i)) : Keeps I (execute .standard i) := by
  cases hi : i.operation with
  | error fault => exact Keeps.of_gives (fun core => gives_execute_error core hi) fun _ hc => hc
  | ok op =>
    rw [execute_eq hi]
    cases op with
    | arithmetic op =>
      change Keeps I (executeArithmetic op i)
      rw [executeArithmetic_eq]
      exact .get_bind fun _ _ => (Keeps.lift _).bind fun _ => h.keeps_setRegister i.dest _
    | move op => exact h.keeps_executeTransfer _
    | jump op =>
      exact fun core log hc => ensures_executeJump ((h.keeps_follow _).ensures hc) log
    | compare op => exact .get_bind fun _ _ => .get_bind fun _ _ => h.keeps_setRegister _ _
    | misc op => exact h.keeps_systemCall (hputc hi)

/-! ## Steps -/

/-- The end of a step: its instruction has left a core with the invariant, and either the step is
counted there, or there is a fault and what `stop` does about it. -/
inductive Ends (I : Core δ → Prop) (stop : Core δ → Core δ) : Except Fault Unit → Core δ → Prop
  | counted {core : Core δ} (hc : I core) :
      Ends I stop (.ok ()) { core with steps := core.steps + 1 }
  | stopped {core : Core δ} {fault : Fault} (hc : I core) : Ends I stop (.error fault) (stop core)

variable {core : Core δ} (hc : I core)
include hc

theorem ensures_finish (address : Word) : Ensures core (finish address) (Ends I id) := by
  have hcount {core : Core δ} (hc : I core) : Ensures core countStep (Ends I id) :=
    (gives_countStep core).ensures (.counted hc)
  have hflag : I { core with advance := true } := h.flags true core.status core hc
  refine (gives_modifyGet core _).bind (Ensures.ite (fun _ => ?_) fun _ => hcount hflag)
  refine (gives_get _).bind (((h.keeps_setInstructionPointer _).ensures hflag).bind ?_ ?_)
  · exact fun _ _ hc => hcount hc
  · exact fun _ _ hc => .stopped hc

theorem ensures_executeNext (houtput : ∀ output core, I core → I (outputPart.set output core)) :
    Ensures core (executeNext .standard) (Ends I id) := by
  have hputc (i : Instruction) : Keeps I (SystemCall.putc i) :=
    .get_bind fun _ _ => .get_bind fun _ _ => (Keeps.lift _).bind fun _ => .onPart houtput _
  refine (gives_get core).bind ((gives_get core).bind ?_)
  cases hi : core.nextInstruction with
  | error fault => exact (gives_lift core _).bind_error (.stopped hc)
  | ok i =>
    refine (gives_lift core _).bind ((gives_note core _ _).bind ?_)
    refine ((h.keeps_execute fun _ _ => hputc i).ensures hc).bind ?_ ?_
    · exact fun _ _ hc => h.ensures_finish hc _
    · exact fun _ _ hc => .stopped hc

/-- **A step counts itself or stops the core**, whatever else its instruction does. -/
theorem ensures_step (houtput : ∀ output core, I core → I (outputPart.set output core))
    (hr : core.status = .running) : Ensures core (step .standard) (Ends I faulted) := by
  refine (gives_get core).bind ?_
  rw [if_pos hr]
  refine (h.ensures_executeNext hc houtput).tryCatch ?_ ?_
  · intro _ _ hend
    cases hend with
    | counted hc => exact .counted hc
  · intro fault _ hend
    cases hend with
    | stopped hc => exact (gives_stopWith _ fault).ensures (.stopped hc)

end Detached

end RegisterMachine.Core
