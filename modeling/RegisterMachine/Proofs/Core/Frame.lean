import RegisterMachine.Core.Run
import RegisterMachine.Proofs.Core.Actions

/-!
# What an instruction leaves alone

`Operation.writes` lists the registers that an operation may write. An invariant that bears with
every way an instruction may change a core is `Core.Stable`; it is proved of those few changes and
then holds of whole instructions and steps, also of those that fault.

* `Core.Stable.keeps_execute`: any instruction but a jump.
* `Core.Lasting.keeps_execute`: any instruction, if the invariant bears with calls as well.
* `Core.Invariant.keeps_execute`: the same if all registers may be written.
-/

namespace RegisterMachine

/-- The registers that a place is. -/
def Place.registers : Place → List UInt8
  | register r => [r]
  | _ => []

/-- The registers that a transfer may write. -/
def Transfer.writes (special : SpecialRegisters) : Transfer → List UInt8
  | copy dest _ => dest.registers
  | swap a b => a.registers ++ b.registers
  | push _ => [special.stackPointer]
  | pop dest => special.stackPointer :: dest.registers
  | peek dest => dest.registers

/-- The registers that an operation may write. That the instruction pointer moves on after it is
not counted. -/
def Operation.writes (special : SpecialRegisters) (i : Instruction) : Operation → List UInt8
  | arithmetic _ => [i.dest]
  | move op => (Transfer.ofMove i op).writes special
  | jump _ => [special.instructionPointer, special.callPointer]
  | compare _ => [special.predicate]
  | misc _ => []

namespace Core

open Exec

variable {δ α : Type}

/-- An invariant of cores with a profile that bears with writing registers in `writes` and with
every change of the rest but the code, the call stack and the counters of the run loop. The data
stack changes only where its pointer does. -/
structure Stable (profile : Profile) (writes : UInt8 → Prop) (I : Core δ → Prop) : Prop where
  profile_eq : ∀ core, I core → core.profile = profile
  sound : ∀ core, I core → core.Sound
  put : ∀ core r value, writes r → 1 < r → I core → I (core.put r (profile.mask value))
  data : ∀ core address value, I core → I (core.fill (profile.mask value) (.data address))
  microcode : ∀ core address value, I core → I (core.fill (profile.mask value) (.microcode address))
  stack : ∀ core address value, writes profile.registers.stackPointer → I core →
    I (stackPart.set (core.memory.stack.put address (profile.mask value)) core)
  devices : ∀ core devices, I core → I (devicesPart.set devices core)
  output : ∀ core output, I core → I (outputPart.set output core)
  status : ∀ core status, I core → I { core with status }

namespace Stable
variable {profile : Profile} {writes : UInt8 → Prop} {I : Core δ → Prop}
  (h : Stable profile writes I) (hw : profile.Writable)
include h

/-! ## Actions -/

theorem keeps_readPlace [Device δ] (p : Place) : Keeps I (readPlace p) := by
  intro core log hc
  obtain ⟨⟨devices, hread⟩, -⟩ := ensures_readPlace core p log
  exact hread ▸ h.devices core devices hc

theorem keeps_readOperand [Device δ] (operand : Operand) : Keeps I (readOperand operand) := by
  cases operand with
  | place p => exact h.keeps_readPlace p
  | literal value => exact Keeps.pure _

theorem keeps_setRegister {r : UInt8} (hr : writes r) (value : Word) :
    Keeps I (setRegister r value) := by
  intro core log hc
  by_cases h₁ : 1 < r
  · rw [(gives_setRegister (h.sound core hc).mask_eq h₁ value).final_eq log, h.profile_eq core hc]
    exact h.put core r value hr h₁ hc
  · rw [(gives_setRegister_protected (UInt8.not_lt.1 h₁) value).final_eq log]
    exact hc

theorem keeps_writePlace [Device δ] {p : Place} (hp : ∀ r ∈ p.registers, writes r) (value : Word) :
    Keeps I (writePlace p value) := by
  intro core log hc
  by_cases ht : core.Takes (core.cell p)
  · rw [(gives_writePlace (h.sound core hc).mask_eq ht value).final_eq log, h.profile_eq core hc]
    generalize hcell : core.cell p = cell at ht ⊢
    cases cell with
    | register r =>
      cases eq_register_of_cell hcell
      exact h.put core r value (hp r List.mem_cons_self) ht hc
    | data address => exact h.data core address value hc
    | device address => exact hc
    | microcode address => exact h.microcode core address value hc
  · obtain ⟨devices, hwrite⟩ := ensures_writePlace ht value log
    exact hwrite ▸ h.devices core devices hc

include hw

theorem keeps_pushData (hr : writes profile.registers.stackPointer) (value : Word) :
    Keeps I (pushData value) := by
  intro core log hc
  have hwc : core.profile.Writable := h.profile_eq core hc ▸ hw
  by_cases hroom : core.stackSlot.toNat < core.memory.stack.capacity
  · rw [(gives_pushData (h.sound core hc).mask_eq hwc hroom value).final_eq log, pushed, stackSlot,
      h.profile_eq core hc]
    exact h.put _ _ _ hr hw.stackPointer (h.stack core _ value hr hc)
  · rw [(gives_pushData_full hroom value).final_eq log]
    exact hc

theorem keeps_popData (hr : writes profile.registers.stackPointer) : Keeps I popData := by
  intro core log hc
  have hwc : core.profile.Writable := h.profile_eq core hc ▸ hw
  cases hv : core.memory.stack.load core.stackPointer with
  | ok value =>
    rw [(gives_popData (h.sound core hc).mask_eq hwc hv).final_eq log, h.profile_eq core hc]
    exact h.put core _ _ hr hw.stackPointer hc
  | error fault =>
    rw [(gives_popData_error hv).final_eq log]
    exact hc

/-! ## Instructions -/

theorem keeps_executeTransfer [Device δ] {transfer : Transfer}
    (ht : ∀ r ∈ transfer.writes profile.registers, writes r) :
    Keeps I (executeTransfer transfer) := by
  cases transfer with
  | copy dest source =>
    exact (h.keeps_readOperand source).bind fun value => h.keeps_writePlace ht value
  | swap a b =>
    have ha : ∀ r ∈ a.registers, writes r := fun r hr => ht r (List.mem_append_left _ hr)
    have hb : ∀ r ∈ b.registers, writes r := fun r hr => ht r (List.mem_append_right _ hr)
    refine (h.keeps_readPlace a).bind fun first => (h.keeps_readPlace b).bind fun second => ?_
    refine (h.keeps_writePlace ha second).bind fun _ => (h.keeps_writePlace hb first).tryCatch ?_
    exact fun fault => (h.keeps_writePlace ha first).bind fun _ => Keeps.throw fault
  | push source =>
    exact (h.keeps_readOperand source).bind fun value =>
      h.keeps_pushData hw (ht _ List.mem_cons_self) value
  | pop dest =>
    have hd : ∀ r ∈ dest.registers, writes r := fun r hr => ht r (List.mem_cons_of_mem _ hr)
    refine Keeps.get_bind fun core _ => (Keeps.lift _).bind fun value => ?_
    refine (h.keeps_writePlace hd value).bind fun _ => ?_
    exact (h.keeps_popData hw (ht _ List.mem_cons_self)).bind fun _ => Keeps.pure _
  | peek dest =>
    refine Keeps.get_bind fun core _ => (Keeps.lift _).bind fun value => ?_
    exact h.keeps_writePlace ht value

omit hw

theorem keeps_executeArithmetic (op : ArithmeticOp) {i : Instruction} (hr : writes i.dest) :
    Keeps I (executeArithmetic op i) := by
  rw [executeArithmetic_eq]
  refine Keeps.get_bind fun core _ => (Keeps.lift _).bind fun value => ?_
  exact h.keeps_setRegister hr value

theorem keeps_executeCompare (op : CompareOp) (i : Instruction)
    (hr : writes profile.registers.predicate) : Keeps I (executeCompare op i) := by
  refine Keeps.get_bind fun _ _ => Keeps.get_bind fun core hc => ?_
  rw [h.profile_eq core hc]
  exact h.keeps_setRegister hr _

theorem keeps_systemCall (selector : UInt8) (i : Instruction) :
    Keeps I (SystemCallTable.standard.handler selector i) := by
  rw [handler_standard]
  generalize (Opcode.ofCode? selector.toNat : Option SystemCommand) = command
  rcases command with _ | _ | _ | _
  · exact Keeps.throw _
  · refine Keeps.get_bind fun _ _ => (Keeps.note _ _).bind fun _ => ?_
    exact Keeps.modify fun core hc => h.status core _ hc
  · exact Keeps.throw _
  · refine Keeps.get_bind fun _ _ => Keeps.get_bind fun _ _ => (Keeps.lift _).bind fun _ => ?_
    exact Keeps.onPart (fun _ core hc => h.output core _ hc) _

include hw

/-- **An invariant that is stable under what an instruction writes is kept by it**, unless the
    instruction is a jump. -/
theorem keeps_execute [Device δ] {i : Instruction} {op : Operation} (hi : i.operation = .ok op)
    (hop : ∀ r ∈ op.writes profile.registers i, writes r) (hj : op.group ≠ .jump) :
    Keeps I (execute .standard i) := by
  rw [execute_eq hi]
  cases op with
  | arithmetic op => exact h.keeps_executeArithmetic op (hop _ List.mem_cons_self)
  | move op => exact h.keeps_executeTransfer hw hop
  | jump op => exact absurd rfl hj
  | compare op => exact h.keeps_executeCompare op i (hop _ List.mem_cons_self)
  | misc op => exact h.keeps_systemCall i.dest i

end Stable

/-! ## Jumps -/

/-- An invariant of cores with a profile that bears with writing registers in `writes` and with
every change of the rest but the code. The data stack changes only where its pointer does. -/
structure Lasting (profile : Profile) (writes : UInt8 → Prop) (I : Core δ → Prop) : Prop extends
    Stable profile writes I where
  callStack : ∀ core address value, I core →
    I (callStackPart.set (core.memory.callStack.put address (profile.mask value)) core)
  flags : ∀ core advance status steps, I core → I { core with advance, status, steps }

namespace Lasting
variable {profile : Profile} {writes : UInt8 → Prop} {I : Core δ → Prop}
  (h : Lasting profile writes I) (hw : profile.Writable)
include h hw

section
variable (hcsp : writes profile.registers.callPointer)
include hcsp

theorem keeps_pushCall (address : Word) : Keeps I (pushCall address) := by
  intro core log hc
  have hwc : core.profile.Writable := h.profile_eq core hc ▸ hw
  by_cases hroom : core.callSlot.toNat < core.memory.callStack.capacity
  · rw [(gives_pushCall (h.sound core hc).mask_eq hwc hroom address).final_eq log, called, callSlot,
      h.profile_eq core hc]
    exact h.put _ _ _ hcsp hw.callPointer (h.callStack core _ address hc)
  · rw [(gives_pushCall_full hroom address).final_eq log]
    exact hc

theorem keeps_popCall : Keeps I popCall := by
  intro core log hc
  have hwc : core.profile.Writable := h.profile_eq core hc ▸ hw
  cases ha : core.memory.callStack.load core.callPointer with
  | ok address =>
    rw [(gives_popCall (h.sound core hc).mask_eq hwc ha).final_eq log, h.profile_eq core hc]
    exact h.put core _ _ hcsp hw.callPointer hc
  | error fault =>
    rw [(gives_popCall_error ha).final_eq log]
    exact hc

theorem keeps_follow (hip : writes profile.registers.instructionPointer) (flow : Flow) :
    Keeps I (follow flow) := by
  have hgo (address : Word) : Keeps I (do setInstructionPointer address; suppressAdvance) := by
    refine Keeps.bind (Keeps.get_bind fun core hc => ?_) fun _ =>
      Keeps.modify fun core hc => h.flags core _ _ _ hc
    rw [h.profile_eq core hc]
    exact h.keeps_setRegister hip address
  cases flow with
  | next => exact Keeps.get_bind fun core _ => hgo _
  | goto address => exact hgo address
  | call address =>
    exact Keeps.get_bind fun core _ => (h.keeps_pushCall hw hcsp _).bind fun _ => hgo address
  | ret => exact (h.keeps_popCall hw hcsp).bind fun address => hgo address

end

/-- **An invariant that bears with what an instruction writes is kept by it.** -/
theorem keeps_execute [Device δ] {i : Instruction} {op : Operation} (hi : i.operation = .ok op)
    (hop : ∀ r ∈ op.writes profile.registers i, writes r) : Keeps I (execute .standard i) := by
  by_cases hj : op.group = .jump
  · rw [execute_eq hi]
    cases op with
    | jump op =>
      have hip := hop _ List.mem_cons_self
      have hcsp := hop _ (List.mem_cons_of_mem _ List.mem_cons_self)
      exact fun _ log hc => ensures_executeJump ((h.keeps_follow hw hcsp hip _).ensures hc) log
    | _ => cases hj
  · exact h.toStable.keeps_execute hw hi hop hj

end Lasting

/-- An invariant of cores with a profile that bears with every change of a core but of the code. -/
structure Invariant (profile : Profile) (I : Core δ → Prop) : Prop extends
    Lasting profile (fun _ => True) I

/-- **An invariant that bears with every change is kept by every instruction.** -/
theorem Invariant.keeps_execute [Device δ] {profile : Profile} {I : Core δ → Prop}
    (h : Invariant profile I) (hw : profile.Writable) (i : Instruction) :
    Keeps I (execute .standard i) := by
  cases hi : i.operation with
  | ok op => exact h.toLasting.keeps_execute hw hi fun _ _ => trivial
  | error fault => exact Keeps.of_gives (fun core => gives_execute_error core hi) fun _ hc => hc

end Core

end RegisterMachine
