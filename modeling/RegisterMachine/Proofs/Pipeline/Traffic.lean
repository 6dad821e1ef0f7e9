import RegisterMachine.Pipeline.Run
import RegisterMachine.Proofs.Actor
import RegisterMachine.Proofs.Core.Actions

/-!
# The units of a pipeline

What a unit does in a pipeline that has the state of a core is said by what it does to the core.

* `Core.pipelined`: the running pipeline with the registers and the memory of a core.
* `Pipeline.gives_start`: a pipeline made from a core becomes that one.
* `Pipeline.gives_readRegister`, `Pipeline.gives_store`, `Pipeline.gives_branch`, ...: the units.
* `Pipeline.gives_popTo`: a pop into a register.
-/

namespace RegisterMachine

open Exec

variable {δ : Type}

/-- The memory controller with the memory of a core. -/
def Core.memoryUnit (core : Core δ) : MemoryUnit :=
  ⟨core.memory.data, core.memory.stack, core.memory.microcode, core.profile.wordMask⟩

/-- The branch unit with the call stack of a core. -/
def Core.branchUnit (core : Core δ) : BranchUnit :=
  ⟨core.memory.callStack, core.profile.wordMask⟩

/-- The running pipeline with the state of a core and an output of its own. -/
def Core.pipelined (core : Core δ) (output : Sink) : Pipeline where
  profile := core.profile
  code := core.memory.code
  decoder := ⟨(), some .ready, 1⟩
  registers := ⟨core.registers, some .ready, 1⟩
  arithmetic := ⟨⟨core.profile.wordMask⟩, some .ready, 1⟩
  comparator := ⟨(), some .ready, 1⟩
  branch := ⟨core.branchUnit, some .ready, 1⟩
  memory := ⟨core.memoryUnit, some .ready, 1⟩
  output := output
  status := core.status
  steps := core.steps

namespace MemoryUnit
variable {unit : MemoryUnit} (part : Part MemoryUnit (Segment Word)) {address : Word}
  (value : Word)

theorem gives_storeOperand (h : address.toNat < (part.get unit).capacity) :
    Gives unit (storeOperand part [address, value]) (.ok (value &&& unit.mask))
      (part.set ((part.get unit).put address (value &&& unit.mask)) unit) := by
  refine (FunctionalUnit.gives_operand _ _ rfl).bind ?_
  refine (FunctionalUnit.gives_operand _ _ rfl).bind ((gives_get unit).bind ?_)
  exact (Segment.gives_store h _).onPart.bind (gives_pure _ _)

theorem gives_storeOperand_outside (h : ¬address.toNat < (part.get unit).capacity) :
    Gives unit (storeOperand part [address, value]) (.error ((part.get unit).outside address))
      unit := by
  refine (FunctionalUnit.gives_operand _ _ rfl).bind ?_
  refine (FunctionalUnit.gives_operand _ _ rfl).bind ((gives_get unit).bind ?_)
  exact (Segment.gives_store_outside h _).onPart.bind_error ⟨rfl, part.set_get unit⟩

end MemoryUnit

namespace BranchUnit
variable (core : Core δ) (ip csp : Word)

theorem gives_follow_next :
    Gives core.branchUnit (follow ip csp .next) (.ok ⟨core.profile.mask (ip + 1), csp⟩)
      core.branchUnit :=
  (gives_get _).bind (gives_pure _ _)

theorem gives_follow_goto (address : Word) :
    Gives core.branchUnit (follow ip csp (.goto address))
      (.ok ⟨core.profile.mask address, csp⟩) core.branchUnit :=
  (gives_get _).bind (gives_pure _ _)

variable {core csp}

theorem gives_follow_call (h : (core.profile.mask (csp + 1)).toNat < core.memory.callStack.capacity)
    (address : Word) :
    Gives core.branchUnit (follow ip csp (.call address))
      (.ok ⟨core.profile.mask address, core.profile.mask (csp + 1)⟩)
      ⟨core.memory.callStack.put (core.profile.mask (csp + 1)) (core.profile.mask (ip + 1)),
        core.profile.wordMask⟩ :=
  (gives_get _).bind ((Segment.gives_push h _).onPart.bind (gives_pure _ _))

theorem gives_follow_call_full
    (h : ¬(core.profile.mask (csp + 1)).toNat < core.memory.callStack.capacity) (address : Word) :
    Gives core.branchUnit (follow ip csp (.call address))
      (.error (core.memory.callStack.outside (core.profile.mask (csp + 1)))) core.branchUnit :=
  (gives_get _).bind ((Segment.gives_push_outside h _).onPart.bind_error ⟨rfl, rfl⟩)

theorem gives_follow_ret {address : Word} (h : core.memory.callStack.load csp = .ok address) :
    Gives core.branchUnit (follow ip csp .ret)
      (.ok ⟨core.profile.mask address, core.profile.mask (csp - 1)⟩) core.branchUnit := by
  refine (gives_get _).bind ?_
  rw [Segment.pop_eq, show core.branchUnit.callStack.load csp = .ok address from h]
  exact gives_pure _ _

theorem gives_follow_ret_error {fault : Fault} (h : core.memory.callStack.load csp = .error fault) :
    Gives core.branchUnit (follow ip csp .ret) (.error fault) core.branchUnit := by
  refine (gives_get _).bind ?_
  rw [Segment.pop_eq, show core.branchUnit.callStack.load csp = .error fault from h]
  exact (gives_lift _ _).bind_error ⟨rfl, rfl⟩

end BranchUnit

namespace Pipeline
variable {core : Core δ}

/-- A pipeline that is made from a core and started has the state of the core. -/
theorem gives_start (hs : core.status = .running) (hn : core.steps = 0) (output : Sink) :
    Gives (ofMemory core.profile core.registers core.memory output) start (.ok ())
      (core.pipelined output) := by
  refine (Actor.gives_start decoderUnit rfl).onPart.bind ?_
  refine (Actor.gives_start registerUnit rfl).onPart.bind ?_
  refine (Actor.gives_start arithmeticUnit rfl).onPart.bind ?_
  refine (Actor.gives_start compareUnit rfl).onPart.bind ?_
  refine (Actor.gives_start branchUnit rfl).onPart.bind ?_
  refine (Actor.gives_start memoryUnit rfl).onPart.ensures ⟨rfl, ?_⟩
  rw [Core.pipelined, hs, hn]
  rfl

/-! ## Registers -/

theorem gives_readRegister (core : Core δ) (output : Sink) (r : UInt8) :
    Gives (core.pipelined output) (readRegister r) (.ok (core.register r))
      (core.pipelined output) := by
  have hx : Gives core.registers (registerUnit.execute (.read r) []) (.ok (core.register r))
      core.registers := (gives_get _).bind (gives_pure _ _)
  exact (Actor.gives_submit registerUnit rfl rfl hx).onPart

theorem gives_writeRegister (output : Sink) (h : core.Sound) {r : UInt8} (hr : 1 < r)
    (value : Word) :
    Gives (core.pipelined output) (writeRegister r value) (.ok ())
      ((core.put r (core.profile.mask value)).pipelined output) := by
  have hx : Gives core.registers (registerUnit.execute (.write r) [value])
      (.ok (core.profile.mask value)) (core.registers.put r (core.profile.mask value)) := by
    refine (FunctionalUnit.gives_operand _ _ rfl).bind ((RegisterFile.gives_set hr value).bind ?_)
    rw [RegisterFile.Sound.and_mask h]
    refine (gives_get _).bind ?_
    rw [RegisterFile.get_put_self]
    exact gives_pure _ _
  exact (Actor.gives_submit registerUnit rfl rfl hx).onPart.bind (gives_pure _ _)

theorem gives_writeRegister_protected (output : Sink) {r : UInt8} (hr : r ≤ 1) (value : Word) :
    Gives (core.pipelined output) (writeRegister r value) (.error (.writeProtected r))
      (core.pipelined output) := by
  have hx : Gives core.registers (registerUnit.execute (.write r) [value])
      (.error (.writeProtected r)) core.registers := by
    refine (FunctionalUnit.gives_operand _ _ rfl).bind ?_
    exact (RegisterFile.gives_set_protected hr value).bind_error ⟨rfl, rfl⟩
  exact (Actor.gives_submit registerUnit rfl rfl hx).onPart.bind_error ⟨rfl, rfl⟩

/-! ## Memory -/

section
variable {output : Sink} {op : MemoryOp} {operands : List Word} {o : Except Fault Word}

/-- What the memory controller does, the pipeline does. -/
theorem gives_access {core' : Core δ} (hlen : operands.length = op.operandCount)
    (hx : Gives core.memoryUnit (memoryUnit.execute op operands) o core'.memoryUnit)
    (hc : memoryPart.set ⟨core'.memoryUnit, some .ready, 1⟩ (core.pipelined output) =
      core'.pipelined output) :
    Gives (core.pipelined output) (access op operands) o (core'.pipelined output) :=
  hc ▸ (Actor.gives_submit memoryUnit rfl hlen hx).onPart

end

section
variable (core) (output : Sink) (address value : Word)

theorem gives_load :
    Gives (core.pipelined output) (access .load [address]) (core.memory.data.load address)
      (core.pipelined output) := by
  refine gives_access rfl ?_ rfl
  exact (FunctionalUnit.gives_operand _ _ rfl).bind ((gives_get _).bind (gives_lift _ _))

theorem gives_loadMicrocode :
    Gives (core.pipelined output) (access .loadMicrocode [address])
      (core.memory.microcode.load address) (core.pipelined output) := by
  refine gives_access rfl ?_ rfl
  exact (FunctionalUnit.gives_operand _ _ rfl).bind ((gives_get _).bind (gives_lift _ _))

theorem gives_peek :
    Gives (core.pipelined output) (access .peek [address]) (core.memory.stack.load address)
      (core.pipelined output) := by
  refine gives_access rfl ?_ rfl
  exact (FunctionalUnit.gives_operand _ _ rfl).bind ((gives_get _).bind (gives_lift _ _))

variable {core address value}

theorem gives_pop (h : core.memory.stack.load address = .ok value) :
    Gives (core.pipelined output) (access .pop [address])
      (.ok (core.profile.mask (address - 1))) (core.pipelined output) := by
  refine gives_access rfl ?_ rfl
  refine (FunctionalUnit.gives_operand _ _ rfl).bind ((gives_get core.memoryUnit).bind ?_)
  have hpop : core.memoryUnit.stack.pop address core.memoryUnit.mask =
      .ok (value, core.profile.mask (address - 1)) := by
    rw [Segment.pop_eq, show core.memoryUnit.stack.load address = .ok value from h]
    rfl
  rw [hpop]
  exact (gives_lift _ _).bind (gives_pure _ _)

variable (value)

theorem gives_store (h : address.toNat < core.memory.data.capacity) :
    Gives (core.pipelined output) (access .store [address, value]) (.ok (core.profile.mask value))
      ((core.fill (core.profile.mask value) (.data address)).pipelined output) :=
  gives_access rfl (MemoryUnit.gives_storeOperand MemoryUnit.dataPart value h) rfl

theorem gives_store_outside (h : ¬address.toNat < core.memory.data.capacity) :
    Gives (core.pipelined output) (access .store [address, value])
      (.error (core.memory.data.outside address)) (core.pipelined output) :=
  gives_access rfl (MemoryUnit.gives_storeOperand_outside MemoryUnit.dataPart value h) rfl

theorem gives_storeMicrocode (h : address.toNat < core.memory.microcode.capacity) :
    Gives (core.pipelined output) (access .storeMicrocode [address, value])
      (.ok (core.profile.mask value))
      ((core.fill (core.profile.mask value) (.microcode address)).pipelined output) :=
  gives_access rfl (MemoryUnit.gives_storeOperand MemoryUnit.microcodePart value h) rfl

theorem gives_storeMicrocode_outside (h : ¬address.toNat < core.memory.microcode.capacity) :
    Gives (core.pipelined output) (access .storeMicrocode [address, value])
      (.error (core.memory.microcode.outside address)) (core.pipelined output) :=
  gives_access rfl (MemoryUnit.gives_storeOperand_outside MemoryUnit.microcodePart value h) rfl

theorem gives_push (h : (core.profile.mask (address + 1)).toNat < core.memory.stack.capacity) :
    Gives (core.pipelined output) (access .push [address, value])
      (.ok (core.profile.mask (address + 1)))
      ((Core.stackPart.set (core.memory.stack.put (core.profile.mask (address + 1))
        (core.profile.mask value)) core).pipelined output) := by
  refine gives_access rfl ?_ rfl
  refine (FunctionalUnit.gives_operand _ _ rfl).bind ?_
  refine (FunctionalUnit.gives_operand _ _ rfl).bind ((gives_get core.memoryUnit).bind ?_)
  exact (Segment.gives_push h _).onPart

theorem gives_push_outside
    (h : ¬(core.profile.mask (address + 1)).toNat < core.memory.stack.capacity) :
    Gives (core.pipelined output) (access .push [address, value])
      (.error (core.memory.stack.outside (core.profile.mask (address + 1))))
      (core.pipelined output) := by
  refine gives_access rfl ?_ rfl
  refine (FunctionalUnit.gives_operand _ _ rfl).bind ?_
  refine (FunctionalUnit.gives_operand _ _ rfl).bind ((gives_get core.memoryUnit).bind ?_)
  exact (Segment.gives_push_outside h _).onPart

end

/-! ## Pops -/

section
variable (core) (output : Sink)

theorem gives_stackPointer :
    Gives (core.pipelined output) stackPointer (.ok core.stackPointer) (core.pipelined output) :=
  (gives_get _).bind (gives_readRegister core output _)

variable {core}

theorem gives_setStackPointer (hs : core.Sound) (hw : core.profile.Writable) (pointer : Word) :
    Gives (core.pipelined output) (setStackPointer pointer) (.ok ())
      ((core.put core.profile.registers.stackPointer (core.profile.mask pointer)).pipelined
        output) :=
  (gives_get _).bind (gives_writeRegister output hs hw.stackPointer pointer)

end

section
variable (output : Sink) {r : UInt8} {value : Word} {fault : Fault}

theorem gives_popTo_error (hv : core.memory.stack.load core.stackPointer = .error fault)
    (r : UInt8) :
    Gives (core.pipelined output) (executeTransfer (.pop (.register r))) (.error fault)
      (core.pipelined output) := by
  have hpeek := gives_peek core output core.stackPointer
  rw [hv] at hpeek
  exact (gives_stackPointer core output).bind (hpeek.bind_error ⟨rfl, rfl⟩)

variable (hv : core.memory.stack.load core.stackPointer = .ok value) (hs : core.Sound)
include hv

theorem gives_popTo_protected (hr : r ≤ 1) :
    Gives (core.pipelined output) (executeTransfer (.pop (.register r)))
      (.error (.writeProtected r)) (core.pipelined output) := by
  have hpeek := gives_peek core output core.stackPointer
  rw [hv] at hpeek
  refine (gives_stackPointer core output).bind (hpeek.bind ?_)
  exact (gives_writeRegister_protected output hr value).bind_error ⟨rfl, rfl⟩

include hs

/-- The value is taken off where the stack pointer was before the destination was written. -/
theorem gives_popTo (hw : core.profile.Writable) (hr : 1 < r) :
    Gives (core.pipelined output) (executeTransfer (.pop (.register r))) (.ok ())
      ((core.popped r value core.stackPointer).pipelined output) := by
  have hpeek := gives_peek core output core.stackPointer
  rw [hv] at hpeek
  refine (gives_stackPointer core output).bind (hpeek.bind ?_)
  refine (gives_writeRegister output hs hr value).bind ?_
  set written := core.put r (core.profile.mask value)
  have hwritten : written.memory.stack.load core.stackPointer = .ok value := hv
  refine (gives_pop output hwritten).bind ?_
  have hset := gives_setStackPointer output (hs.put hr value) hw
    (core.profile.mask (core.stackPointer - 1))
  rw [Core.put_profile, Profile.mask_mask] at hset
  exact hset

end

/-! ## The other units -/

theorem gives_eval (mask : Word) (op : ArithmeticOp) (a b : Word) :
    Gives ⟨mask⟩ (arithmeticUnit.execute op [a, b])
      ((op.eval (a &&& mask) (b &&& mask)).map (· &&& mask)) ⟨mask⟩ := by
  refine (gives_get _).bind ((FunctionalUnit.gives_operand _ _ rfl).bind ?_)
  refine (FunctionalUnit.gives_operand _ _ rfl).bind ?_
  cases op.eval (a &&& mask) (b &&& mask) with
  | ok value => exact (gives_lift _ _).bind (gives_pure _ _)
  | error fault => exact (gives_lift _ _).bind_error ⟨rfl, rfl⟩

section
variable (core) (output : Sink)

theorem gives_decode (word : UInt32) :
    Gives (core.pipelined output)
      (Exec.onPart decoderPart (Actor.submit decoderUnit .decode [word.toUInt64]))
      (.ok (Instruction.decode word)) (core.pipelined output) := by
  have hx : Gives (decoderPart.get (core.pipelined output)).state
      (decoderUnit.execute .decode [word.toUInt64]) (.ok (Instruction.decode word)) () := by
    have hlt : word.toUInt64.toNat < UInt32.size := by
      rw [UInt32.toNat_toUInt64]
      exact word.toNat_lt
    refine (FunctionalUnit.gives_operand _ _ rfl).bind ?_
    rw [if_pos hlt, UInt32.toUInt32_toUInt64]
    exact gives_pure _ _
  exact (Actor.gives_submit decoderUnit rfl rfl hx).onPart

theorem gives_arithmetic (op : ArithmeticOp) (a b : Word) :
    Gives (core.pipelined output)
      (Exec.onPart arithmeticPart (Actor.submit arithmeticUnit op [a, b]))
      ((op.eval (core.profile.mask a) (core.profile.mask b)).map core.profile.mask)
      (core.pipelined output) := by
  have hx : Gives (arithmeticPart.get (core.pipelined output)).state
      (arithmeticUnit.execute op [a, b])
      ((op.eval (core.profile.mask a) (core.profile.mask b)).map core.profile.mask)
      ⟨core.profile.wordMask⟩ := gives_eval core.profile.wordMask op a b
  exact (Actor.gives_submit arithmeticUnit rfl rfl hx).onPart

theorem gives_compare (op : CompareOp) (predicate a b : Word) :
    Gives (core.pipelined output)
      (Exec.onPart comparatorPart (Actor.submit compareUnit op [predicate, a, b]))
      (.ok (if op.eval (predicate != 0) a b then 1 else 0)) (core.pipelined output) := by
  have hx : Gives (comparatorPart.get (core.pipelined output)).state
      (compareUnit.execute op [predicate, a, b])
      (.ok (if op.eval (predicate != 0) a b then 1 else 0)) () := by
    refine (FunctionalUnit.gives_operand _ _ rfl).bind ?_
    refine (FunctionalUnit.gives_operand _ _ rfl).bind ?_
    exact (FunctionalUnit.gives_operand _ _ rfl).bind (gives_pure _ _)
  exact (Actor.gives_submit compareUnit rfl rfl hx).onPart

variable {core}

/-- The branch unit goes where the flow of a jump leads. -/
theorem gives_branch {form : JumpForm Word} {o : Except Fault BranchOutcome}
    {callStack : Segment Word}
    (hx : Gives core.branchUnit (BranchUnit.follow core.instructionPointer core.callPointer
      (form.flow core.predicate)) o ⟨callStack, core.profile.wordMask⟩) :
    Gives (core.pipelined output)
      (Exec.onPart branchPart (Actor.submit branchUnit form [core.instructionPointer,
        core.register core.profile.registers.predicate, core.callPointer])) o
      ((Core.callStackPart.set callStack core).pipelined output) := by
  have hunit : Gives core.branchUnit (branchUnit.execute form [core.instructionPointer,
      core.register core.profile.registers.predicate, core.callPointer]) o
      ⟨callStack, core.profile.wordMask⟩ := by
    refine (FunctionalUnit.gives_operand _ _ rfl).bind ?_
    refine (FunctionalUnit.gives_operand _ _ rfl).bind ?_
    exact (FunctionalUnit.gives_operand _ _ rfl).bind hx
  exact (Actor.gives_submit branchUnit rfl rfl hunit).onPart

end

end Pipeline

end RegisterMachine
