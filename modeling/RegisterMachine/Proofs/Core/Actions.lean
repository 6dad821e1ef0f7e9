import RegisterMachine.Core.Execute
import RegisterMachine.Proofs.Layout
import RegisterMachine.Proofs.RegisterFile
import RegisterMachine.Proofs.Segment

/-!
# What the actions of a core do

A place names a cell: a register, a cell of data memory or of microcode, or an address that
belongs to the devices. Devices answer as they like; everything else is exact.

* `Core.Cell`, `Core.cell`: the cell that a place names.
* `Core.gives_writePlace`, `Core.ensures_writePlace`: a write fills a cell that takes words, and
  changes nothing but the devices otherwise.
* `Core.ensures_readPlace`: a read answers what the cell holds.
* `Core.gives_pushData`, `Core.gives_pushCall`, ...: the stacks.
* `Core.gives_pop`, `Core.gives_pop_lost`: a pop into a register.
* `Core.gives_follow_next`, `Core.gives_follow_call`, ...: the four ways for control to go.
-/

namespace RegisterMachine

/-- A jump with other targets. -/
def JumpForm.map {α β : Type} (f : α → β) : JumpForm α → JumpForm β
  | unconditional call target => unconditional call (f target)
  | conditional call polarity target => conditional call polarity (f target)
  | select call polarity yes no => select call polarity (f yes) (f no)
  | ret => ret

namespace Registry

variable {δ : Type} [Device δ] {registry : Registry δ} (h : registry.slots = [])
include h

theorem gives_load_of_empty (address : Word) :
    Exec.Gives registry (load address) (.error (.unmappedAddress address)) registry := by
  obtain ⟨slots, accesses⟩ := registry
  cases h
  exact fun _ => ⟨rfl, rfl⟩

theorem gives_store_of_empty (address value : Word) :
    Exec.Gives registry (store address value) (.error (.unmappedAddress address)) registry := by
  obtain ⟨slots, accesses⟩ := registry
  cases h
  exact fun _ => ⟨rfl, rfl⟩

end Registry

namespace Core

open Exec

variable {δ α : Type} {core : Core δ}

/-! ## Registers -/

/-- The core with a value put in a register as it is. -/
def put (core : Core δ) (r : UInt8) (value : Word) : Core δ :=
  { core with registers := core.registers.put r value }

section
variable (core : Core δ) (r : UInt8) (value : Word)

@[simp] theorem put_profile : (core.put r value).profile = core.profile := rfl

@[simp] theorem put_memory : (core.put r value).memory = core.memory := rfl

@[simp] theorem register_put_self : (core.put r value).register r = value :=
  RegisterFile.get_put_self _ _ _

@[simp] theorem put_put_self (value' : Word) :
    (core.put r value).put r value' = core.put r value' := by
  simp [put]

@[simp] theorem put_register : core.put r (core.register r) = core := by
  simp [put, register]

end

theorem register_put_of_ne {r q : UInt8} (h : q ≠ r) (value : Word) :
    (core.put r value).register q = core.register q :=
  RegisterFile.get_put_of_ne _ h _

/-- The registers are those of a machine with the core's profile. -/
def Sound (core : Core δ) : Prop :=
  core.registers.Sound core.profile

theorem Sound.put (h : core.Sound) {r : UInt8} (hr : 1 < r) (value : Word) :
    (core.put r (core.profile.mask value)).Sound :=
  RegisterFile.Sound.put h hr (core.profile.mask_le value)

theorem Sound.mask_eq (h : core.Sound) : core.registers.mask = core.profile.wordMask :=
  RegisterFile.Sound.mask_eq h

theorem Sound.mask_register (h : core.Sound) {r : UInt8} (hr : 1 < r) :
    core.profile.mask (core.register r) = core.register r :=
  RegisterFile.Sound.mask_get h hr

/-- All that a write needs of the registers is that they keep words of the core's profile. -/
theorem gives_setRegister (h : core.registers.mask = core.profile.wordMask) {r : UInt8}
    (hr : 1 < r) (value : Word) :
    Gives core (setRegister r value) (.ok ()) (core.put r (core.profile.mask value)) := by
  rw [Profile.mask, ← h]
  exact (RegisterFile.gives_set hr value).onPart

theorem gives_setRegister_protected {r : UInt8} (hr : r ≤ 1) (value : Word) :
    Gives core (setRegister r value) (.error (.writeProtected r)) core :=
  (RegisterFile.gives_set_protected hr value).onPart

section
variable (h : core.registers.mask = core.profile.wordMask) (hw : core.profile.Writable)
include h hw

theorem gives_setInstructionPointer (address : Word) :
    Gives core (setInstructionPointer address) (.ok ())
      (core.put core.profile.registers.instructionPointer (core.profile.mask address)) :=
  (gives_get core).bind (gives_setRegister h hw.instructionPointer address)

theorem gives_setStackPointer (pointer : Word) :
    Gives core (setStackPointer pointer) (.ok ())
      (core.put core.profile.registers.stackPointer (core.profile.mask pointer)) :=
  (gives_get core).bind (gives_setRegister h hw.stackPointer pointer)

theorem gives_setCallPointer (pointer : Word) :
    Gives core (setCallPointer pointer) (.ok ())
      (core.put core.profile.registers.callPointer (core.profile.mask pointer)) :=
  (gives_get core).bind (gives_setRegister h hw.callPointer pointer)

theorem gives_setPredicate (value : Bool) :
    Gives core (setPredicate value) (.ok ())
      (core.put core.profile.registers.predicate (core.profile.mask (if value then 1 else 0))) :=
  (gives_get core).bind (gives_setRegister h hw.predicate _)

end

/-! ## Cells -/

/-- Two cores are equal but for the devices. -/
def UpToDevices (core core' : Core δ) : Prop :=
  ∃ devices, core' = devicesPart.set devices core

theorem UpToDevices.refl (core : Core δ) : core.UpToDevices core := ⟨core.devices, rfl⟩

theorem ensures_onDevices (core : Core δ) (x : Exec (Registry δ) α) :
    Ensures core (Exec.onPart devicesPart x) fun _ core' => core.UpToDevices core' :=
  Ensures.onPart fun _ => ⟨_, rfl⟩

theorem Sound.setDevices (h : core.Sound) (devices : Registry δ) :
    (devicesPart.set devices core).Sound := h

/-- Where a value lives once the addresses in registers have been read. -/
inductive Cell where
  | register (r : UInt8)
  | data (address : Word)
  /-- An address above data memory. -/
  | device (address : Word)
  | microcode (address : Word)
  deriving DecidableEq

/-- The cell at a data address. -/
def cellAt (core : Core δ) (address : Word) : Cell :=
  if core.inMemory address then .data address else .device address

/-- The cell that a place names. -/
def cell (core : Core δ) : Place → Cell
  | .register r => .register r
  | .memory r => core.cellAt (core.register r)
  | .memoryAt address => core.cellAt address.toUInt64
  | .microcode r => .microcode (core.register r)

/-- Whether a cell keeps what is written to it. What a device does is not known. -/
def Takes (core : Core δ) : Cell → Prop
  | .register r => 1 < r
  | .data address => address.toNat < core.memory.data.capacity
  | .device _ => False
  | .microcode address => address.toNat < core.memory.microcode.capacity

/-- Whether a cell holds a value. A device may answer any. -/
def Holds (core : Core δ) (value : Word) : Cell → Prop
  | .register r => core.register r = value
  | .data address => core.memory.data.load address = .ok value
  | .device _ => True
  | .microcode address => core.memory.microcode.load address = .ok value

/-- The core with another value in a cell. -/
def fill (core : Core δ) (value : Word) : Cell → Core δ
  | .register r => core.put r value
  | .data address => dataPart.set (core.memory.data.put address value) core
  | .device _ => core
  | .microcode address => microcodePart.set (core.memory.microcode.put address value) core

theorem eq_register_of_cell {p : Place} {r : UInt8} (h : core.cell p = .register r) :
    p = .register r := by
  cases p with
  | register q => cases h; rfl
  | memory q | memoryAt q => rw [cell, cellAt] at h; split_ifs at h
  | microcode q => cases h

theorem inMemory_iff {address : Word} :
    core.inMemory address = true ↔ address.toNat < core.memory.data.capacity :=
  decide_eq_true_iff

section
variable [Device δ] {address value : Word}

theorem gives_loadData (h : core.memory.data.load address = .ok value) :
    Gives core (loadData address) (.ok value) core := by
  have hm : core.inMemory address = true := inMemory_iff.2 (Segment.lt_capacity_of_load h)
  refine (gives_get core).bind ?_
  rw [if_pos hm]
  refine (gives_get core).bind ?_
  rw [h]
  exact gives_pure core value

theorem ensures_loadData_device (h : ¬core.inMemory address = true) :
    Ensures core (loadData address) fun _ core' => core.UpToDevices core' := by
  refine (gives_get core).bind ?_
  rw [if_neg h]
  refine (ensures_onDevices core _).bind (fun value core' hc => ?_) fun _ _ hc => hc
  exact (gives_get core').bind ((gives_pure core' _).ensures hc)

theorem ensures_loadData (address : Word) :
    Ensures core (loadData address) fun o core' =>
      core.UpToDevices core' ∧ ∀ value, o = .ok value → core.Holds value (core.cellAt address) := by
  by_cases h : core.inMemory address = true
  · obtain ⟨value, hv⟩ := Segment.exists_load (inMemory_iff.1 h)
    refine (gives_loadData hv).ensures ⟨.refl core, ?_⟩
    rintro _ ⟨⟩
    rwa [cellAt, if_pos h]
  · refine (ensures_loadData_device h).mono fun o core' hc => ⟨hc, fun value _ => ?_⟩
    rw [cellAt, if_neg h]
    exact trivial

theorem gives_storeData (h : core.inMemory address = true) (value : Word) :
    Gives core (storeData address value) (.ok ())
      (core.fill (core.profile.mask value) (.data address)) := by
  refine (gives_get core).bind ((gives_get core).bind ?_)
  rw [if_pos h]
  exact (Segment.gives_store (inMemory_iff.1 h) _).onPart

theorem ensures_storeData_device (h : ¬core.inMemory address = true) (value : Word) :
    Ensures core (storeData address value) fun _ core' => core.UpToDevices core' := by
  refine (gives_get core).bind ((gives_get core).bind ?_)
  rw [if_neg h]
  exact ensures_onDevices core _

theorem gives_loadData_of_empty (hd : core.devices.slots = []) (h : ¬core.inMemory address = true) :
    Gives core (loadData address) (.error (.unmappedAddress address)) core := by
  refine (gives_get core).bind ?_
  rw [if_neg h]
  exact (Registry.gives_load_of_empty hd address).onPart.bind_error ⟨rfl, rfl⟩

theorem gives_storeData_of_empty (hd : core.devices.slots = []) (h : ¬core.inMemory address = true)
    (value : Word) :
    Gives core (storeData address value) (.error (.unmappedAddress address)) core := by
  refine (gives_get core).bind ((gives_get core).bind ?_)
  rw [if_neg h]
  exact (Registry.gives_store_of_empty hd address _).onPart

end

/-! ## Places -/

theorem takes_cellAt {address : Word} :
    core.Takes (core.cellAt address) ↔ core.inMemory address = true := by
  rw [cellAt]
  split_ifs with h
  · exact iff_of_true (inMemory_iff.1 h) h
  · exact iff_of_false id h

section
variable [Device δ] (core : Core δ) (p : Place)

/-- A read changes nothing but the devices, and answers what the cell holds. -/
theorem ensures_readPlace :
    Ensures core (readPlace p) fun o core' =>
      core.UpToDevices core' ∧ ∀ value, o = .ok value → core.Holds value (core.cell p) := by
  cases p with
  | register r =>
    refine (gives_get core).bind ((gives_pure core _).ensures ⟨.refl core, ?_⟩)
    rintro _ ⟨⟩
    rfl
  | memory r => exact (gives_get core).bind (ensures_loadData _)
  | memoryAt address => exact ensures_loadData _
  | microcode r =>
    refine (gives_get core).bind ((gives_lift core _).ensures ⟨.refl core, fun value h => ?_⟩)
    exact h

theorem ensures_readOperand (operand : Operand) :
    Ensures core (readOperand operand) fun _ core' => core.UpToDevices core' := by
  cases operand with
  | place p => exact (ensures_readPlace core p).mono fun _ _ h => h.1
  | literal value => exact (gives_pure core _).ensures (.refl core)

variable {core p}

/-- A cell that takes words is filled with what is written, cut down to the word width. -/
theorem gives_writePlace (hmask : core.registers.mask = core.profile.wordMask)
    (h : core.Takes (core.cell p)) (value : Word) :
    Gives core (writePlace p value) (.ok ())
      (core.fill (core.profile.mask value) (core.cell p)) := by
  cases p with
  | register r => exact gives_setRegister hmask h value
  | memory r =>
    have hm := takes_cellAt.1 h
    rw [cell, cellAt, if_pos hm]
    exact (gives_get core).bind (gives_storeData hm value)
  | memoryAt address =>
    have hm := takes_cellAt.1 h
    rw [cell, cellAt, if_pos hm]
    exact gives_storeData hm value
  | microcode r =>
    exact (gives_get core).bind ((gives_get core).bind (Segment.gives_store h _).onPart)

/-- A write to any other cell changes nothing but the devices. -/
theorem ensures_writePlace (h : ¬core.Takes (core.cell p)) (value : Word) :
    Ensures core (writePlace p value) fun _ core' => core.UpToDevices core' := by
  cases p with
  | register r =>
    exact (gives_setRegister_protected (UInt8.not_lt.1 h) value).ensures (.refl core)
  | memory r =>
    exact (gives_get core).bind (ensures_storeData_device (mt takes_cellAt.2 h) value)
  | memoryAt address => exact ensures_storeData_device (mt takes_cellAt.2 h) value
  | microcode r =>
    refine (gives_get core).bind ((gives_get core).bind ?_)
    exact ((Segment.gives_store_outside h _).onPart).ensures (.refl core)

end

/-! ## Filling a cell -/

section
variable (core : Core δ) (value value' : Word) (cell : Cell)

@[simp] theorem fill_profile : (core.fill value cell).profile = core.profile := by
  cases cell <;> rfl

@[simp] theorem fill_fill : (core.fill value cell).fill value' cell = core.fill value' cell := by
  cases cell with
  | data address | microcode address =>
    simp [fill, dataPart, microcodePart]
  | _ => simp [fill]

theorem takes_fill : (core.fill value cell).Takes cell ↔ core.Takes cell := by
  cases cell <;> simp [fill, Takes, dataPart, microcodePart]

variable {core value cell}

/-- A cell that is filled with what it holds is as it was. -/
theorem fill_of_holds (h : core.Holds value cell) : core.fill value cell = core := by
  cases cell with
  | register r => cases h; exact put_register core r
  | data address => rw [fill, Segment.put_load h]; rfl
  | device address => rfl
  | microcode address => rw [fill, Segment.put_load h]; rfl

theorem Sound.fill (h : core.Sound) (ht : core.Takes cell) (value : Word) :
    (core.fill (core.profile.mask value) cell).Sound := by
  cases cell with
  | register r => exact h.put ht value
  | _ => exact h

/-- Filling the cell that a place names does not change which cell it names. -/
theorem cell_fill_cell (core : Core δ) (value : Word) (p : Place) :
    (core.fill value (core.cell p)).cell p = core.cell p := by
  have hcell (address : Word) :
      (core.fill value (core.cellAt address)).cellAt address = core.cellAt address := by
    by_cases h : core.inMemory address = true
    · have h' : (core.fill value (.data address)).inMemory address = true := by
        simpa [inMemory, fill, dataPart] using h
      simp only [cellAt, h, h', if_true]
    · simp only [cellAt, if_neg h, fill]
  cases p with
  | register r => rfl
  | memory r =>
    have hr : (core.fill value (core.cellAt (core.register r))).register r = core.register r := by
      rw [cellAt]
      split_ifs <;> rfl
    simp only [cell, hr, hcell]
  | memoryAt address => exact hcell _
  | microcode r => rfl

end

/-! ## Stacks -/

section
variable (core : Core δ)

/-- The address that a push on the data stack goes to. -/
def stackSlot : Word :=
  core.profile.mask (core.stackPointer + 1)

/-- The address that a push on the call stack goes to. -/
def callSlot : Word :=
  core.profile.mask (core.callPointer + 1)

/-- The core with a value pushed on the data stack. -/
def pushed (value : Word) : Core δ :=
  (stackPart.set (core.memory.stack.put core.stackSlot (core.profile.mask value)) core).put
    core.profile.registers.stackPointer core.stackSlot

/-- The core with an address pushed on the call stack. -/
def called (address : Word) : Core δ :=
  (callStackPart.set (core.memory.callStack.put core.callSlot (core.profile.mask address)) core).put
    core.profile.registers.callPointer core.callSlot

end

section
variable (h : core.registers.mask = core.profile.wordMask) (hw : core.profile.Writable)
include h hw

theorem gives_pushData (hr : core.stackSlot.toNat < core.memory.stack.capacity) (value : Word) :
    Gives core (pushData value) (.ok ()) (core.pushed value) := by
  refine (gives_get core).bind ((gives_get core).bind ?_)
  refine (Segment.gives_push hr _).onPart.bind ?_
  have hstored : (stackPart.set (core.memory.stack.put core.stackSlot (core.profile.mask value))
      core).registers.mask = core.profile.wordMask := h
  have hslot : core.profile.mask core.stackSlot = core.stackSlot := Profile.mask_mask _
  exact (gives_setStackPointer hstored hw core.stackSlot).ensures ⟨rfl, congrArg _ hslot⟩

theorem gives_popData {value : Word} (hv : core.memory.stack.load core.stackPointer = .ok value) :
    Gives core popData (.ok value)
      (core.put core.profile.registers.stackPointer
        (core.profile.mask (core.stackPointer - 1))) := by
  refine (gives_get core).bind ?_
  rw [Segment.pop_eq, hv]
  have hset := gives_setStackPointer h hw (core.profile.mask (core.stackPointer - 1))
  rw [Profile.mask_mask] at hset
  exact hset.bind (gives_pure _ value)

theorem gives_pushCall (hr : core.callSlot.toNat < core.memory.callStack.capacity)
    (address : Word) : Gives core (pushCall address) (.ok ()) (core.called address) := by
  refine (gives_get core).bind ((gives_get core).bind ?_)
  refine (Segment.gives_push hr _).onPart.bind ?_
  have hstored : (callStackPart.set (core.memory.callStack.put core.callSlot
      (core.profile.mask address)) core).registers.mask = core.profile.wordMask := h
  have hslot : core.profile.mask core.callSlot = core.callSlot := Profile.mask_mask _
  exact (gives_setCallPointer hstored hw core.callSlot).ensures ⟨rfl, congrArg _ hslot⟩

theorem gives_popCall {address : Word}
    (ha : core.memory.callStack.load core.callPointer = .ok address) :
    Gives core popCall (.ok address)
      (core.put core.profile.registers.callPointer
        (core.profile.mask (core.callPointer - 1))) := by
  refine (gives_get core).bind ?_
  rw [Segment.pop_eq, ha]
  have hset := gives_setCallPointer h hw (core.profile.mask (core.callPointer - 1))
  rw [Profile.mask_mask] at hset
  exact hset.bind (gives_pure _ address)

end

theorem gives_pushData_full (hr : ¬core.stackSlot.toNat < core.memory.stack.capacity)
    (value : Word) :
    Gives core (pushData value) (.error (core.memory.stack.outside core.stackSlot)) core :=
  (gives_get core).bind ((gives_get core).bind
    ((Segment.gives_push_outside hr _).onPart.bind_error ⟨rfl, rfl⟩))

theorem gives_popData_error {fault : Fault}
    (hv : core.memory.stack.load core.stackPointer = .error fault) :
    Gives core popData (.error fault) core := by
  refine (gives_get core).bind ?_
  rw [Segment.pop_eq, hv]
  exact (gives_lift core _).bind_error ⟨rfl, rfl⟩

theorem gives_pushCall_full (hr : ¬core.callSlot.toNat < core.memory.callStack.capacity)
    (address : Word) :
    Gives core (pushCall address) (.error (core.memory.callStack.outside core.callSlot)) core :=
  (gives_get core).bind ((gives_get core).bind
    ((Segment.gives_push_outside hr _).onPart.bind_error ⟨rfl, rfl⟩))

theorem gives_popCall_error {fault : Fault}
    (ha : core.memory.callStack.load core.callPointer = .error fault) :
    Gives core popCall (.error fault) core := by
  refine (gives_get core).bind ?_
  rw [Segment.pop_eq, ha]
  exact (gives_lift core _).bind_error ⟨rfl, rfl⟩

/-! ## Pops -/

/-- The core that has put `value` in a register and then taken off what `pointer` points to. -/
def popped (core : Core δ) (r : UInt8) (value pointer : Word) : Core δ :=
  (core.put r (core.profile.mask value)).put core.profile.registers.stackPointer
    (core.profile.mask (pointer - 1))

theorem Sound.popped (hs : core.Sound) (hw : core.profile.Writable) {r : UInt8} (hr : 1 < r)
    (value pointer : Word) : (core.popped r value pointer).Sound :=
  (hs.put hr value).put hw.stackPointer (pointer - 1)

theorem stackPointer_put_of_ne {r : UInt8} (hr : r ≠ core.profile.registers.stackPointer)
    (value : Word) : (core.put r value).stackPointer = core.stackPointer :=
  register_put_of_ne hr.symm value

theorem stackPointer_put_self (value : Word) :
    (core.put core.profile.registers.stackPointer value).stackPointer = value :=
  register_put_self _ _ _

section
variable [Device δ] {r : UInt8} {value : Word} {fault : Fault}

theorem gives_pop_error (hv : core.memory.stack.load core.stackPointer = .error fault)
    (r : UInt8) : Gives core (executeTransfer (.pop (.register r))) (.error fault) core :=
  (gives_get core).bind ((gives_lift_of core hv).bind_error ⟨rfl, rfl⟩)

variable (hv : core.memory.stack.load core.stackPointer = .ok value)
include hv

theorem gives_pop_protected (hr : r ≤ 1) :
    Gives core (executeTransfer (.pop (.register r))) (.error (.writeProtected r)) core :=
  (gives_get core).bind ((gives_lift_of core hv).bind
    ((gives_setRegister_protected hr value).bind_error ⟨rfl, rfl⟩))

variable (hmask : core.registers.mask = core.profile.wordMask) (hr : 1 < r)
include hmask hr

/-- The value is taken off where the stack pointer is once the destination has been written. -/
theorem gives_pop (hw : core.profile.Writable) {value' : Word}
    (hv' : core.memory.stack.load (core.put r (core.profile.mask value)).stackPointer =
      .ok value') :
    Gives core (executeTransfer (.pop (.register r))) (.ok ())
      (core.popped r value (core.put r (core.profile.mask value)).stackPointer) := by
  refine (gives_get core).bind ((gives_lift_of core hv).bind ?_)
  refine (gives_setRegister hmask hr value).bind ?_
  have hput : (core.put r (core.profile.mask value)).registers.mask = core.profile.wordMask := hmask
  exact (gives_popData hput hw hv').bind (gives_pure _ ())

/-- Mostly the stack pointer is still where it was. -/
theorem gives_pop_kept (hw : core.profile.Writable)
    (hsp : (core.put r (core.profile.mask value)).stackPointer = core.stackPointer) :
    Gives core (executeTransfer (.pop (.register r))) (.ok ())
      (core.popped r value core.stackPointer) := by
  have hx := gives_pop hv hmask hr hw (hsp.symm ▸ hv)
  rwa [hsp] at hx

/-- If there is nothing there, the destination stays written. -/
theorem gives_pop_lost
    (hv' : core.memory.stack.load (core.put r (core.profile.mask value)).stackPointer =
      .error fault) :
    Gives core (executeTransfer (.pop (.register r))) (.error fault)
      (core.put r (core.profile.mask value)) := by
  refine (gives_get core).bind ((gives_lift_of core hv).bind ?_)
  exact (gives_setRegister hmask hr value).bind ((gives_popData_error hv').bind_error ⟨rfl, rfl⟩)

end

/-! ## Arithmetic -/

/-- The value that an arithmetic instruction computes. -/
def computed (core : Core δ) (op : ArithmeticOp) (i : Instruction) : Except Fault Word :=
  if op.isImmediate then op.eval (core.register i.dest) i.immediate.toUInt64
  else op.eval (core.register i.src0) (core.register i.src1)

theorem executeArithmetic_eq (op : ArithmeticOp) (i : Instruction) :
    executeArithmetic op i = (do
      let core : Core δ ← get
      let value ← core.computed op i
      setRegister i.dest value) := by
  unfold executeArithmetic computed
  split_ifs <;> rfl

/-! ## Control -/

/-- The core that goes on at an address that the instruction has set. -/
def jumped (core : Core δ) (address : Word) : Core δ :=
  { core.put core.profile.registers.instructionPointer (core.profile.mask address) with
    advance := false }

@[simp] theorem jumped_memory (address : Word) : (core.jumped address).memory = core.memory := rfl

theorem gives_jumpTo (h : core.registers.mask = core.profile.wordMask)
    (hip : 1 < core.profile.registers.instructionPointer) (address : Word) :
    Gives core (do setInstructionPointer address; suppressAdvance) (.ok ())
      (core.jumped address) := by
  have hset : Gives core (setInstructionPointer address) (.ok ()) _ :=
    (gives_get core).bind (gives_setRegister h hip address)
  exact hset.bind (gives_modify _ _)

section
variable (h : core.registers.mask = core.profile.wordMask) (hw : core.profile.Writable)
include h hw

theorem gives_follow_next : Gives core (follow .next) (.ok ()) (core.jumped core.nextAddress) :=
  (gives_get core).bind (gives_jumpTo h hw.instructionPointer _)

theorem gives_follow_goto (address : Word) :
    Gives core (follow (.goto address)) (.ok ()) (core.jumped address) :=
  gives_jumpTo h hw.instructionPointer address

theorem gives_follow_call (hr : core.callSlot.toNat < core.memory.callStack.capacity)
    (address : Word) :
    Gives core (follow (.call address)) (.ok ())
      ((core.called core.nextAddress).jumped address) := by
  refine (gives_get core).bind ((gives_pushCall h hw hr _).bind ?_)
  have hcalled : (core.called core.nextAddress).registers.mask = core.profile.wordMask := h
  exact gives_jumpTo hcalled hw.instructionPointer address

theorem gives_follow_ret {address : Word}
    (ha : core.memory.callStack.load core.callPointer = .ok address) :
    Gives core (follow .ret) (.ok ())
      ((core.put core.profile.registers.callPointer
        (core.profile.mask (core.callPointer - 1))).jumped address) := by
  have hpopped : (core.put core.profile.registers.callPointer
      (core.profile.mask (core.callPointer - 1))).registers.mask = core.profile.wordMask := h
  exact (gives_popCall h hw ha).bind (gives_jumpTo hpopped hw.instructionPointer address)

end

theorem gives_follow_call_full (hr : ¬core.callSlot.toNat < core.memory.callStack.capacity)
    (address : Word) :
    Gives core (follow (.call address))
      (.error (core.memory.callStack.outside core.callSlot)) core :=
  (gives_get core).bind ((gives_pushCall_full hr _).bind_error ⟨rfl, rfl⟩)

theorem gives_follow_ret_error {fault : Fault}
    (ha : core.memory.callStack.load core.callPointer = .error fault) :
    Gives core (follow .ret) (.error fault) core :=
  (gives_popCall_error ha).bind_error ⟨rfl, rfl⟩

/-- What a target of a jump is in a core. Targets are registers and literals. -/
def target (core : Core δ) : Operand → Word
  | .literal value => value.toUInt64
  | .place (.register r) => core.register r
  | .place _ => 0

/-- Where a jump leads in a core. -/
def flow (core : Core δ) (op : JumpOp) (i : Instruction) : Flow :=
  ((JumpForm.ofJump i op).map core.target).flow core.predicate

/-- A machine that reads literals and registers as the core would reads the targets of a jump. -/
theorem gives_mapM_target {σ : Type} {s : σ} (read : Operand → Exec σ Word)
    (hl : ∀ value, Gives s (read (.literal value)) (.ok value.toUInt64) s)
    (hr : ∀ r, Gives s (read (Place.register r)) (.ok (core.register r)) s) (op : JumpOp)
    (i : Instruction) : Gives s ((JumpForm.ofJump i op).mapM read)
      (.ok ((JumpForm.ofJump i op).map core.target)) s := by
  cases op
  case ret => exact gives_pure s _
  case selectIfTrue | selectIfFalse | selectCallIfTrue | selectCallIfFalse =>
    exact (hr _).bind ((hr _).bind (gives_pure s _))
  case branchRegister | callRegister | branchIfTrueRegister | callIfTrueRegister |
      branchIfFalseRegister | callIfFalseRegister =>
    exact (hr _).bind (gives_pure s _)
  all_goals exact (hl _).bind (gives_pure s _)

theorem gives_targets [Device δ] (core : Core δ) (op : JumpOp) (i : Instruction) :
    Gives core ((JumpForm.ofJump i op).mapM readOperand)
      (.ok ((JumpForm.ofJump i op).map core.target)) core := by
  refine gives_mapM_target readOperand (fun value => ?_) (fun r => ?_) op i
  · exact gives_pure core _
  · exact (gives_get core).bind (gives_pure core _)

/-- A jump does what its flow says. -/
theorem ensures_executeJump [Device δ] {op : JumpOp} {i : Instruction}
    {Q : Except Fault Unit → Core δ → Prop} (hx : Ensures core (follow (core.flow op i)) Q) :
    Ensures core (executeJump op i) Q :=
  (gives_targets core op i).bind ((gives_get core).bind hx)

/-! ## Instructions -/

theorem handler_standard (selector : UInt8) :
    (SystemCallTable.standard : SystemCallTable δ).handler selector =
      match (Opcode.ofCode? selector.toNat : Option SystemCommand) with
      | some .terminate => SystemCall.terminate
      | some .panic => SystemCall.panic
      | some .putc => SystemCall.putc
      | none => SystemCall.invalid := by
  unfold SystemCallTable.handler SystemCallTable.standard
  dsimp only
  generalize (Opcode.ofCode? selector.toNat : Option SystemCommand) = command
  rcases command with _ | _ | _ | _ <;> rfl

section
variable [Device δ] {calls : SystemCallTable δ} {i : Instruction}

theorem execute_eq {op : Operation} : i.operation = .ok op →
    execute calls i =
      match op with
      | .arithmetic op => executeArithmetic op i
      | .move op => executeTransfer (.ofMove i op)
      | .jump op => executeJump op i
      | .compare op => executeCompare op i
      | .misc .systemCall => calls.handler i.dest i := by
  intro h
  rw [execute, h]
  rfl

theorem gives_execute_error (core : Core δ) {fault : Fault} (h : i.operation = .error fault) :
    Gives core (execute calls i) (.error fault) core := by
  rw [execute, h]
  exact (gives_lift core _).bind_error ⟨rfl, rfl⟩

end

end Core

end RegisterMachine
