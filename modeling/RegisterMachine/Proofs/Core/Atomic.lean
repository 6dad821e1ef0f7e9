import RegisterMachine.Proofs.Core.Step

/-!
# Faults undo what was done before them

An instruction that faults leaves the registers and memory as they were, although it may have
written something before the fault. The critical one is a swap: its second write may be refused
after the first, and the undo goes the same way as a write.

* `Core.Undone`: what a fault leaves.
* `Core.reverts_exchange`: the two writes of a swap.
* `Core.reverts_execute`: any instruction.
* `Core.step_atomic`: what this says of a step.
-/

namespace RegisterMachine

theorem Segment.Bounded.le_of_load {segment : Segment Word} {bound address value : Word}
    (h : segment.Bounded bound) (hv : segment.load address = .ok value) : value ≤ bound :=
  h value (Array.mem_toList_iff.2 (Array.mem_of_getElem? (load_eq_ok_iff.1 hv)))

namespace Core

open Exec

variable {δ α β : Type} {core core' : Core δ}

/-! ## What a fault leaves -/

/-- The core is as it was but for the devices and the output. Where memory has words that do not
fit the word width, the cells of data memory and microcode are not promised either: a swap cuts
down what it puts back. -/
structure Undone (core core' : Core δ) : Prop where
  eq : core' = { core with
    memory := { core.memory with
      data := core'.memory.data, microcode := core'.memory.microcode }
    devices := core'.devices
    output := core'.output }
  memory_eq : core.memory.Bounded core.profile.wordMask → core'.memory = core.memory

theorem UpToDevices.undone (h : core.UpToDevices core') : core.Undone core' := by
  obtain ⟨devices, rfl⟩ := h
  exact ⟨rfl, fun _ => rfl⟩

theorem Undone.refl (core : Core δ) : core.Undone core := (UpToDevices.refl core).undone

/-- A fault leaves the core of before, if `x` faults at all. -/
def Reverts (core : Core δ) (x : Exec (Core δ) α) : Prop :=
  Ensures core x fun o core' => ∀ fault, o = .error fault → core.Undone core'

section
variable {x : Exec (Core δ) α} {f : α → Exec (Core δ) β}

theorem Reverts.of_ok {a : α} (hx : Gives core x (.ok a) core') : Reverts core x :=
  hx.ensures fun _ h => by cases h

theorem Reverts.of_error {fault : Fault} (hx : Gives core x (.error fault) core) :
    Reverts core x :=
  hx.ensures fun _ _ => .refl core

theorem Reverts.of_upToDevices (hx : Ensures core x fun _ core' => core.UpToDevices core') :
    Reverts core x :=
  hx.mono fun _ _ hc _ _ => hc.undone

/-- A read can be left out of account. -/
theorem Reverts.read_bind {P : α → Prop}
    (hx : Ensures core x fun o core' => core.UpToDevices core' ∧ ∀ a, o = .ok a → P a)
    (hf : ∀ a devices, P a → Reverts (devicesPart.set devices core) (f a)) :
    Reverts core (x >>= f) := by
  refine hx.bind ?_ fun fault core' h _ _ => h.1.undone
  rintro a _ ⟨⟨devices, rfl⟩, h⟩
  exact (hf a devices (h a rfl)).mono fun o core' h fault ho =>
    ⟨(h fault ho).eq, (h fault ho).memory_eq⟩

theorem Reverts.upToDevices_bind (hx : Ensures core x fun _ core' => core.UpToDevices core')
    (hf : ∀ a devices, Reverts (devicesPart.set devices core) (f a)) : Reverts core (x >>= f) :=
  Reverts.read_bind (hx.mono fun _ _ hc => ⟨hc, fun _ _ => trivial⟩) fun a devices _ =>
    hf a devices

/-- So can the outcome of something that changes nothing. -/
theorem Reverts.lift_bind {o : Except Fault α} (hf : ∀ a, o = .ok a → Reverts core (f a)) :
    Reverts core (liftM o >>= f) := by
  cases o with
  | ok a => exact (gives_lift core _).bind (hf a rfl)
  | error fault => exact (gives_lift core _).bind_error fun _ _ => .refl core

end

/-! ## Swaps -/

/-- A cell that is filled with what it held, cut down to the word width. -/
theorem undone_fill {cell : Cell} {value : Word} (hs : core.Sound) (ht : core.Takes cell)
    (hv : core.Holds value cell) (devices : Registry δ) :
    core.Undone (devicesPart.set devices (core.fill (core.profile.mask value) cell)) := by
  have hback (h : value ≤ core.profile.wordMask) :
      core.fill (core.profile.mask value) cell = core := by
    rw [Profile.mask_of_le h, fill_of_holds hv]
  cases cell with
  | register r =>
    have hle : value ≤ core.profile.wordMask := hv ▸ hs.le_wordMask r ht
    rw [hback hle]
    exact UpToDevices.undone ⟨devices, rfl⟩
  | data address =>
    refine ⟨rfl, fun hm => ?_⟩
    rw [hback (hm.data.le_of_load hv)]
    rfl
  | device address => exact ht.elim
  | microcode address =>
    refine ⟨rfl, fun hm => ?_⟩
    rw [hback (hm.microcode.le_of_load hv)]
    rfl

theorem fill_setDevices (value : Word) (cell : Cell) (devices : Registry δ) :
    (devicesPart.set devices core).fill value cell =
      devicesPart.set devices (core.fill value cell) := by
  cases cell <;> rfl

section
variable [Device δ] {a b : Place} {first : Word}

/-- The handler of a swap, after the first write has gone through. -/
theorem reverts_undo (hs : core.Sound) (ha : core.Takes (core.cell a))
    (hfirst : core.Holds first (core.cell a)) (second : Word) (devices : Registry δ)
    (fault : Fault) :
    Ensures (devicesPart.set devices (core.fill (core.profile.mask second) (core.cell a)))
      (do writePlace a first; throw fault : Exec (Core δ) Unit)
      fun _ core' => core.Undone core' := by
  set written := devicesPart.set devices (core.fill (core.profile.mask second) (core.cell a))
    with hwritten
  have hs' : written.Sound := hs.fill ha second
  have hcell : written.cell a = core.cell a := cell_fill_cell core _ a
  have hp : written.profile = core.profile := fill_profile core _ _
  have ha' : written.Takes (written.cell a) := by
    rw [hcell]
    exact (takes_fill core _ _).2 ha
  have hwrite := gives_writePlace hs'.mask_eq ha' first
  rw [hcell, hp, hwritten, fill_setDevices, fill_fill] at hwrite
  exact hwrite.bind ((gives_throw _ fault).ensures (undone_fill hs ha hfirst devices))

/-- If the second write of a swap faults, the first is undone. -/
theorem reverts_exchange (hs : core.Sound) (hfirst : core.Holds first (core.cell a))
    (second : Word) :
    Reverts core (do
      writePlace a second
      tryCatch (writePlace b first) fun fault => do
        writePlace a first
        throw fault) := by
  by_cases ha : core.Takes (core.cell a)
  · refine (gives_writePlace hs.mask_eq ha second).bind ?_
    set filled := core.fill (core.profile.mask second) (core.cell a)
    by_cases hb : filled.Takes (filled.cell b)
    · refine (gives_writePlace (hs.fill ha second).mask_eq hb first).tryCatch ?_ ?_
      · rintro _ _ - _ ⟨⟩
      · rintro fault _ ⟨⟨⟩, -⟩
    · refine (ensures_writePlace hb first).tryCatch ?_ ?_
      · rintro _ _ - _ ⟨⟩
      · rintro fault _ ⟨devices, rfl⟩
        exact (reverts_undo hs ha hfirst second devices fault).mono fun _ _ h _ _ => h
  · refine Reverts.upToDevices_bind (ensures_writePlace ha second) fun _ devices => ?_
    set written := devicesPart.set devices core
    by_cases hb : written.Takes (written.cell b)
    · refine (gives_writePlace (hs.setDevices devices).mask_eq hb first).tryCatch ?_ ?_
      · rintro _ _ - _ ⟨⟩
      · rintro fault _ ⟨⟨⟩, -⟩
    · refine (ensures_writePlace hb first).tryCatch ?_ ?_
      · rintro _ _ - _ ⟨⟩
      · rintro fault _ ⟨devices', rfl⟩
        have ha' : ¬(devicesPart.set devices' written).Takes
            ((devicesPart.set devices' written).cell a) := ha
        refine (ensures_writePlace ha' first).bind ?_ ?_
        · rintro _ _ ⟨devices'', rfl⟩
          exact (gives_throw _ fault).ensures fun _ _ => UpToDevices.undone ⟨devices'', rfl⟩
        · rintro _ _ ⟨devices'', rfl⟩ _ _
          exact UpToDevices.undone ⟨devices'', rfl⟩

theorem reverts_writePlace (hs : core.Sound) (p : Place) (value : Word) :
    Reverts core (writePlace p value) := by
  by_cases h : core.Takes (core.cell p)
  · exact .of_ok (gives_writePlace hs.mask_eq h value)
  · exact .of_upToDevices (ensures_writePlace h value)

end

/-! ## Instructions -/

section
variable (hs : core.Sound) (hw : core.profile.Writable)
include hs

theorem reverts_executeArithmetic (op : ArithmeticOp) (i : Instruction) :
    Reverts core (executeArithmetic op i) := by
  rw [executeArithmetic_eq]
  refine (gives_get core).bind (Reverts.lift_bind fun value _ => ?_)
  by_cases hr : 1 < i.dest
  · exact .of_ok (gives_setRegister hs.mask_eq hr value)
  · exact .of_error (gives_setRegister_protected (UInt8.not_lt.1 hr) value)

include hw

theorem reverts_executeCompare (op : CompareOp) (i : Instruction) :
    Reverts core (executeCompare op i) :=
  (gives_get core).bind (Reverts.of_ok (gives_setPredicate hs.mask_eq hw _))

theorem reverts_pushData (value : Word) : Reverts core (pushData value) := by
  by_cases hr : core.stackSlot.toNat < core.memory.stack.capacity
  · exact .of_ok (gives_pushData hs.mask_eq hw hr value)
  · exact .of_error (gives_pushData_full hr value)

/-- A pop that is refused its destination has not moved the stack pointer. One into the stack
pointer itself is left out: it would look for the value in another place. -/
theorem reverts_pop [Device δ] {r : UInt8} (hr : r ≠ core.profile.registers.stackPointer) :
    Reverts core (executeTransfer (.pop (.register r))) := by
  cases hv : core.memory.stack.load core.stackPointer with
  | error fault => exact .of_error (gives_pop_error hv r)
  | ok value =>
    by_cases h₁ : 1 < r
    · exact .of_ok (gives_pop_kept hv hs.mask_eq h₁ hw (stackPointer_put_of_ne hr _))
    · exact .of_error (gives_pop_protected hv (UInt8.not_lt.1 h₁))

theorem reverts_executeTransfer [Device δ] {transfer : Transfer}
    (hpop : ∀ dest, transfer = .pop dest →
      ∃ r, dest = .register r ∧ r ≠ core.profile.registers.stackPointer) :
    Reverts core (executeTransfer transfer) := by
  cases transfer with
  | copy dest source =>
    refine Reverts.upToDevices_bind (ensures_readOperand core source) fun value devices => ?_
    exact reverts_writePlace (hs.setDevices devices) dest value
  | swap a b =>
    refine Reverts.read_bind (ensures_readPlace core a) fun first devices hfirst => ?_
    refine Reverts.upToDevices_bind ((ensures_readPlace _ b).mono fun _ _ h => h.1)
      fun second devices' => ?_
    exact reverts_exchange ((hs.setDevices devices).setDevices devices') hfirst second
  | push source =>
    refine Reverts.upToDevices_bind (ensures_readOperand core source) fun value devices => ?_
    exact reverts_pushData (hs.setDevices devices) hw value
  | pop dest =>
    obtain ⟨r, rfl, hr⟩ := hpop dest rfl
    exact reverts_pop hs hw hr
  | peek dest =>
    refine (gives_get core).bind (Reverts.lift_bind fun value _ => ?_)
    exact reverts_writePlace hs dest value

theorem reverts_follow (flow : Flow) : Reverts core (follow flow) := by
  cases flow with
  | next => exact .of_ok (gives_follow_next hs.mask_eq hw)
  | goto address => exact .of_ok (gives_follow_goto hs.mask_eq hw address)
  | call address =>
    by_cases hr : core.callSlot.toNat < core.memory.callStack.capacity
    · exact .of_ok (gives_follow_call hs.mask_eq hw hr address)
    · exact .of_error (gives_follow_call_full hr address)
  | ret =>
    cases ha : core.memory.callStack.load core.callPointer with
    | ok address => exact .of_ok (gives_follow_ret hs.mask_eq hw ha)
    | error fault => exact .of_error (gives_follow_ret_error ha)

theorem reverts_executeJump [Device δ] (op : JumpOp) (i : Instruction) :
    Reverts core (executeJump op i) :=
  ensures_executeJump (reverts_follow hs hw _)

omit hs hw

/-- A character that does not fit the output may leave some of its bytes there. -/
theorem reverts_systemCall (selector : UInt8) (i : Instruction) :
    Reverts core (SystemCallTable.standard.handler selector i) := by
  rw [handler_standard]
  generalize (Opcode.ofCode? selector.toNat : Option SystemCommand) = command
  rcases command with _ | _ | _ | _
  · exact .of_error (gives_throw core _)
  · exact .of_ok ((gives_get core).bind ((gives_note core _ _).bind (gives_modify core _)))
  · exact .of_error (gives_throw core _)
  · refine (gives_get core).bind ((gives_get core).bind (Reverts.lift_bind fun _ _ => ?_))
    exact Ensures.onPart fun _ _ _ => ⟨rfl, fun _ => rfl⟩

include hs hw

/-- **An instruction that faults leaves the core as it was**, unless it is a pop into the stack
    pointer. -/
theorem reverts_execute [Device δ] {i : Instruction}
    (hpop : i.operation = .ok (.move .pop) → i.dest ≠ core.profile.registers.stackPointer) :
    Reverts core (execute .standard i) := by
  cases hi : i.operation with
  | error fault => exact .of_error (gives_execute_error core hi)
  | ok op =>
    rw [execute_eq hi]
    cases op with
    | arithmetic op => exact reverts_executeArithmetic hs op i
    | move op =>
      refine reverts_executeTransfer hs hw fun dest hdest => ?_
      cases op <;> cases hdest
      exact ⟨i.dest, rfl, hpop hi⟩
    | jump op => exact reverts_executeJump hs hw op i
    | compare op => exact reverts_executeCompare hs hw op i
    | misc op => exact reverts_systemCall i.dest i

end

/-! ## Steps -/

/-- **A step that faults is atomic.** All registers, all memory and the step counter are as before;
    only the devices and the output may have changed. -/
theorem step_atomic [Device δ] (core : Core δ) (log : Log) (fault : Fault) (hs : core.Sound)
    (hw : core.profile.WellFormed) (hm : core.memory.Bounded core.profile.wordMask)
    (hpop : ∀ i, core.upcoming? = some (i, .move .pop) →
      i.dest ≠ core.profile.registers.stackPointer)
    (hx : (step .standard).result core log = .error fault) :
    (step .standard).final core log = { core with
      devices := ((step .standard).final core log).devices
      output := ((step .standard).final core log).output
      advance := true
      status := .faulted } := by
  have hstep := stepped hs hw.writable log
  generalize (step .standard).result core log = o at hstep hx
  generalize (step .standard).final core log = core' at hstep ⊢
  cases hstep with
  | stopped _ => cases hx
  | unfetched _ _ => rfl
  | @failed _ i log hr hi hf =>
    have hundone := reverts_execute hs hw.writable
      (fun hop => hpop i (upcoming?_eq_some_iff.2 ⟨hr, hi, hop⟩)) log _ hf
    generalize (execute .standard i).final core log = core' at hundone
    rw [faulted, hundone.eq, hundone.memory_eq hm]
  | retired _ _ _ => cases hx

/-- A core that is about to swap register 8 with the constant in register 0. -/
def swapping : Core Empty :=
  codePart.set ⟨.code, #[(Instruction.move .swap 8 0).encode]⟩
    ((powerOn .small .empty default).put 8 7)

theorem step_atomic_swapping :
    (step .standard).result swapping (.ofLevel none) = .error (.writeProtected 0) ∧
    (step .standard).final swapping (.ofLevel none) = { swapping with
      devices := ((step .standard).final swapping (.ofLevel none)).devices
      output := ((step .standard).final swapping (.ofLevel none)).output
      advance := true
      status := .faulted } := by
  have hw : Profile.small.WellFormed := by decide
  have hs : swapping.Sound :=
    (RegisterFile.sound_powerOn hw.writable).put (by decide) (by decide)
  have hz := Memory.bounded_zeroed .small Profile.small.wordMask
  have hx : (step .standard).result swapping (.ofLevel none) = .error (.writeProtected 0) := by
    decide +kernel
  have hu : swapping.upcoming? = some (Instruction.move .swap 8 0, .move .swap) := by decide +kernel
  refine ⟨hx, step_atomic swapping _ _ hs hw ⟨hz.data, hz.stack, hz.callStack, hz.microcode⟩ ?_ hx⟩
  rintro i hi
  cases hi.symm.trans hu

end Core

end RegisterMachine
