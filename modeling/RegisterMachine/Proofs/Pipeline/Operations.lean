import RegisterMachine.Proofs.Pipeline.Mirror

/-!
# Operations of pipelines and cores in step

A pipeline reads registers at other moments than a core, cuts operands down as well as results,
and writes both pointers after every jump. Nothing comes of it, but for a pop into the stack
pointer.

* `Pairing.agrees_executeTransfer`, `Pairing.agrees_executeArithmetic`, ...: the groups.
* `Pairing.agrees_execute`: all operations.
-/

namespace RegisterMachine

open Exec

/-- The only fault of arithmetic. -/
theorem ArithmeticOp.eq_divideByZero_of_eval {op : ArithmeticOp} {a b : Word} {fault : Fault}
    (h : op.eval a b = .error fault) : fault = .divideByZero := by
  cases op <;> simp only [eval, quotient, remainder, reduceCtorEq] at h <;> split_ifs at h <;>
    exact (Except.error.inj h).symm

namespace Pairing

variable {δ : Type} {U : Pairing} {core : Core δ}

/-! ## Transfers -/

theorem agrees_pushData (value : Word) :
    U.Agrees (Core.pushData (δ := δ) value) (do
      let pointer ← Pipeline.access .push [← Pipeline.stackPointer, value]
      Pipeline.setStackPointer pointer) := by
  rintro core _ ⟨hfit, written, hout, rfl⟩
  refine (Pipeline.gives_stackPointer core _).agree_right ?_
  by_cases hr : core.stackSlot.toNat < core.memory.stack.capacity
  · have hstored := hfit.setStack (core.memory.stack.put core.stackSlot (core.profile.mask value))
    have hset := Pipeline.gives_setStackPointer (U.pipelineOutput.extend written) hstored.sound
      hstored.writable core.stackSlot
    have hslot : core.profile.mask core.stackSlot = core.stackSlot := Profile.mask_mask _
    refine InStep.agree (Core.gives_pushData hfit.sound.mask_eq hfit.writable hr value)
      ((Pipeline.gives_push _ value hr).bind (hset.ensures ⟨rfl, ?_⟩))
      (hstored.put hfit.writable.stackPointer _) hout
    exact congrArg (fun pointer => ((Core.stackPart.set _ core).put _ pointer).pipelined _) hslot
  · exact InStep.agree (Core.gives_pushData_full hr value)
      ((Pipeline.gives_push_outside _ value hr).bind_error ⟨rfl, rfl⟩) hfit hout

theorem agree_peek {written : Array UInt8} (hfit : U.Fits core)
    (hout : core.output = U.coreOutput.extend written) :
    Exec.Agree U.InStep (Fault.withoutDevices U.profile.dataCapacity) core
      (core.pipelined (U.pipelineOutput.extend written)) (liftM core.peekData : Exec (Core δ) Word)
      (Pipeline.access .peek [core.stackPointer]) := by
  have hy := Pipeline.gives_peek core (U.pipelineOutput.extend written) core.stackPointer
  rw [← Segment.mapError_load _ _ U.profile.dataCapacity] at hy
  exact InStep.agree (gives_lift core _) hy hfit hout

/-- A pop into another register than the stack pointer. -/
theorem agrees_pop [Device δ] {r : UInt8} (hr : r ≠ U.profile.registers.stackPointer) :
    U.Agrees (Core.executeTransfer (δ := δ) (.pop (.register r)))
      (Pipeline.executeTransfer (.pop (.register r))) := by
  rintro core _ ⟨hfit, written, hout, rfl⟩
  have hs := hfit.sound
  cases hv : core.memory.stack.load core.stackPointer with
  | error fault =>
    have hy := Pipeline.gives_popTo_error (U.pipelineOutput.extend written) hv r
    rw [← Segment.withoutDevices_of_load hv U.profile.dataCapacity] at hy
    exact InStep.agree (Core.gives_pop_error hv r) hy hfit hout
  | ok value =>
    by_cases h₁ : 1 < r
    · have hsp : (core.put r (core.profile.mask value)).stackPointer = core.stackPointer := by
        refine Core.stackPointer_put_of_ne ?_ _
        rwa [hfit.profile_eq]
      have hpopped := (hfit.put h₁ value).put hfit.writable.stackPointer (core.stackPointer - 1)
      exact InStep.agree (Core.gives_pop_kept hv hs.mask_eq h₁ hfit.writable hsp)
        (Pipeline.gives_popTo _ hv hs hfit.writable h₁) hpopped hout
    · have h₁ := UInt8.not_lt.1 h₁
      exact InStep.agree (Core.gives_pop_protected hv h₁) (Pipeline.gives_popTo_protected _ hv h₁)
        hfit hout

theorem agrees_executeTransfer [Device δ] {transfer : Transfer}
    (hpop : ∀ dest, transfer = .pop dest →
      ∃ r, dest = .register r ∧ r ≠ U.profile.registers.stackPointer) :
    U.Agrees (Core.executeTransfer (δ := δ) transfer) (Pipeline.executeTransfer transfer) := by
  cases transfer with
  | copy dest source =>
    exact (agrees_readOperand source).bind fun value => agrees_writePlace dest value
  | swap a b =>
    refine (agrees_readPlace a).bind fun first => (agrees_readPlace b).bind fun second => ?_
    refine (agrees_writePlace a second).bind fun _ => (agrees_writePlace b first).tryCatch ?_
    exact fun fault => (agrees_writePlace a first).bind fun _ => agrees_throw fault
  | push source =>
    exact (agrees_readOperand source).bind fun value => agrees_pushData value
  | pop dest =>
    obtain ⟨r, rfl, hr⟩ := hpop dest rfl
    exact agrees_pop hr
  | peek dest =>
    rintro core _ ⟨hfit, written, hout, rfl⟩
    refine (gives_get core).agree_left ((Pipeline.gives_stackPointer core _).agree_right ?_)
    refine (agree_peek hfit hout).bind fun value core' pipeline' hstep => ?_
    exact agrees_writePlace dest value core' pipeline' hstep

/-! ## Arithmetic and compares -/

variable (U) in
theorem mask_immediate (value : UInt16) : U.profile.mask value.toUInt64 = value.toUInt64 := by
  refine Profile.mask_of_le (UInt64.le_iff_toNat_le.2 ?_)
  have hlt := value.toNat_lt
  have hpow : 2 ^ 16 ≤ 2 ^ min U.profile.wordBits 64 :=
    Nat.pow_le_pow_right (by decide) (le_min U.wide (by decide))
  rw [UInt16.toNat_toUInt64, Profile.wordMask, toNat_wordMask]
  omega

theorem Fits.mask_register (h : U.Fits core) (r : UInt8) :
    core.profile.mask (core.register r) = core.register r := by
  by_cases hr : 1 < r
  · exact h.sound.mask_register hr
  · have hr : r = 0 ∨ r = 1 := by
      by_contra hne
      rw [not_or] at hne
      exact hr (one_lt_of_ne hne.1 hne.2)
    rw [h.profile_eq]
    rcases hr with rfl | rfl
    · rw [show core.register 0 = 0 from h.sound.zero]
      exact U.mask_immediate 0
    · rw [show core.register 1 = 1 from h.sound.one]
      exact U.mask_immediate 1

/-- The arithmetic unit cuts its operands down, which changes none that fit. -/
theorem agree_arithmetic {written : Array UInt8} (hfit : U.Fits core)
    (hout : core.output = U.coreOutput.extend written) (op : ArithmeticOp) {a b : Word}
    (ha : core.profile.mask a = a) (hb : core.profile.mask b = b) (r : UInt8) :
    Exec.Agree U.InStep (Fault.withoutDevices U.profile.dataCapacity) core
      (core.pipelined (U.pipelineOutput.extend written))
      (do
        let value ← (liftM (op.eval a b) : Exec (Core δ) Word)
        Core.setRegister r value)
      (do
        let value ← Exec.onPart Pipeline.arithmeticPart (Actor.submit arithmeticUnit op [a, b])
        Pipeline.writeRegister r value) := by
  have hy := Pipeline.gives_arithmetic core (U.pipelineOutput.extend written) op a b
  rw [ha, hb] at hy
  cases hv : op.eval a b with
  | ok value =>
    rw [hv] at hy
    refine (gives_lift core _).agree_left (hy.agree_right ?_)
    refine agrees_setRegister r ?_ _ _ ⟨hfit, written, hout, rfl⟩
    rw [hfit.profile_eq, Profile.mask_mask]
  | error fault =>
    obtain rfl := ArithmeticOp.eq_divideByZero_of_eval hv
    rw [hv] at hy
    exact InStep.agree ((gives_lift core _).bind_error ⟨rfl, rfl⟩) (hy.bind_error ⟨rfl, rfl⟩) hfit
      hout

theorem agrees_executeArithmetic (op : ArithmeticOp) (i : Instruction) :
    U.Agrees (Core.executeArithmetic (δ := δ) op i) (Pipeline.executeArithmetic op i) := by
  rintro core _ ⟨hfit, written, hout, rfl⟩
  have hread (r : UInt8) := Pipeline.gives_readRegister core (U.pipelineOutput.extend written) r
  have himm := U.mask_immediate i.immediate
  rw [← hfit.profile_eq] at himm
  rw [Core.executeArithmetic_eq, Pipeline.executeArithmetic]
  refine (gives_get core).agree_left ?_
  rw [Core.computed]
  split_ifs
  · refine (hread i.dest).agree_right ?_
    exact agree_arithmetic hfit hout op (hfit.mask_register _) himm i.dest
  · refine (hread i.src0).agree_right ((hread i.src1).agree_right ?_)
    exact agree_arithmetic hfit hout op (hfit.mask_register _) (hfit.mask_register _) i.dest

theorem agrees_executeCompare (op : CompareOp) (i : Instruction) :
    U.Agrees (Core.executeCompare (δ := δ) op i) (Pipeline.executeCompare op i) := by
  rintro core _ ⟨hfit, written, hout, rfl⟩
  have hread (r : UInt8) := Pipeline.gives_readRegister core (U.pipelineOutput.extend written) r
  refine (gives_get core).agree_left ((gives_get core).agree_left ?_)
  refine (gives_get _).agree_right ((hread _).agree_right ((hread _).agree_right ?_))
  refine (hread _).agree_right ((Pipeline.gives_compare core _ op _ _ _).agree_right ?_)
  exact agrees_setRegister _ rfl _ _ ⟨hfit, written, hout, rfl⟩

/-! ## Jumps -/

/-- What is left of a jump once its targets and the pointers have been read. -/
def branchFrom (core : Core δ) (form : JumpForm Word) : Exec Pipeline Unit := do
  let outcome ← Exec.onPart Pipeline.branchPart (Actor.submit branchUnit form
    [core.instructionPointer, core.register core.profile.registers.predicate, core.callPointer])
  Pipeline.writeRegister core.profile.registers.callPointer outcome.callPointer
  Pipeline.writeRegister core.profile.registers.instructionPointer outcome.instructionPointer

theorem Fits.jumped (h : U.Fits core) (address : Word) : U.Fits (core.jumped address) :=
  ⟨h.profile_eq, (h.put h.writable.instructionPointer address).sound, h.noDevices, h.data⟩

theorem Fits.setCallStack (h : U.Fits core) (segment : Segment Word) :
    U.Fits (Core.callStackPart.set segment core) :=
  ⟨h.profile_eq, h.sound, h.noDevices, h.data⟩

section
variable (output : Sink) {form : JumpForm Word} {flow : Flow}
  (hf : form.flow core.predicate = flow)
include hf

/-- Both pointers are written after a jump, also one that stays as it is. -/
theorem Fits.gives_branchFrom (h : U.Fits core) {core' : Core δ} {callStack : Segment Word}
    {ip csp : Word}
    (hx : Gives core.branchUnit (BranchUnit.follow core.instructionPointer core.callPointer flow)
      (.ok ⟨core.profile.mask ip, csp⟩) ⟨callStack, core.profile.wordMask⟩)
    (hc : (Core.callStackPart.set callStack core).put core.profile.registers.callPointer
      (core.profile.mask csp) = core') :
    Gives (core.pipelined output) (branchFrom core form) (.ok ())
      ((core'.jumped ip).pipelined output) := by
  subst hc
  have hset := h.setCallStack callStack
  have hput := hset.put hset.writable.callPointer csp
  have hjump := Pipeline.gives_writeRegister output hput.sound hput.writable.instructionPointer
    (core.profile.mask ip)
  refine (Pipeline.gives_branch output (hf ▸ hx)).bind ?_
  refine (Pipeline.gives_writeRegister output hset.sound hset.writable.callPointer csp).bind ?_
  refine hjump.ensures ⟨rfl, ?_⟩
  exact congrArg (fun address => (Core.put _ _ address).pipelined output) (Profile.mask_mask ip)

theorem gives_branchFrom_error {fault : Fault}
    (hx : Gives core.branchUnit (BranchUnit.follow core.instructionPointer core.callPointer flow)
      (.error fault) core.branchUnit) :
    Gives (core.pipelined output) (branchFrom core form) (.error fault) (core.pipelined output) :=
  (Pipeline.gives_branch output (hf ▸ hx)).bind_error ⟨rfl, rfl⟩

end

theorem agree_follow {form : JumpForm Word} {written : Array UInt8} (hfit : U.Fits core)
    (hout : core.output = U.coreOutput.extend written) :
    Exec.Agree U.InStep (Fault.withoutDevices U.profile.dataCapacity) core
      (core.pipelined (U.pipelineOutput.extend written)) (Core.follow (form.flow core.predicate))
      (branchFrom core form) := by
  have hw := hfit.writable
  have hstay : core.put core.profile.registers.callPointer (core.profile.mask core.callPointer) =
      core := by
    rw [Core.callPointer, hfit.mask_register, Core.put_register]
  cases hf : form.flow core.predicate with
  | next =>
    have hnext : core.jumped core.nextAddress = core.jumped (core.instructionPointer + 1) := by
      rw [Core.jumped, Core.jumped, Core.nextAddress, Profile.mask_mask]
    refine InStep.agree (Core.gives_follow_next hfit.sound.mask_eq hw) ?_ (hfit.jumped _) hout
    rw [hnext]
    exact hfit.gives_branchFrom _ hf (BranchUnit.gives_follow_next core _ _) hstay
  | goto address =>
    refine InStep.agree (Core.gives_follow_goto hfit.sound.mask_eq hw address) ?_
      (hfit.jumped _) hout
    exact hfit.gives_branchFrom _ hf (BranchUnit.gives_follow_goto core _ _ address) hstay
  | call address =>
    by_cases hr : core.callSlot.toNat < core.memory.callStack.capacity
    · have hcalled : U.Fits (core.called core.nextAddress) :=
        (hfit.setCallStack _).put hw.callPointer _
      refine InStep.agree (Core.gives_follow_call hfit.sound.mask_eq hw hr address) ?_
        (hcalled.jumped _) hout
      refine hfit.gives_branchFrom _ hf (BranchUnit.gives_follow_call _ hr address) ?_
      rw [Core.called, Core.nextAddress, Profile.mask_mask, Profile.mask_mask]
      rfl
    · refine InStep.agree (Core.gives_follow_call_full hr address) ?_ hfit hout
      exact gives_branchFrom_error _ hf (BranchUnit.gives_follow_call_full _ hr address)
  | ret =>
    cases ha : core.memory.callStack.load core.callPointer with
    | ok address =>
      refine InStep.agree (Core.gives_follow_ret hfit.sound.mask_eq hw ha) ?_
        ((hfit.put hw.callPointer _).jumped _) hout
      refine hfit.gives_branchFrom _ hf (BranchUnit.gives_follow_ret _ ha) ?_
      rw [Profile.mask_mask]
      rfl
    | error fault =>
      refine InStep.agree (Core.gives_follow_ret_error ha) ?_ hfit hout
      have hy := gives_branchFrom_error (U.pipelineOutput.extend written) hf
        (BranchUnit.gives_follow_ret_error _ ha)
      exact hy.ensures ⟨congrArg Except.error (Segment.withoutDevices_of_load ha _).symm, rfl⟩

theorem agrees_executeJump [Device δ] (op : JumpOp) (i : Instruction) :
    U.Agrees (Core.executeJump (δ := δ) op i) (Pipeline.executeJump op i) := by
  rintro core _ ⟨hfit, written, hout, rfl⟩
  have hread (r : UInt8) := Pipeline.gives_readRegister core (U.pipelineOutput.extend written) r
  have htargets := Core.gives_mapM_target Pipeline.readOperand
    (fun _ => gives_pure _ _) hread op i
  refine (Core.gives_targets core op i).agree_left ((gives_get core).agree_left ?_)
  refine (gives_get _).agree_right (htargets.agree_right ((hread _).agree_right ?_))
  refine (hread _).agree_right ((hread _).agree_right ?_)
  exact agree_follow hfit hout

/-! ## System calls -/

theorem eq_invalidCodePoint_of_composeCharacter {low high : Word} {single : Bool} {fault : Fault}
    (h : composeCharacter low high single = .error fault) :
    ∃ codePoint, fault = .invalidCodePoint codePoint := by
  unfold composeCharacter at h
  extract_lets codePoint at h
  by_cases hvalid : codePoint.isValidChar
  · rw [dif_pos hvalid] at h
    cases h
  · rw [dif_neg hvalid] at h
    exact ⟨codePoint, (Except.error.inj h).symm⟩

theorem agrees_emit (character : Char) :
    U.Agrees (Core.emit (δ := δ) character)
      (Exec.onPart Pipeline.outputPart (Sink.write (String.utf8EncodeChar character))) := by
  rintro core _ ⟨hfit, written, hout, rfl⟩
  obtain ⟨o, written', ho, hx, hy⟩ :=
    Sink.exists_gives_write U.room_eq written (String.utf8EncodeChar character)
  rw [← hout] at hx
  have ho : o.mapError (Fault.withoutDevices U.profile.dataCapacity) = o := by
    cases o with
    | ok a => rfl
    | error fault => rw [ho fault rfl]; rfl
  refine Agree.of_gives hx.onPart (ho.symm ▸ Gives.onPart hy) ⟨?_, written', rfl, rfl⟩
  exact ⟨hfit.profile_eq, hfit.sound, hfit.noDevices, hfit.data⟩

theorem agrees_putc (i : Instruction) :
    U.Agrees (SystemCall.putc (δ := δ) i) (do
      let low ← Pipeline.readRegister i.src0
      let high ← Pipeline.readRegister i.src1
      let character ← composeCharacter low high (i.src0 == i.src1)
      Exec.onPart Pipeline.outputPart (Sink.write (String.utf8EncodeChar character))) := by
  rintro core _ ⟨hfit, written, hout, rfl⟩
  have hread (r : UInt8) := Pipeline.gives_readRegister core (U.pipelineOutput.extend written) r
  refine (gives_get core).agree_left ((gives_get core).agree_left ?_)
  refine (hread i.src0).agree_right ((hread i.src1).agree_right ?_)
  refine Agree.bind ?_ fun character core' pipeline' hstep => agrees_emit character _ _ hstep
  refine InStep.agree (gives_lift core _) ?_ hfit hout
  generalize hc : composeCharacter (core.register i.src0) (core.register i.src1)
    (i.src0 == i.src1) = o
  cases o with
  | ok character => exact gives_lift _ _
  | error fault =>
    obtain ⟨codePoint, rfl⟩ := eq_invalidCodePoint_of_composeCharacter hc
    exact gives_lift _ _

theorem agrees_systemCall (i : Instruction) :
    U.Agrees (SystemCallTable.standard.handler (δ := δ) i.dest i)
      (Pipeline.executeSystemCall i) := by
  rw [Core.handler_standard, Pipeline.executeSystemCall]
  generalize (Opcode.ofCode? i.dest.toNat : Option SystemCommand) = command
  rcases command with _ | _ | _ | _
  · exact agrees_throw _
  · rintro core _ ⟨hfit, written, hout, rfl⟩
    refine Agree.of_gives ((gives_get core).bind ((gives_note _ _ _).bind (gives_modify _ _)))
      ((gives_get _).bind ((gives_note _ _ _).bind (gives_modify _ _)))
      ⟨⟨hfit.profile_eq, hfit.sound, hfit.noDevices, hfit.data⟩, written, hout, rfl⟩
  · exact agrees_throw _
  · exact agrees_putc i

/-! ## Operations -/

/-- **An operation does the same to a core and to a pipeline in step**, unless it pops into the
    stack pointer. -/
theorem agrees_execute [Device δ] {i : Instruction} {op : Operation} (hi : i.operation = .ok op)
    (hpop : op = .move .pop → i.dest ≠ U.profile.registers.stackPointer) :
    U.Agrees (Core.execute (δ := δ) .standard i) (Pipeline.executeOperation i op) := by
  rw [Core.execute_eq hi]
  cases op with
  | arithmetic op => exact agrees_executeArithmetic op i
  | move op =>
    refine agrees_executeTransfer fun dest hdest => ?_
    cases op <;> cases hdest
    exact ⟨i.dest, rfl, hpop rfl⟩
  | jump op => exact agrees_executeJump op i
  | compare op => exact agrees_executeCompare op i
  | misc op => exact agrees_systemCall i

end Pairing

end RegisterMachine
