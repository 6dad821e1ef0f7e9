import RegisterMachine.Proofs.Core.Calls

/-!
# Jumps against a reference

The machine takes a jump apart into its shape, reads the targets, and settles a flow. The reference
here says instead, of each operation, what it waits for, where it points to and whether it calls,
all as the registers are before the instruction. So it does not matter that a target can be the
instruction pointer, the call pointer or the predicate itself.

* `JumpOp.awaited?`, `JumpOp.holds`: the condition of a jump.
* `Core.destination`: where a jump leads, whether its condition holds or not.
* `Core.neededSlot?`: the cell of the call stack that a jump cannot do without.
* `Core.Transferred`: what a jump changes.
* `Core.jump_matches_reference`: when a jump fails, and what it does otherwise.
-/

namespace RegisterMachine

namespace JumpOp

/-- The predicate that a jump waits for, if its way depends on the predicate. -/
def awaited? : JumpOp → Option Bool
  | branchIfTrue | branchIfTrueRegister | callIfTrue | callIfTrueRegister => some true
  | branchIfFalse | branchIfFalseRegister | callIfFalse | callIfFalseRegister => some false
  | selectIfTrue | selectCallIfTrue => some true
  | selectIfFalse | selectCallIfFalse => some false
  | branch | branchRegister | call | callRegister | ret => none

/-- Whether the condition of a jump holds. -/
def holds (predicate : Bool) (op : JumpOp) : Bool :=
  op.awaited?.all (predicate == ·)

end JumpOp

namespace Core

open Exec

variable {δ : Type} {core core' : Core δ} {op : JumpOp} {i : Instruction}
  {address : Word}

/-! ## The reference -/

/-- The address that a return goes to; the cell must be there. -/
def returnAddress (core : Core δ) : Word :=
  (core.memory.callStack.load core.callPointer).toOption.getD 0

/-- Where a jump leads if its condition holds. -/
def aim (core : Core δ) (i : Instruction) : JumpOp → Word
  | .branch | .call | .branchIfTrue | .callIfTrue | .branchIfFalse | .callIfFalse =>
    i.immediate.toUInt64
  | .branchRegister | .callRegister | .branchIfTrueRegister | .callIfTrueRegister |
    .branchIfFalseRegister | .callIfFalseRegister => core.register i.dest
  | .selectIfTrue | .selectIfFalse | .selectCallIfTrue | .selectCallIfFalse => core.register i.src0
  | .ret => core.returnAddress

/-- Where a jump leads if its condition does not hold. -/
def detour (core : Core δ) (i : Instruction) : JumpOp → Word
  | .selectIfTrue | .selectIfFalse | .selectCallIfTrue | .selectCallIfFalse => core.register i.src1
  | _ => core.profile.mask (core.instructionPointer + 1)

/-- Where a jump leads. -/
def destination (core : Core δ) (op : JumpOp) (i : Instruction) : Word :=
  if op.holds (core.register core.profile.registers.predicate != 0) then core.aim i op
  else core.detour i op

/-- The address on the call stack that a jump cannot do without. -/
def neededSlot? (core : Core δ) (op : JumpOp) : Option Word :=
  if core.takesCall op then some core.callSlot
  else if op = .ret then some core.callPointer
  else none

/-- What a jump changes: the instruction pointer, the flag that keeps the run loop from moving it
on, and with a call or a return the call pointer, with a call also one cell of the call stack. -/
structure Transferred (core : Core δ) (op : JumpOp) (i : Instruction) (core' : Core δ) :
    Prop where
  instructionPointer_eq : core'.instructionPointer = core.profile.mask (core.destination op i)
  callPointer_eq : core'.callPointer =
    if core.takesCall op then core.callSlot
    else if op = .ret then core.profile.mask (core.callPointer - 1)
    else core.callPointer
  callStack_eq : core'.memory.callStack =
    if core.takesCall op then
      core.memory.callStack.put core.callSlot (core.profile.mask (core.instructionPointer + 1))
    else core.memory.callStack
  register_eq : ∀ r, r ≠ core.profile.registers.instructionPointer →
    r ≠ core.profile.registers.callPointer → core'.register r = core.register r
  advance_eq : core'.advance = false
  /-- With these put back, the core is as it was. -/
  rest_eq :
    { core' with
      registers := { core'.registers with slots := core.registers.slots }
      memory := { core'.memory with callStack := core.memory.callStack }
      advance := core.advance } = core

/-! ## Flows -/

theorem flow_eq_call (h : core.takesCall op = true) (i : Instruction) :
    core.flow op i = .call (core.destination op i) := by
  unfold takesCall at h
  unfold flow destination Core.predicate
  generalize (core.register core.profile.registers.predicate != 0) = predicate at h ⊢
  cases op <;> cases predicate <;> first | rfl | cases h

/-- A jump that is not taken goes on where a jump to the next address would. -/
theorem flow_eq_next_or_goto (h : core.takesCall op = false) (hr : op ≠ .ret)
    (i : Instruction) :
    core.flow op i = .next ∧ core.destination op i = core.nextAddress ∨
      core.flow op i = .goto (core.destination op i) := by
  unfold takesCall at h
  unfold flow destination Core.predicate
  generalize (core.register core.profile.registers.predicate != 0) = predicate at h ⊢
  cases op <;> cases predicate <;>
    first | exact .inr rfl | exact .inl ⟨rfl, rfl⟩ | exact absurd rfl hr | cases h

theorem destination_ret (h : core.memory.callStack.load core.callPointer = .ok address)
    (i : Instruction) : core.destination .ret i = address := by
  change core.returnAddress = address
  rw [returnAddress, h]
  rfl

/-! ## What a jump leaves -/

/-- The core with the call stack and the call pointer as a jump leaves them. -/
def linked (core : Core δ) (stack : Segment Word) (pointer : Word) : Core δ :=
  (callStackPart.set stack core).put core.profile.registers.callPointer pointer

theorem transferred_linked (hw : core.profile.WellFormed) (op : JumpOp) (i : Instruction)
    {stack : Segment Word} {pointer : Word}
    (hstack : stack =
      if core.takesCall op then core.memory.callStack.put core.callSlot core.nextAddress
      else core.memory.callStack)
    (hpointer : pointer =
      if core.takesCall op then core.callSlot
      else if op = .ret then core.profile.mask (core.callPointer - 1)
      else core.callPointer) :
    core.Transferred op i ((core.linked stack pointer).jumped (core.destination op i)) where
  instructionPointer_eq := register_put_self _ _ _
  callPointer_eq := by
    rw [← hpointer]
    exact (register_put_of_ne hw.callPointer_ne_instructionPointer _).trans
      (register_put_self _ _ _)
  callStack_eq := hstack
  register_eq r hip hcsp := (register_put_of_ne hip _).trans (register_put_of_ne hcsp _)
  advance_eq := rfl
  rest_eq := rfl

section
variable (hmask : core.registers.mask = core.profile.wordMask) (hw : core.profile.WellFormed)
include hmask hw

theorem follow_of_calls (hc : core.takesCall op = true)
    (hroom : core.callSlot.toNat < core.memory.callStack.capacity) (i : Instruction) :
    ∃ core', Gives core (follow (core.flow op i)) (.ok ()) core' ∧ core.Transferred op i core' := by
  have hnext : core.profile.mask core.nextAddress = core.nextAddress := Profile.mask_mask _
  rw [flow_eq_call hc]
  refine ⟨_, gives_follow_call hmask hw.writable hroom _, transferred_linked hw op i ?_ ?_⟩
  · rw [if_pos hc, hnext]
  · rw [if_pos hc]

theorem follow_of_ret (ha : core.memory.callStack.load core.callPointer = .ok address)
    (i : Instruction) :
    ∃ core', Gives core (follow (core.flow .ret i)) (.ok ()) core' ∧
      core.Transferred .ret i core' := by
  refine ⟨_, gives_follow_ret hmask hw.writable ha, ?_⟩
  rw [← destination_ret ha i]
  exact transferred_linked hw .ret i rfl rfl

theorem follow_of_not_calls (hc : core.takesCall op = false) (hr : op ≠ .ret)
    (i : Instruction) :
    ∃ core', Gives core (follow (core.flow op i)) (.ok ()) core' ∧ core.Transferred op i core' := by
  have hsame : core.linked core.memory.callStack core.callPointer = core := put_register core _
  have htransferred : core.Transferred op i
      ((core.linked core.memory.callStack core.callPointer).jumped (core.destination op i)) :=
    transferred_linked hw op i (by simp [hc]) (by simp [hc, hr])
  rw [hsame] at htransferred
  refine ⟨_, ?_, htransferred⟩
  rcases flow_eq_next_or_goto hc hr i with ⟨hflow, hnext⟩ | hflow
  · rw [hflow, hnext]
    exact gives_follow_next hmask hw.writable
  · rw [hflow]
    exact gives_follow_goto hmask hw.writable _

end

/-! ## Instructions -/

/-- **A jump does what the reference says.** It fails just if the cell of the call stack that it
    cannot do without is not there, and then changes nothing. -/
theorem jump_matches_reference [Device δ] (calls : SystemCallTable δ)
    (hi : i.operation = .ok (.jump op)) (hmask : core.registers.mask = core.profile.wordMask)
    (hw : core.profile.WellFormed) :
    (∀ address ∈ core.neededSlot? op, ¬address.toNat < core.memory.callStack.capacity →
      Gives core (execute calls i)
        (.error (.addressOutOfRange core.memory.callStack.region address
          core.memory.callStack.capacity)) core) ∧
    ((∀ address ∈ core.neededSlot? op, address.toNat < core.memory.callStack.capacity) →
      ∃ core', Gives core (execute calls i) (.ok ()) core' ∧ core.Transferred op i core') := by
  have hjump {o : Except Fault Unit} {core' : Core δ}
      (hx : Gives core (follow (core.flow op i)) o core') :
      Gives core (execute calls i) o core' := by
    rw [execute_eq hi]
    exact ensures_executeJump hx
  by_cases hc : core.takesCall op = true
  · simp only [neededSlot?, if_pos hc, Option.mem_some_iff, forall_eq']
    refine ⟨fun hfull => hjump ?_, fun hroom => ?_⟩
    · rw [flow_eq_call hc]
      exact gives_follow_call_full hfull _
    · obtain ⟨core', hx, htransferred⟩ := follow_of_calls hmask hw hc hroom i
      exact ⟨core', hjump hx, htransferred⟩
  · by_cases hr : op = .ret
    · cases hr
      simp only [neededSlot?, if_neg hc, if_true, Option.mem_some_iff, forall_eq']
      refine ⟨fun hempty => hjump ?_, fun hlt => ?_⟩
      · exact gives_follow_ret_error (Segment.load_outside hempty)
      · obtain ⟨address, ha⟩ := Segment.exists_load hlt
        obtain ⟨core', hx, htransferred⟩ := follow_of_ret hmask hw ha i
        exact ⟨core', hjump hx, htransferred⟩
    · simp only [neededSlot?, if_neg hc, if_neg hr]
      refine ⟨by simp, fun _ => ?_⟩
      obtain ⟨core', hx, htransferred⟩ := follow_of_not_calls hmask hw (by simpa using hc) hr i
      exact ⟨core', hjump hx, htransferred⟩

/-- A core that has called `depth + 1` times, modulo its word width. -/
def forking (depth : Word) : Core Empty :=
  (((powerOn .small .empty default).put 2 16).put 8 3).put 5 depth

/-- The call pointer is the target here, and it is read before the call moves it. -/
theorem jump_matches_reference_forking :
    let i := Instruction.jump .selectCallIfFalse 0 5 8
    (∃ core', Gives (forking 0xffff) (execute .standard i) (.ok ()) core' ∧
      core'.instructionPointer = 0xffff ∧ core'.callPointer = 0 ∧
      core'.memory.callStack.load 0 = .ok 17 ∧ core'.advance = false) ∧
    Gives (forking 1) (execute .standard i) (.error (.addressOutOfRange .callStack 2 2))
      (forking 1) := by
  intro i
  have hi : i.operation = .ok (.jump .selectCallIfFalse) := rfl
  have hempty : (forking 0xffff).registers.mask = (forking 0xffff).profile.wordMask := rfl
  have hfull : (forking 1).registers.mask = (forking 1).profile.wordMask := rfl
  have hslot : (forking 0xffff).neededSlot? .selectCallIfFalse = some 0 := by decide +kernel
  obtain ⟨core', hx, h⟩ := (jump_matches_reference .standard hi hempty (by decide)).2 <| by
    rw [hslot]
    rintro _ ⟨⟩
    decide
  have hfails := (jump_matches_reference .standard hi hfull (by decide)).1 2
    (by decide +kernel) (by decide +kernel)
  refine ⟨⟨core', hx, ?_, ?_, ?_, h.advance_eq⟩, hfails⟩
  · rw [h.instructionPointer_eq]
    decide +kernel
  · rw [h.callPointer_eq]
    decide +kernel
  · rw [h.callStack_eq]
    decide +kernel

end Core

end RegisterMachine
