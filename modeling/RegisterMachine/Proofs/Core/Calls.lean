import RegisterMachine.Proofs.Core.Atomic
import RegisterMachine.Proofs.Stack

/-!
# Calls and returns match

The calls of a run that have not returned form a list of frames, the latest last. A taken call
adds a frame to it and a return takes the last one off; no other instruction has a part in it, as
long as none writes the call pointer itself.

* `Core.pending`: the frames at a point of a run.
* `Core.Nested`: the call stack and the call pointer agree with a list of frames.
* `Core.Nested.step`: a step keeps them in agreement.
* `Core.call_discipline`: what this says of a run.
-/

namespace RegisterMachine

/-- Whether a jump is a call that is taken under a predicate. -/
def JumpOp.calls (predicate : Bool) : JumpOp → Bool
  | call | callRegister | selectCallIfTrue | selectCallIfFalse => true
  | callIfTrue | callIfTrueRegister => predicate
  | callIfFalse | callIfFalseRegister => !predicate
  | _ => false

/-- A call that has not returned: the address after it, and the call pointer before it. -/
structure Frame where
  returnAddress : Word
  callPointer : Word
  deriving DecidableEq, Repr

namespace Core

open Exec

variable {δ : Type} {core core' : Core δ} {frames : List Frame}

/-! ## Frames of a run -/

/-- Whether a jump is a call that the core takes. Any word but zero counts as true. -/
def takesCall (core : Core δ) (op : JumpOp) : Bool :=
  op.calls (core.register core.profile.registers.predicate != 0)

/-- The frames once the upcoming operation has retired. -/
def framesAfter (core : Core δ) (frames : List Frame) : List Frame :=
  match core.upcoming? with
  | some (_, .jump op) =>
    if core.takesCall op then
      frames ++ [⟨core.profile.mask (core.instructionPointer + 1), core.callPointer⟩]
    else if op = .ret then frames.dropLast
    else frames
  | _ => frames

/-- The frames after a step with a given outcome. -/
def framesAfterStep (core : Core δ) (frames : List Frame) : Except Fault Unit → List Frame
  | .ok () => core.framesAfter frames
  | .error _ => frames

section
variable [Device δ] (start : Core δ) (log : Log)

/-- The frames after `n` steps, if there are none to begin with. -/
def pending : ℕ → List Frame
  | 0 => []
  | n + 1 => (after start log n).framesAfterStep (pending n) (stepOutcome start log n)

end

/-! ## Where jumps lead -/

section
variable {op : JumpOp}

theorem flow_of_calls (h : core.takesCall op = true) (i : Instruction) :
    ∃ address, core.flow op i = .call address := by
  change op.calls core.predicate = true at h
  cases op <;> simp_all [JumpOp.calls, flow, JumpForm.ofJump, JumpForm.map, JumpForm.flow,
    JumpForm.jumpTo]

theorem flow_of_not_calls (h : core.takesCall op = false) (hr : op ≠ .ret)
    (i : Instruction) :
    core.flow op i = .next ∨ ∃ address, core.flow op i = .goto address := by
  change op.calls core.predicate = false at h
  cases op <;> cases hp : core.predicate <;>
    simp_all [JumpOp.calls, flow, JumpForm.ofJump, JumpForm.map, JumpForm.flow, JumpForm.jumpTo]

theorem flow_ret (i : Instruction) : core.flow .ret i = .ret := rfl

end

/-! ## Agreement -/

/-- The call stack and the call pointer are what the frames say. -/
structure Nested (core : Core δ) (frames : List Frame) : Prop where
  callStack : core.memory.callStack.Stacks core.profile core.callPointer
    (frames.map Frame.returnAddress)
  returnAddress_le : ∀ frame ∈ frames, frame.returnAddress ≤ core.profile.wordMask
  callPointers_eq : frames.map Frame.callPointer =
    (List.range frames.length).map fun depth => core.profile.mask (UInt64.ofNat depth - 1)

namespace Nested

theorem congr (h : core.Nested frames) (hp : core'.profile = core.profile)
    (hcsp : core'.callPointer = core.callPointer)
    (hcs : core'.memory.callStack = core.memory.callStack) : core'.Nested frames where
  callStack := by rw [hp, hcsp, hcs]; exact h.callStack
  returnAddress_le := by rw [hp]; exact h.returnAddress_le
  callPointers_eq := by rw [hp]; exact h.callPointers_eq

section
variable (h : core.Nested frames)
  (hcap : core.memory.callStack.capacity ≤ core.profile.wordMask.toNat)
include h

theorem length_le : frames.length ≤ core.memory.callStack.capacity := by
  simpa using h.callStack.length_le

theorem callPointer_eq :
    core.callPointer = core.profile.mask (UInt64.ofNat frames.length - 1) := by
  simpa using h.callStack.pointer_eq

include hcap

/-- There is room for a call just if there is room for another frame. -/
theorem callSlot_lt_iff : core.callSlot.toNat < core.memory.callStack.capacity ↔
    frames.length < core.memory.callStack.capacity := by
  rw [callSlot, h.callStack.toNat_slot hcap, List.length_map]

theorem push (hroom : frames.length < core.memory.callStack.capacity)
    (hp : core'.profile = core.profile) (hcsp : core'.callPointer = core.callSlot)
    (hcs : core'.memory.callStack = core.memory.callStack.put core.callSlot core.nextAddress) :
    core'.Nested (frames ++ [⟨core.nextAddress, core.callPointer⟩]) where
  callStack := by
    rw [hp, hcsp, hcs, List.map_append]
    exact h.callStack.push hcap (by simpa using hroom) core.nextAddress
  returnAddress_le := by
    rw [hp]
    intro frame hf
    rcases List.mem_append.1 hf with hf | hf
    · exact h.returnAddress_le frame hf
    · cases List.mem_singleton.1 hf
      exact core.profile.mask_le _
  callPointers_eq := by
    rw [hp, List.map_append, h.callPointers_eq, List.length_append, List.length_singleton,
      List.range_succ, List.map_append, List.map_singleton, List.map_singleton, h.callPointer_eq]

end

section
variable {outer : List Frame} {frame : Frame} (h : core.Nested (outer ++ [frame]))
include h

/-- The last frame is what was found at the call that has made it. -/
theorem frame_callPointer :
    frame.callPointer = core.profile.mask (core.callPointer - 1) := by
  have hlast := congrArg List.getLast? h.callPointers_eq
  rw [h.callPointer_eq, Profile.mask_mask_sub]
  simpa [List.range_succ] using hlast

theorem pop (hp : core'.profile = core.profile) (hcsp : core'.callPointer = frame.callPointer)
    (hcs : core'.memory.callStack = core.memory.callStack) : core'.Nested outer where
  callStack := by
    have hstack := h.callStack
    rw [List.map_append] at hstack
    rw [hp, hcsp, hcs, h.frame_callPointer]
    exact hstack.pop
  returnAddress_le := by
    rw [hp]
    exact fun frame hf => h.returnAddress_le frame (List.mem_append_left _ hf)
  callPointers_eq := by
    have hall := h.callPointers_eq
    rw [List.map_append, List.length_append, List.length_singleton, List.range_succ,
      List.map_append] at hall
    rw [hp]
    exact List.append_inj_left hall (by simp)

end

end Nested

/-! ## Steps -/

section
variable (hw : core.profile.WellFormed)
include hw

theorem retired_callPointer (address : Word) :
    (core.retired address).callPointer = core.callPointer := by
  rw [callPointer, retired_profile]
  exact register_retired_of_ne hw.callPointer_ne_instructionPointer address

theorem retired_jumped_callPointer (address last : Word) :
    ((core.jumped address).retired last).callPointer = core.callPointer := by
  have hj : (core.jumped address).profile.WellFormed := hw
  rw [retired_callPointer hj]
  exact register_put_of_ne hw.callPointer_ne_instructionPointer _

end

/-- A jump has set the instruction pointer, which does not move on after it. -/
theorem retired_jumped_instructionPointer (address last : Word) :
    ((core.jumped address).retired last).instructionPointer = core.profile.mask address :=
  register_put_self core _ _

/-- A step that has nothing to do with calls leaves the call pointer and the call stack alone. -/
def SameCalls (core core' : Core δ) : Prop :=
  core'.profile = core.profile ∧ core'.callPointer = core.callPointer ∧
    core'.memory.callStack = core.memory.callStack

theorem stable_sameCalls (core : Core δ) :
    Stable core.profile (· ≠ core.profile.registers.callPointer)
      fun core' => core'.Sound ∧ core.SameCalls core' where
  profile_eq _ h := h.2.1
  sound _ h := h.1
  put core' _ value hr h₁ h := by
    obtain ⟨hs, hp, hcsp, hcs⟩ := h
    refine ⟨hp ▸ hs.put h₁ value, hp, ?_, hcs⟩
    rw [← hcsp, callPointer, callPointer]
    exact register_put_of_ne (hp ▸ hr.symm) _
  data _ _ _ h := h
  microcode _ _ _ h := h
  stack _ _ _ _ h := h
  devices _ _ h := h
  output _ _ h := h
  status _ _ h := h

theorem Undone.sameCalls (h : core.Undone core') : core.SameCalls core' := by
  rw [h.eq]
  exact ⟨rfl, rfl, rfl⟩

section
variable [Device δ] {i : Instruction} {op : Operation} (hs : core.Sound)
  (hw : core.profile.WellFormed)
include hs hw

/-- An instruction other than a jump that does not write the call pointer. -/
theorem sameCalls_execute (hi : i.operation = .ok op) (hj : op.group ≠ .jump)
    (hop : core.profile.registers.callPointer ∉ op.writes core.profile.registers i) (log : Log) :
    core.SameCalls ((execute .standard i).final core log) :=
  ((stable_sameCalls core).keeps_execute hw.writable hi (fun _ hr => ne_of_mem_of_not_mem hr hop) hj
    core log ⟨hs, rfl, rfl, rfl⟩).2

/-- An instruction that faults, even one that names the call pointer as its destination. -/
theorem sameCalls_execute_of_error {log : Log} {fault : Fault}
    (hx : (execute .standard i).result core log = .error fault) :
    core.SameCalls ((execute .standard i).final core log) := by
  by_cases hpop : i.operation = .ok (.move .pop) ∧ i.dest = core.profile.registers.stackPointer
  · refine sameCalls_execute hs hw hpop.1 (by rintro ⟨⟩) ?_ log
    have hne := hw.callPointer_ne_stackPointer
    simp [Operation.writes, Transfer.ofMove, Transfer.writes, Place.registers, hpop.2, hne]
  · exact (reverts_execute hs hw.writable (fun hi hr => hpop ⟨hi, hr⟩) log fault hx).sameCalls

end

/-! ## Jumps -/

section
variable [Device δ] {i : Instruction} {op : JumpOp} (hs : core.Sound)
  (hw : core.profile.WellFormed) (hu : core.upcoming? = some (i, .jump op))
include hs hw hu

theorem gives_step_of_follow_ok (hx : Gives core (follow (core.flow op i)) (.ok ()) core') :
    Gives core (step .standard) (.ok ()) (core'.retired core.instructionPointer) := by
  refine gives_step_of_ok hs hw.writable hu ?_
  rw [execute_eq (upcoming?_eq_some_iff.1 hu).2.2]
  exact ensures_executeJump hx

theorem gives_step_of_follow_error {fault : Fault}
    (hx : Gives core (follow (core.flow op i)) (.error fault) core') :
    Gives core (step .standard) (.error fault) core'.faulted := by
  refine gives_step_of_error hs hw.writable hu ?_
  rw [execute_eq (upcoming?_eq_some_iff.1 hu).2.2]
  exact ensures_executeJump hx

/-- A jump that is neither a taken call nor a return. -/
theorem step_of_not_calls (hc : core.takesCall op = false) (hr : op ≠ .ret) :
    ∃ core', Gives core (step .standard) (.ok ()) core' ∧ core.SameCalls core' := by
  have hgoto (address : Word) (hf : Gives core (follow (core.flow op i)) (.ok ())
      (core.jumped address)) :
      ∃ core', Gives core (step .standard) (.ok ()) core' ∧ core.SameCalls core' := by
    refine ⟨_, gives_step_of_follow_ok hs hw hu hf, retired_profile _,
      retired_jumped_callPointer hw _ _, ?_⟩
    rw [retired_memory, jumped_memory]
  rcases flow_of_not_calls hc hr i with hflow | ⟨address, hflow⟩
  · refine hgoto core.nextAddress ?_
    rw [hflow]
    exact gives_follow_next hs.mask_eq hw.writable
  · refine hgoto address ?_
    rw [hflow]
    exact gives_follow_goto hs.mask_eq hw.writable address

section
variable (h : core.Nested frames)
  (hcap : core.memory.callStack.capacity ≤ core.profile.wordMask.toNat)
include h hcap

theorem step_of_calls (hc : core.takesCall op = true)
    (hroom : frames.length < core.memory.callStack.capacity) :
    ∃ core', Gives core (step .standard) (.ok ()) core' ∧
      core'.Nested (frames ++ [⟨core.nextAddress, core.callPointer⟩]) := by
  obtain ⟨address, hflow⟩ := flow_of_calls hc i
  have hx := gives_follow_call hs.mask_eq hw.writable ((h.callSlot_lt_iff hcap).2 hroom) address
  rw [← hflow] at hx
  have hcalled : (core.called core.nextAddress).profile.WellFormed := hw
  refine ⟨_, gives_step_of_follow_ok hs hw hu hx, h.push hcap hroom (retired_profile _) ?_ ?_⟩
  · rw [retired_jumped_callPointer hcalled]
    exact register_put_self _ _ _
  · have hmask : core.profile.mask core.nextAddress = core.nextAddress := Profile.mask_mask _
    rw [retired_memory, jumped_memory, called, hmask]
    rfl

theorem step_of_calls_full (hc : core.takesCall op = true)
    (hfull : frames.length = core.memory.callStack.capacity) :
    ∃ fault, Gives core (step .standard) (.error fault) core.faulted := by
  obtain ⟨address, hflow⟩ := flow_of_calls hc i
  have hroom : ¬core.callSlot.toNat < core.memory.callStack.capacity := by
    rw [h.callSlot_lt_iff hcap]
    omega
  have hx := gives_follow_call_full hroom address
  rw [← hflow] at hx
  exact ⟨_, gives_step_of_follow_error hs hw hu hx⟩

end

end

section
variable [Device δ] {i : Instruction} (hs : core.Sound) (hw : core.profile.WellFormed)
  (hu : core.upcoming? = some (i, .jump .ret))
  (hcap : core.memory.callStack.capacity ≤ core.profile.wordMask.toNat)
include hs hw hu hcap

/-- A return goes where the last frame says, and leaves the call pointer that its call has
found. -/
theorem step_of_ret {outer : List Frame} {frame : Frame} (h : core.Nested (outer ++ [frame])) :
    ∃ core', Gives core (step .standard) (.ok ()) core' ∧ core'.Nested outer ∧
      core'.instructionPointer = frame.returnAddress ∧
      core'.callPointer = frame.callPointer := by
  have hstack := h.callStack
  rw [List.map_append] at hstack
  have hx := gives_follow_ret hs.mask_eq hw.writable (hstack.load_concat hcap)
  rw [← flow_ret i] at hx
  have hle := h.returnAddress_le frame (List.mem_append_right _ List.mem_cons_self)
  have hcsp : (((core.put core.profile.registers.callPointer
      (core.profile.mask (core.callPointer - 1))).jumped frame.returnAddress).retired
        core.instructionPointer).callPointer = frame.callPointer := by
    have hpopped : (core.put core.profile.registers.callPointer
        (core.profile.mask (core.callPointer - 1))).profile.WellFormed := hw
    rw [retired_jumped_callPointer hpopped, h.frame_callPointer]
    exact register_put_self _ _ _
  refine ⟨_, gives_step_of_follow_ok hs hw hu hx, h.pop (retired_profile _) hcsp ?_, ?_, hcsp⟩
  · rw [retired_memory, jumped_memory, put_memory]
  · rw [retired_jumped_instructionPointer]
    exact Profile.mask_of_le hle

theorem step_of_ret_empty (h : core.Nested []) :
    ∃ fault, Gives core (step .standard) (.error fault) core.faulted := by
  have hx := gives_follow_ret_error (h.callStack.load_nil hcap)
  rw [← flow_ret i] at hx
  exact ⟨_, gives_step_of_follow_error hs hw hu hx⟩

end

/-- The core is about to carry out an arithmetic or move instruction that writes the call
pointer. -/
def WritesCallPointer (core : Core δ) : Prop :=
  ∃ i op, core.upcoming? = some (i, op) ∧ (op.group = .arithmetic ∨ op.group = .move) ∧
    core.profile.registers.callPointer ∈ op.writes core.profile.registers i

theorem framesAfter_of_not_jump (h : ∀ i op, core.upcoming? ≠ some (i, .jump op)) :
    core.framesAfter frames = frames := by
  rw [framesAfter]
  split
  · next i op hu => exact absurd hu (h i op)
  · rfl

theorem framesAfter_of_jump {i : Instruction} {op : JumpOp}
    (hu : core.upcoming? = some (i, .jump op)) :
    core.framesAfter frames =
      if core.takesCall op then frames ++ [⟨core.nextAddress, core.callPointer⟩]
      else if op = .ret then frames.dropLast
      else frames := by
  rw [framesAfter, hu]
  rfl

variable [Device δ]

theorem Nested.step_of_jump {i : Instruction} {op : JumpOp} (h : core.Nested frames)
    (hs : core.Sound) (hw : core.profile.WellFormed)
    (hcap : core.memory.callStack.capacity ≤ core.profile.wordMask.toNat)
    (hu : core.upcoming? = some (i, .jump op)) (log : Log) :
    ((step .standard).final core log).Nested
      (core.framesAfterStep frames ((step .standard).result core log)) := by
  have hfault {fault : Fault} (hx : Gives core (step .standard) (.error fault) core.faulted) :
      ((step .standard).final core log).Nested
        (core.framesAfterStep frames ((step .standard).result core log)) := by
    rw [hx.result_eq log, hx.final_eq log]
    exact h.congr rfl rfl rfl
  by_cases hc : core.takesCall op = true
  · rcases h.length_le.lt_or_eq with hroom | hfull
    · obtain ⟨core', hx, hn⟩ := step_of_calls hs hw hu h hcap hc hroom
      rwa [hx.result_eq log, hx.final_eq log, framesAfterStep, framesAfter_of_jump hu, if_pos hc]
    · obtain ⟨fault, hx⟩ := step_of_calls_full hs hw hu h hcap hc hfull
      exact hfault hx
  · rw [Bool.not_eq_true] at hc
    by_cases hr : op = .ret
    · subst hr
      rcases List.eq_nil_or_concat' frames with rfl | ⟨outer, frame, rfl⟩
      · obtain ⟨fault, hx⟩ := step_of_ret_empty hs hw hu hcap h
        exact hfault hx
      · obtain ⟨core', hx, hn, -, -⟩ := step_of_ret hs hw hu hcap h
        rw [hx.result_eq log, hx.final_eq log, framesAfterStep, framesAfter_of_jump hu, hc]
        simpa using hn
    · obtain ⟨core', hx, hp, hcsp, hcs⟩ := step_of_not_calls hs hw hu hc hr
      rw [hx.result_eq log, hx.final_eq log, framesAfterStep, framesAfter_of_jump hu, hc]
      simpa [hr] using h.congr hp hcsp hcs

/-- **A step keeps the call stack in agreement with the frames.** -/
theorem Nested.step (h : core.Nested frames) (hs : core.Sound) (hw : core.profile.WellFormed)
    (hcap : core.memory.callStack.capacity ≤ core.profile.wordMask.toNat) (log : Log)
    (hwrites : (Core.step .standard).result core log = .ok () → ¬core.WritesCallPointer) :
    ((Core.step .standard).final core log).Nested
      (core.framesAfterStep frames ((Core.step .standard).result core log)) := by
  by_cases hj : ∃ i op, core.upcoming? = some (i, .jump op)
  · obtain ⟨i, op, hu⟩ := hj
    exact h.step_of_jump hs hw hcap hu log
  · have hframes : core.framesAfter frames = frames :=
      framesAfter_of_not_jump fun i op hu => hj ⟨i, op, hu⟩
    have hstep := stepped hs hw.writable log
    generalize (Core.step .standard).result core log = o at hstep hwrites ⊢
    generalize (Core.step .standard).final core log = core' at hstep ⊢
    cases hstep with
    | stopped _ => rwa [framesAfterStep, hframes]
    | unfetched _ _ => exact h.congr rfl rfl rfl
    | failed _ _ hx =>
      obtain ⟨hp, hcsp, hcs⟩ := sameCalls_execute_of_error hs hw hx
      exact h.congr hp hcsp hcs
    | @retired i log hr hi hx =>
      rw [framesAfterStep, hframes]
      cases hop : i.operation with
      | error fault => cases hx.symm.trans ((gives_execute_error core hop).result_eq log)
      | ok op =>
        have hu : core.upcoming? = some (i, op) := upcoming?_eq_some_iff.2 ⟨hr, hi, hop⟩
        have hgroup : op.group ≠ .jump := by
          cases op with
          | jump op => exact absurd ⟨i, op, hu⟩ hj
          | _ => rintro ⟨⟩
        have hcsp : core.profile.registers.callPointer ∉ op.writes core.profile.registers i := by
          intro hmem
          cases op with
          | arithmetic op => exact hwrites rfl ⟨i, _, hu, .inl rfl, hmem⟩
          | move op => exact hwrites rfl ⟨i, _, hu, .inr rfl, hmem⟩
          | jump op => exact hgroup rfl
          | compare op => exact hw.callPointer_ne_predicate (List.mem_singleton.1 hmem)
          | misc op => exact absurd hmem List.not_mem_nil
        obtain ⟨hp, hcsp, hcs⟩ := sameCalls_execute hs hw hop hgroup hcsp log
        refine h.congr ((retired_profile _).trans hp) ?_ ((congrArg _ (retired_memory _)).trans hcs)
        rw [retired_callPointer (hp ▸ hw), hcsp]

/-! ## What jumps find -/

section
variable {i : Instruction} (hs : core.Sound) (hw : core.profile.WellFormed) (log : Log)
include hs hw

/-- A conditional call that is not taken is no call. -/
theorem framesAfterStep_of_not_calls {op : JumpOp} (hu : core.upcoming? = some (i, .jump op))
    (hr : op ≠ .ret) (hc : core.takesCall op = false) :
    (Core.step .standard).result core log = .ok () ∧
      core.framesAfterStep frames ((Core.step .standard).result core log) = frames ∧
      core.SameCalls ((Core.step .standard).final core log) := by
  obtain ⟨core', hx, hsame⟩ := step_of_not_calls hs hw hu hc hr
  rw [hx.result_eq log, hx.final_eq log, framesAfterStep, framesAfter_of_jump hu, hc]
  simpa [hr] using hsame

namespace Nested
variable (h : core.Nested frames)
  (hcap : core.memory.callStack.capacity ≤ core.profile.wordMask.toNat)
include h hcap

/-- A taken call faults just if the call stack is full. -/
theorem call_faults_iff {op : JumpOp} (hu : core.upcoming? = some (i, .jump op))
    (hc : core.takesCall op = true) :
    (∃ fault, (Core.step .standard).result core log = .error fault) ↔
      frames.length = core.memory.callStack.capacity := by
  rcases h.length_le.lt_or_eq with hroom | hfull
  · obtain ⟨core', hx, -⟩ := step_of_calls hs hw hu h hcap hc hroom
    simp [hx.result_eq log, hroom.ne]
  · obtain ⟨fault, hx⟩ := step_of_calls_full hs hw hu h hcap hc hfull
    simp [hx.result_eq log, hfull]

/-- A return faults just if there is nothing to return from. -/
theorem ret_faults_iff (hu : core.upcoming? = some (i, .jump .ret)) :
    (∃ fault, (Core.step .standard).result core log = .error fault) ↔ frames = [] := by
  rcases List.eq_nil_or_concat' frames with rfl | ⟨outer, frame, rfl⟩
  · obtain ⟨fault, hx⟩ := step_of_ret_empty hs hw hu hcap h
    simp [hx.result_eq log]
  · obtain ⟨core', hx, -⟩ := step_of_ret hs hw hu hcap h
    simp [hx.result_eq log]

/-- A return undoes the last call that has not returned. -/
theorem ret_matches (hu : core.upcoming? = some (i, .jump .ret))
    (hok : (Core.step .standard).result core log = .ok ()) :
    ∃ frame,
      frames = core.framesAfterStep frames ((Core.step .standard).result core log) ++ [frame] ∧
      ((Core.step .standard).final core log).instructionPointer = frame.returnAddress ∧
      ((Core.step .standard).final core log).callPointer = frame.callPointer := by
  rcases List.eq_nil_or_concat' frames with rfl | ⟨outer, frame, rfl⟩
  · obtain ⟨fault, hx⟩ := step_of_ret_empty hs hw hu hcap h
    cases (hx.result_eq log).symm.trans hok
  · obtain ⟨core', hx, -, hip, hcsp⟩ := step_of_ret hs hw hu hcap h
    refine ⟨frame, ?_, ?_, ?_⟩
    · rw [hok, framesAfterStep, framesAfter_of_jump hu]
      simp [takesCall, JumpOp.calls]
    · rw [hx.final_eq log, hip]
    · rw [hx.final_eq log, hcsp]

end Nested

end

/-! ## Runs -/

/-- What is known of calls and returns after `n` steps of a run. -/
structure CallDiscipline (start : Core δ) (log : Log) (n : ℕ) : Prop where
  callPointer_eq : (start.after log n).callPointer =
    start.profile.mask (UInt64.ofNat (start.pending log n).length - 1)
  cells_eq : (start.after log n).memory.callStack.cells.toList.take (start.pending log n).length =
    (start.pending log n).map Frame.returnAddress
  /-- A taken call faults just if the call stack is full. -/
  call_faults_iff : ∀ i op, (start.after log n).upcoming? = some (i, .jump op) →
    (start.after log n).takesCall op = true →
    ((∃ fault, start.stepOutcome log n = .error fault) ↔
      (start.pending log n).length = start.profile.callStackCapacity)
  /-- A return faults just if there is nothing to return from. -/
  ret_faults_iff : ∀ i, (start.after log n).upcoming? = some (i, .jump .ret) →
    ((∃ fault, start.stepOutcome log n = .error fault) ↔ start.pending log n = [])
  /-- A return undoes the last call that has not returned. -/
  ret_matches : ∀ i, (start.after log n).upcoming? = some (i, .jump .ret) →
    start.stepOutcome log n = .ok () →
    ∃ frame, start.pending log n = start.pending log (n + 1) ++ [frame] ∧
      (start.after log (n + 1)).instructionPointer = frame.returnAddress ∧
      (start.after log (n + 1)).callPointer = frame.callPointer
  /-- A conditional call that is not taken is no call. -/
  untaken : ∀ i op, (start.after log n).upcoming? = some (i, .jump op) →
    (JumpForm.ofJump i op).isCall = true → (start.after log n).takesCall op = false →
    start.stepOutcome log n = .ok () ∧ start.pending log (n + 1) = start.pending log n ∧
      (start.after log (n + 1)).callPointer = (start.after log n).callPointer ∧
      (start.after log (n + 1)).memory.callStack = (start.after log n).memory.callStack

omit [Device δ] in
theorem invariant_callStack (profile : Profile) (capacity : ℕ) :
    Invariant profile fun core : Core δ => core.profile = profile ∧ core.Sound ∧
      core.memory.callStack.capacity = capacity where
  profile_eq _ h := h.1
  sound _ h := h.2.1
  put _ _ value _ hr h := ⟨h.1, h.1 ▸ h.2.1.put hr value, h.2.2⟩
  data _ _ _ h := h
  microcode _ _ _ h := h
  stack _ _ _ _ h := h
  devices _ _ h := h
  output _ _ h := h
  status _ _ h := h
  flags _ _ _ _ h := h
  callStack _ _ _ h := ⟨h.1, h.2.1, by simpa [callStackPart] using h.2.2⟩

section
variable (start : Core δ) (log : Log) (hw : start.profile.WellFormed)
  (hm : start.memory.LaidOut start.profile)
include hw hm

theorem invariant_after (n : ℕ) :
    (start.reset.after log n).profile = start.profile ∧ (start.reset.after log n).Sound ∧
      (start.reset.after log n).memory.callStack.capacity = start.profile.callStackCapacity := by
  have hstart : start.reset.profile = start.profile ∧ start.reset.Sound ∧
      start.reset.memory.callStack.capacity = start.profile.callStackCapacity :=
    ⟨rfl, RegisterFile.sound_powerOn hw.writable, hm.callStack.capacity_eq⟩
  exact Keeps.iterate ((invariant_callStack _ _).keeps_step hw.writable) hstart log n

variable (hcap : start.profile.callStackCapacity ≤ start.profile.wordMask.toNat)
include hcap

/-- The run keeps the call stack in agreement with the frames. -/
theorem nested_after (n : ℕ)
    (hwrites : ∀ k < n, start.reset.stepOutcome log k = .ok () →
      ¬(start.reset.after log k).WritesCallPointer) :
    (start.reset.after log n).Nested (start.reset.pending log n) := by
  induction n with
  | zero =>
    refine ⟨?_, by rintro _ ⟨⟩, rfl⟩
    have hcsp : start.reset.callPointer = start.profile.stackEmpty :=
      RegisterFile.get_put_self _ _ _
    have hnil := Segment.Stacks.nil start.memory.callStack start.profile
    rwa [← hcsp] at hnil
  | succ n ih =>
    obtain ⟨hp, hs, hc⟩ := invariant_after start log hw hm n
    refine (ih fun k hk => hwrites k (by omega)).step hs (hp ▸ hw) ?_ _ (hwrites n (by omega))
    rwa [hc, hp]

/-- **Calls and returns match.** At every point of a run from reset, the call pointer and the call
    stack are what the calls that have not returned say, as long as no arithmetic or move
    instruction has written the call pointer. -/
theorem call_discipline (n : ℕ)
    (hwrites : ∀ k < n, start.reset.stepOutcome log k = .ok () →
      ¬(start.reset.after log k).WritesCallPointer) :
    start.reset.CallDiscipline log n := by
  have hn := nested_after start log hw hm hcap n hwrites
  obtain ⟨hp, hs, hc⟩ := invariant_after start log hw hm n
  have hcap' : (start.reset.after log n).memory.callStack.capacity ≤
      (start.reset.after log n).profile.wordMask.toNat := by rwa [hc, hp]
  rw [← hp] at hw
  refine ⟨?_, ?_, ?_, ?_, ?_, ?_⟩
  · rw [hn.callPointer_eq, hp]
    rfl
  · simpa using hn.callStack.take_eq
  · intro i op hu hcalls
    exact (hn.call_faults_iff hs hw _ hcap' hu hcalls).trans (by rw [hc]; rfl)
  · exact fun i hu => hn.ret_faults_iff hs hw _ hcap' hu
  · exact fun i hu hok => hn.ret_matches hs hw _ hcap' hu hok
  · intro i op hu hcall hcalls
    have hr : op ≠ .ret := by
      rintro rfl
      cases hcall
    obtain ⟨hok, hframes, -, hcsp, hcs⟩ := framesAfterStep_of_not_calls hs hw _ hu hr hcalls
    exact ⟨hok, hframes, hcsp, hcs⟩

end

/-- A core whose program makes a call within a call and returns from both. -/
def nesting : Core Empty :=
  codePart.set ⟨.code, #[(Instruction.jumpImmediate .call 2).encode, 0,
      (Instruction.jumpImmediate .call 3).encode, (Instruction.jump .ret 0 0 0).encode]⟩
    (powerOn .small .empty default)

theorem call_discipline_nesting :
    let core (n : ℕ) := nesting.reset.after (.ofLevel none) n
    let frames (n : ℕ) := nesting.reset.pending (.ofLevel none) n
    frames 2 = [⟨1, 0xffff⟩, ⟨3, 0⟩] ∧ (core 2).memory.callStack.cells.toList.take 2 = [1, 3] ∧
      frames 3 = [⟨1, 0xffff⟩] ∧ (core 3).instructionPointer = 3 ∧ (core 3).callPointer = 0 ∧
      frames 4 = [] ∧ (core 4).instructionPointer = 1 ∧ (core 4).callPointer = 0xffff := by
  intro core frames
  have hz := Memory.laidOut_zeroed .small
  have hjumps (k : ℕ) (hk : k < 4) : (core k).upcoming?.map (·.2.group) = some .jump := by
    interval_cases k <;> decide +kernel
  have hdiscipline (n : ℕ) (hn : n < 4) : nesting.reset.CallDiscipline (.ofLevel none) n := by
    refine call_discipline nesting (.ofLevel none) (by decide)
      ⟨⟨rfl, rfl⟩, hz.data, hz.stack, hz.callStack, hz.microcode⟩ (by decide) n fun k hk _ => ?_
    rintro ⟨i, op, hu, hop, -⟩
    have hjump := hjumps k (hk.trans hn)
    rw [hu] at hjump
    have hgroup : op.group = .jump := Option.some.inj hjump
    rcases hop with hop | hop <;> cases hgroup.symm.trans hop
  have hframes : frames 2 = [⟨1, 0xffff⟩] ++ [⟨3, 0⟩] := by decide +kernel
  have hcells : (core 2).memory.callStack.cells.toList.take (frames 2).length =
      (frames 2).map Frame.returnAddress := (hdiscipline 2 (by decide)).cells_eq
  rw [hframes] at hcells
  have hret : (core 2).upcoming? = some (.jump .ret 0 0 0, .jump .ret) := by decide +kernel
  obtain ⟨inner, h, hip, hcsp⟩ :=
    (hdiscipline 2 (by decide)).ret_matches _ hret (by decide +kernel)
  obtain ⟨hframes', ⟨⟩⟩ := List.append_inj' (h.symm.trans hframes) rfl
  have hret' : (core 3).upcoming? = some (.jump .ret 0 0 0, .jump .ret) := by decide +kernel
  obtain ⟨outer, h', hip', hcsp'⟩ :=
    (hdiscipline 3 (by decide)).ret_matches _ hret' (by decide +kernel)
  obtain ⟨hframes'', ⟨⟩⟩ := List.append_inj' (h'.symm.trans hframes' : _ = [] ++ [_]) rfl
  exact ⟨hframes, hcells, hframes', hip, hcsp, hframes'', hip', hcsp'⟩

end Core

end RegisterMachine
