import RegisterMachine.Proofs.Core.Frame

/-!
# What a step can do

* `Core.upcoming?`: what the core is about to do.
* `Core.Stepped`: the four things that come of a step.
* `Core.stepped`: nothing else does.
* `Core.Invariant.keeps_step`: a step keeps every invariant that bears with the changes that
  instructions make.
* `Core.ensures_advance`: which instructions leave the instruction pointer to the run loop.
* `Core.after`, `Core.stepOutcome`: runs.
-/

namespace RegisterMachine.Core

open Exec

variable {δ : Type} {core : Core δ}

/-- The core after an instruction at `address` has been executed: the instruction pointer moves on
unless the instruction has set it. -/
def retired (core : Core δ) (address : Word) : Core δ :=
  let core' := if core.advance then
      core.put core.profile.registers.instructionPointer (core.profile.mask (address + 1))
    else core
  { core' with advance := true, steps := core'.steps + 1 }

@[simp] theorem retired_profile (address : Word) :
    (core.retired address).profile = core.profile := by
  rw [retired]; split_ifs <;> rfl

@[simp] theorem retired_memory (address : Word) : (core.retired address).memory = core.memory := by
  rw [retired]; split_ifs <;> rfl

theorem register_retired_of_ne {r : UInt8} (h : r ≠ core.profile.registers.instructionPointer)
    (address : Word) : (core.retired address).register r = core.register r := by
  rw [retired]
  split_ifs
  · exact register_put_of_ne h _
  · rfl

@[simp] theorem retired_output (address : Word) : (core.retired address).output = core.output := by
  rw [retired]; split_ifs <;> rfl

/-- The core after a fault has stopped it. -/
def faulted (core : Core δ) : Core δ :=
  { core with advance := true, status := .faulted }

/-- The operation that the core is about to carry out, with the instruction that names it. -/
def upcoming? (core : Core δ) : Option (Instruction × Operation) := do
  guard (core.status = .running)
  let i ← core.nextInstruction.toOption
  let op ← i.operation.toOption
  return (i, op)

theorem upcoming?_eq_some_iff {i : Instruction} {op : Operation} :
    core.upcoming? = some (i, op) ↔
      core.status = .running ∧ core.nextInstruction = .ok i ∧ i.operation = .ok op := by
  have toOption_eq {α : Type} (o : Except Fault α) (a : α) : o.toOption = some a ↔ o = .ok a := by
    cases o <;> simp [Except.toOption]
  simp only [upcoming?, Option.bind_eq_bind, Option.bind_eq_some_iff, Option.guard_eq_some',
    toOption_eq, Option.pure_def, Option.some.injEq, Prod.mk.injEq]
  constructor
  · rintro ⟨-, hs, i', hi, op', hop, rfl, rfl⟩
    exact ⟨hs, hi, hop⟩
  · rintro ⟨hs, hi, hop⟩
    exact ⟨(), hs, i, hi, op, hop, rfl, rfl⟩

/-- What comes of a step: its outcome and the core it leaves. -/
inductive Stepped [Device δ] (core : Core δ) : Except Fault Unit → Core δ → Prop
  /-- A core that has stopped does not move. -/
  | stopped (hs : core.status ≠ .running) : Stepped core (.ok ()) core
  /-- There is no instruction to execute. -/
  | unfetched {fault : Fault} (hs : core.status = .running)
      (hi : core.nextInstruction = .error fault) : Stepped core (.error fault) core.faulted
  | failed {fault : Fault} {i : Instruction} {log : Log} (hs : core.status = .running)
      (hi : core.nextInstruction = .ok i)
      (hx : (execute .standard i).result core log = .error fault) :
      Stepped core (.error fault) ((execute .standard i).final core log).faulted
  | retired {i : Instruction} {log : Log} (hs : core.status = .running)
      (hi : core.nextInstruction = .ok i)
      (hx : (execute .standard i).result core log = .ok ()) :
      Stepped core (.ok ())
        (((execute .standard i).final core log).retired core.instructionPointer)

theorem invariant_sound (profile : Profile) :
    Invariant profile fun core : Core δ => core.profile = profile ∧ core.Sound where
  profile_eq _ h := h.1
  sound _ h := h.2
  put _ _ value _ hr h := ⟨h.1, h.1 ▸ h.2.put hr value⟩
  data _ _ _ h := h
  microcode _ _ _ h := h
  stack _ _ _ _ h := h
  devices _ _ h := h
  output _ _ h := h
  status _ _ h := h
  callStack _ _ _ h := h
  flags _ _ _ _ h := h

/-! ## The end of a step -/

/-- What a step does once the instruction at `address` has been executed. -/
def finish (address : Word) : Exec (Core δ) Unit := do
  if ← takeAdvance then
    setInstructionPointer ((← get).profile.mask (address + 1))
  modify fun core => { core with steps := core.steps + 1 }
  let core ← get
  Exec.note .trace fun _ => "\n" ++ core.display
  if core.status = .halted then
    Exec.note .debug fun _ => s!"halted after {core.steps} steps"

/-- What a step does last. -/
def countStep : Exec (Core δ) Unit := do
  modify fun core => { core with steps := core.steps + 1 }
  let core ← get
  Exec.note .trace fun _ => "\n" ++ core.display
  if core.status = .halted then
    Exec.note .debug fun _ => s!"halted after {core.steps} steps"

theorem gives_countStep (core : Core δ) :
    Gives core countStep (.ok ()) { core with steps := core.steps + 1 } := by
  refine (gives_modify core _).bind ((gives_get _).bind ((gives_note _ _ _).bind ?_))
  exact Ensures.ite (fun _ => gives_note _ _ _) fun _ => gives_pure _ ()

theorem gives_finish (h : core.Sound) (hw : core.profile.Writable) (address : Word) :
    Gives core (finish address) (.ok ()) (core.retired address) := by
  have hs : Sound { core with advance := true } := h
  have hset := gives_setInstructionPointer hs.mask_eq hw (core.profile.mask (address + 1))
  refine (gives_modifyGet core _).bind (Ensures.ite (fun ha => ?_) fun ha => ?_)
  · refine (gives_get _).bind (hset.bind ((gives_countStep _).ensures ⟨rfl, ?_⟩))
    rw [retired, if_pos ha]
    simp [put]
  · refine (gives_countStep _).ensures ⟨rfl, ?_⟩
    rw [retired, if_neg ha]

/-- What a step does about a fault. -/
def stopWith (fault : Fault) : Exec (Core δ) Unit := do
  let address := (← get).instructionPointer
  Exec.note .debug fun _ => "fault at " ++ hex address.toNat ++ ": " ++ fault.message
  modify fun core => { core with advance := true, status := .faulted }
  throw fault

theorem gives_stopWith (core : Core δ) (fault : Fault) :
    Gives core (stopWith fault) (.error fault) core.faulted :=
  (gives_get core).bind ((gives_note _ _ _).bind ((gives_modify _ _).bind (gives_throw _ _)))

variable [Device δ]

theorem executeNext_cases (h : core.Sound) (hw : core.profile.Writable) :
    Ensures core (executeNext .standard) fun o core' =>
      (∃ fault, core.nextInstruction = .error fault ∧ o = .error fault ∧ core' = core) ∨
      ∃ i log, core.nextInstruction = .ok i ∧
        ((∃ fault, (execute .standard i).result core log = .error fault ∧ o = .error fault ∧
            core' = (execute .standard i).final core log) ∨
          ((execute .standard i).result core log = .ok () ∧ o = .ok () ∧
            core' = ((execute .standard i).final core log).retired core.instructionPointer)) := by
  refine (gives_get core).bind ((gives_get core).bind ?_)
  cases hi : core.nextInstruction with
  | error fault => exact (gives_lift core _).bind_error (.inl ⟨fault, rfl, rfl, rfl⟩)
  | ok i =>
    refine (gives_lift core _).bind ((gives_note core _ _).bind ?_)
    have hx : Ensures core (execute .standard i) fun o core' =>
        (core'.profile = core.profile ∧ core'.Sound) ∧
        ∃ log, o = (execute .standard i).result core log ∧
          core' = (execute .standard i).final core log := fun log =>
      ⟨(invariant_sound core.profile).keeps_execute hw i core log ⟨rfl, h⟩, log, rfl, rfl⟩
    refine hx.bind ?_ ?_
    · rintro _ core' ⟨⟨hp, hs⟩, log, ho, rfl⟩
      have hfinish := gives_finish hs (hp ▸ hw) core.instructionPointer
      exact hfinish.ensures (.inr ⟨i, log, rfl, .inr ⟨ho.symm, rfl, rfl⟩⟩)
    · rintro fault core' ⟨-, log, ho, rfl⟩
      exact .inr ⟨i, log, rfl, .inl ⟨fault, ho.symm, rfl, rfl⟩⟩

/-- **A step does one of four things.** -/
theorem stepped (h : core.Sound) (hw : core.profile.Writable) :
    Ensures core (step .standard) core.Stepped := by
  refine (gives_get core).bind ?_
  by_cases hs : core.status = .running
  · rw [if_pos hs]
    refine (executeNext_cases h hw).tryCatch ?_ ?_
    · rintro _ core' (⟨fault, -, ho, -⟩ | ⟨i, log, hi, ⟨fault, -, ho, -⟩ | ⟨hx, -, rfl⟩⟩)
      · cases ho
      · cases ho
      · exact .retired hs hi hx
    · rintro fault core' hc
      refine (gives_stopWith core' fault).ensures ?_
      rcases hc with ⟨_, hi, ho, rfl⟩ | ⟨i, log, hi, ⟨_, hx, ho, rfl⟩ | ⟨-, ho, -⟩⟩
      · cases ho
        exact .unfetched hs hi
      · cases ho
        exact .failed hs hi hx
      · cases ho
  · rw [if_neg hs]
    exact (gives_pure core ()).ensures (.stopped hs)

section
variable {i : Instruction} {op : Operation} (h : core.Sound) (hw : core.profile.Writable)
  (hu : core.upcoming? = some (i, op))
include h hw hu

theorem gives_step_of_ok {core' : Core δ} (hx : Gives core (execute .standard i) (.ok ()) core') :
    Gives core (step .standard) (.ok ()) (core'.retired core.instructionPointer) := by
  obtain ⟨hs, hi, -⟩ := upcoming?_eq_some_iff.1 hu
  refine (stepped h hw).mono fun o core'' hstep => ?_
  cases hstep with
  | stopped hs' => exact absurd hs hs'
  | unfetched _ hi' => cases hi.symm.trans hi'
  | @failed fault i' log _ hi' hx' =>
    cases hi.symm.trans hi'
    cases hx'.symm.trans (hx.result_eq log)
  | @retired i' log _ hi' _ =>
    cases hi.symm.trans hi'
    rw [hx.final_eq log]
    exact ⟨rfl, rfl⟩

theorem gives_step_of_error {fault : Fault} {core' : Core δ}
    (hx : Gives core (execute .standard i) (.error fault) core') :
    Gives core (step .standard) (.error fault) core'.faulted := by
  obtain ⟨hs, hi, -⟩ := upcoming?_eq_some_iff.1 hu
  refine (stepped h hw).mono fun o core'' hstep => ?_
  cases hstep with
  | stopped hs' => exact absurd hs hs'
  | unfetched _ hi' => cases hi.symm.trans hi'
  | @failed fault' i' log _ hi' hx' =>
    cases hi.symm.trans hi'
    cases hx'.symm.trans (hx.result_eq log)
    rw [hx.final_eq log]
    exact ⟨rfl, rfl⟩
  | @retired i' log _ hi' hx' =>
    cases hi.symm.trans hi'
    cases hx'.symm.trans (hx.result_eq log)

end

/-- **An invariant that bears with every change of a core is kept by a step.** -/
theorem Invariant.keeps_step {profile : Profile} {I : Core δ → Prop} (h : Invariant profile I)
    (hw : profile.Writable) : Keeps I (step .standard) := by
  intro core log hc
  have hp := h.profile_eq core hc
  have hstep := stepped (h.sound core hc) (hp ▸ hw) log
  generalize (step .standard).result core log = o at hstep
  generalize (step .standard).final core log = core' at hstep ⊢
  cases hstep with
  | stopped hs => exact hc
  | unfetched hs hi => exact h.flags core _ _ _ hc
  | failed hs hi hx => exact h.flags _ _ _ _ (h.keeps_execute hw _ core _ hc)
  | @retired i log hs hi hx =>
    have hx := h.keeps_execute hw i core log hc
    rw [Core.retired]
    split_ifs
    · rw [h.profile_eq _ hx]
      exact h.flags _ _ _ _ (h.put _ _ _ trivial hw.instructionPointer hx)
    · exact h.flags _ _ _ _ hx

/-! ## Whether the instruction pointer moves on -/

omit [Device δ] in
theorem stable_advance (profile : Profile) :
    Stable profile (fun _ => True) fun core : Core δ =>
      (core.profile = profile ∧ core.Sound) ∧ core.advance = true where
  profile_eq _ h := h.1.1
  sound _ h := h.1.2
  put _ _ value _ hr h := ⟨⟨h.1.1, h.1.1 ▸ h.1.2.put hr value⟩, h.2⟩
  data _ _ _ h := h
  microcode _ _ _ h := h
  stack _ _ _ _ h := h
  devices _ _ h := h
  output _ _ h := h
  status _ _ h := h

/-- A jump that is carried out sets the instruction pointer, and no other operation does. -/
theorem ensures_advance {i : Instruction} {op : Operation} (h : core.Sound)
    (hw : core.profile.Writable) (ha : core.advance = true) (hi : i.operation = .ok op) :
    Ensures core (execute .standard i) fun o core' =>
      o = .ok () → (core'.advance = true ↔ op.group ≠ .jump) := by
  by_cases hj : op.group = .jump
  · rw [execute_eq hi]
    cases op with
    | jump op =>
      refine ensures_executeJump ?_
      cases core.flow op i with
      | next => exact (gives_follow_next h.mask_eq hw).ensures fun _ => by simp [jumped, hj]
      | goto address =>
        exact (gives_follow_goto h.mask_eq hw address).ensures fun _ => by simp [jumped, hj]
      | call address =>
        by_cases hr : core.callSlot.toNat < core.memory.callStack.capacity
        · exact (gives_follow_call h.mask_eq hw hr address).ensures fun _ => by simp [jumped, hj]
        · exact (gives_follow_call_full hr address).ensures (by rintro ⟨⟩)
      | ret =>
        cases hv : core.memory.callStack.load core.callPointer with
        | ok address =>
          exact (gives_follow_ret h.mask_eq hw hv).ensures fun _ => by simp [jumped, hj]
        | error fault => exact (gives_follow_ret_error hv).ensures (by rintro ⟨⟩)
    | _ => cases hj
  · have hkeeps := (stable_advance (δ := δ) core.profile).keeps_execute hw hi
      (fun _ _ => trivial) hj
    exact (hkeeps.ensures ⟨⟨rfl, h⟩, ha⟩).mono fun _ _ hc _ => iff_of_true hc.2 hj

theorem ensures_step_advance (h : core.Sound) (hw : core.profile.Writable)
    (ha : core.advance = true) :
    Ensures core (step .standard) fun _ core' => core'.advance = true := by
  refine (stepped h hw).mono fun o core' hstep => ?_
  cases hstep with
  | stopped _ => exact ha
  | _ => rfl

/-! ## Runs -/

section
variable (start : Core δ) (log : Log) (n : ℕ)

/-- The core after `n` steps. -/
def after : Core δ :=
  (iterate (step .standard) start log n).1

/-- The outcome of the step after `n` steps. -/
def stepOutcome : Except Fault Unit :=
  outcome (step .standard) start log n

end

end RegisterMachine.Core
