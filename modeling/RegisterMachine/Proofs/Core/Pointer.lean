import RegisterMachine.Proofs.Core.Step

/-!
# Where a step leaves the instruction pointer

An instruction may set the instruction pointer, and the step then should not move it on. Jumps tell
the step so by a flag. The instruction pointer can also be the destination of any arithmetic or
move instruction, though, and these leave the flag as it is: the step moves on from the address
that it has fetched from, and what the instruction wrote is lost.

* `Core.executed`: the core as the instruction leaves it, before the step ends.
* `Core.step_of_ok`: what a step that succeeds consists of.
* `Core.PointerHeeded`: the step leaves the pointer where the instruction has set it.
* `Core.pointer_heeded_iff`: when that is so.
-/

namespace RegisterMachine.Core

open Exec

variable {δ : Type} {core : Core δ} {i : Instruction} {op : Operation}

/-- The log in which a step has announced the instruction that it executes. -/
def announcing (core : Core δ) (i : Instruction) (log : Log) : Log :=
  log.note .trace fun _ => hexPadded 4 core.instructionPointer.toNat ++ ": " ++ i.text

variable [Device δ]

/-- The core as an instruction leaves it in a step, before the step ends. -/
def executed (core : Core δ) (i : Instruction) (log : Log) : Core δ :=
  (execute .standard i).final core (core.announcing i log)

/-! ## Steps that succeed -/

theorem run_executeNext (hi : core.nextInstruction = .ok i) (log : Log) :
    (executeNext .standard).run core log =
      (do execute .standard i; finish core.instructionPointer : Exec (Core δ) Unit).run core
        (core.announcing i log) := by
  change (do
    let core ← get
    let i ← core.nextInstruction
    Exec.note .trace fun _ => hexPadded 4 core.instructionPointer.toNat ++ ": " ++ i.text
    execute .standard i
    finish core.instructionPointer : Exec (Core δ) Unit).run core log = _
  rw [run_bind, run_get]
  dsimp only
  rw [run_bind, run_lift, hi]
  dsimp only
  rw [run_bind, run_note]
  rfl

theorem run_step (hr : core.status = .running) (log : Log) :
    (step .standard).run core log = (tryCatch (executeNext .standard) stopWith).run core log := by
  rw [step, run_bind, run_get]
  dsimp only
  rw [if_pos hr]
  rfl

/-- A step that succeeds has no fault to stop for. -/
theorem run_step_of_ok (hr : core.status = .running) {log : Log}
    (hx : (step .standard).result core log = .ok ()) :
    (step .standard).run core log = (executeNext .standard).run core log := by
  have hstop (fault : Fault) (core : Core δ) (log : Log) :
      ((stopWith fault).run core log).1.1 = .error fault :=
    (gives_stopWith core fault).result_eq log
  rw [result, run_step hr, run_tryCatch] at hx
  rw [run_step hr, run_tryCatch]
  generalize (executeNext .standard).run core log = ran at hx ⊢
  obtain ⟨⟨_ | fault, core'⟩, log'⟩ := ran
  · cases (hstop _ _ _).symm.trans hx
  · rfl

/-- A step that succeeds has fetched an instruction, executed it and moved on. -/
theorem step_of_ok (hs : core.Sound) (hw : core.profile.Writable) (hr : core.status = .running)
    {log : Log} (hx : (step .standard).result core log = .ok ()) :
    ∃ i op, core.upcoming? = some (i, op) ∧
      (execute .standard i).result core (core.announcing i log) = .ok () ∧
      (step .standard).final core log =
        (core.executed i log).retired core.instructionPointer := by
  have hrun := run_step_of_ok hr hx
  cases hi : core.nextInstruction with
  | error fault =>
    have herror : Gives core (executeNext .standard) (.error fault) core :=
      (gives_get core).bind ((gives_get core).bind ((gives_lift_of core hi).bind_error ⟨rfl, rfl⟩))
    rw [result, hrun] at hx
    cases (herror.result_eq log).symm.trans hx
  | ok i =>
    rw [run_executeNext hi] at hrun
    cases hok : (execute .standard i).result core (core.announcing i log) with
    | error fault =>
      rw [run_bind_of_error _ _ hok] at hrun
      rw [result, hrun] at hx
      cases hx
    | ok =>
      rw [run_bind_of_ok _ _ hok] at hrun
      obtain ⟨hp, hsound⟩ := (invariant_sound core.profile).keeps_execute hw i core
        (core.announcing i log) ⟨rfl, hs⟩
      have hfinish := gives_finish hsound (hp ▸ hw) core.instructionPointer
      have hfinal : (step .standard).final core log = _ := congrArg (fun ran => ran.1.2) hrun
      cases hop : i.operation with
      | error fault =>
        cases ((gives_execute_error core hop).result_eq _).symm.trans hok
      | ok op =>
        exact ⟨i, op, upcoming?_eq_some_iff.2 ⟨hr, hi, hop⟩, hok,
          hfinal.trans (hfinish.final_eq _)⟩

/-! ## The instruction pointer -/

/-- A step heeds what its instruction has written to the instruction pointer, and moves on if that
is nothing. -/
structure PointerHeeded (core : Core δ) (i : Instruction) (op : Operation) (log : Log) : Prop where
  of_writes : core.profile.registers.instructionPointer ∈ op.writes core.profile.registers i →
    ((step .standard).final core log).instructionPointer = (core.executed i log).instructionPointer
  of_not_writes : core.profile.registers.instructionPointer ∉ op.writes core.profile.registers i →
    ((step .standard).final core log).instructionPointer = core.nextAddress

omit [Device δ] in
theorem instructionPointer_retired_of_advance (h : core.advance = true) (address : Word) :
    (core.retired address).instructionPointer = core.profile.mask (address + 1) := by
  rw [retired, if_pos h]
  exact register_put_self _ _ _

omit [Device δ] in
theorem instructionPointer_retired_of_not_advance (h : ¬core.advance = true) (address : Word) :
    (core.retired address).instructionPointer = core.instructionPointer := by
  rw [retired, if_neg h]
  rfl

/-- Only jumps settle where the instruction pointer goes. -/
theorem instructionPointer_step (hs : core.Sound) (hw : core.profile.Writable)
    (ha : core.advance = true) {log : Log} (hop : i.operation = .ok op)
    (hok : (execute .standard i).result core (core.announcing i log) = .ok ()) :
    ((core.executed i log).retired core.instructionPointer).instructionPointer =
      if op.group = .jump then (core.executed i log).instructionPointer else core.nextAddress := by
  have hadvance : (core.executed i log).advance = true ↔ op.group ≠ .jump :=
    ensures_advance hs hw ha hop (core.announcing i log) hok
  have hp : (core.executed i log).profile = core.profile :=
    ((invariant_sound core.profile).keeps_execute hw i core (core.announcing i log) ⟨rfl, hs⟩).1
  split_ifs with hj
  · exact instructionPointer_retired_of_not_advance (fun h => hadvance.1 h hj) _
  · rw [instructionPointer_retired_of_advance (hadvance.2 hj), hp]
    rfl

/-- An operation that may write the instruction pointer is a jump, or arithmetic or a move. -/
theorem group_of_mem_writes {special : SpecialRegisters}
    (hpred : special.predicate ≠ special.instructionPointer)
    (h : special.instructionPointer ∈ op.writes special i) :
    op.group = .jump ∨ op.group = .arithmetic ∨ op.group = .move := by
  cases op with
  | arithmetic op => exact .inr (.inl rfl)
  | move op => exact .inr (.inr rfl)
  | jump op => exact .inl rfl
  | compare op => exact absurd (List.mem_singleton.1 h).symm hpred
  | misc op => cases h

/-- **A step that succeeds heeds the instruction pointer exactly if its instruction is a jump or
    leaves the pointer where the step moves it anyway.** -/
theorem pointer_heeded_iff (hs : core.Sound) (hw : core.profile.WellFormed)
    (hr : core.status = .running) (ha : core.advance = true) (log : Log)
    (hx : (step .standard).result core log = .ok ()) :
    ∃ i op, core.upcoming? = some (i, op) ∧
      ((step .standard).final core log).instructionPointer =
        (if op.group = .jump then (core.executed i log).instructionPointer
          else core.nextAddress) ∧
      (core.PointerHeeded i op log ↔
        (op.group = .arithmetic ∨ op.group = .move →
          core.profile.registers.instructionPointer ∈ op.writes core.profile.registers i →
          (core.executed i log).instructionPointer = core.nextAddress)) := by
  obtain ⟨i, op, hu, hok, hfinal⟩ := step_of_ok hs hw.writable hr hx
  have hpointer := instructionPointer_step hs hw.writable ha (upcoming?_eq_some_iff.1 hu).2.2 hok
  rw [← hfinal] at hpointer
  refine ⟨i, op, hu, hpointer, ?_⟩
  by_cases hj : op.group = .jump
  · rw [if_pos hj] at hpointer
    have hmem : core.profile.registers.instructionPointer ∈
        op.writes core.profile.registers i := by
      cases op with
      | jump op => exact List.mem_cons_self
      | _ => cases hj
    exact iff_of_true ⟨fun _ => hpointer, fun h => absurd hmem h⟩ fun h => by
      rcases h with h | h <;> cases hj.symm.trans h
  · rw [if_neg hj] at hpointer
    constructor
    · intro h _ hmem
      exact (h.of_writes hmem).symm.trans hpointer
    · intro h
      refine ⟨fun hmem => hpointer.trans (h ?_ hmem).symm, fun _ => hpointer⟩
      exact (group_of_mem_writes hw.predicate_ne_instructionPointer hmem).resolve_left hj

/-- A core that is about to set its instruction pointer to 2, by a move. -/
def steering : Core Empty :=
  codePart.set ⟨.code, #[(Instruction.moveImmediate .set 2 2).encode, 0, 0, 0]⟩
    (powerOn .small .empty default)

theorem pointer_heeded_steering :
    let log := Log.ofLevel none
    ∃ i op, steering.upcoming? = some (i, op) ∧ op = .move .set ∧
      (steering.PointerHeeded i op log ↔
        (op.group = .arithmetic ∨ op.group = .move →
          (2 : UInt8) ∈ op.writes steering.profile.registers i →
          (steering.executed i log).instructionPointer = steering.nextAddress)) := by
  intro log
  have hw : Profile.small.WellFormed := by decide
  have hs : steering.Sound := RegisterFile.sound_powerOn hw.writable
  obtain ⟨i, op, hu, -, hiff⟩ := pointer_heeded_iff hs hw rfl rfl log (by decide +kernel)
  have hu' : steering.upcoming? =
      some (Instruction.moveImmediate .set 2 2, .move .set) := by decide +kernel
  cases hu.symm.trans hu'
  exact ⟨_, _, hu, rfl, hiff⟩

/-- The pointer goes to 1, which is not what the instruction wrote. -/
theorem pointer_not_heeded_steering :
    let log := Log.ofLevel none
    let i := Instruction.moveImmediate .set 2 2
    steering.upcoming? = some (i, .move .set) ∧
      (step .standard).result steering log = .ok () ∧
      (steering.executed i log).instructionPointer = 2 ∧
      ((step .standard).final steering log).instructionPointer = 1 ∧
      ¬steering.PointerHeeded i (.move .set) log := by
  intro log i
  have hlost : ((step .standard).final steering log).instructionPointer ≠
      (steering.executed i log).instructionPointer := by decide +kernel
  exact ⟨by decide +kernel, by decide +kernel, by decide +kernel, by decide +kernel,
    fun h => hlost (h.of_writes (by decide))⟩

end RegisterMachine.Core
