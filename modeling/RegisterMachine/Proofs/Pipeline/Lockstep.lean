import RegisterMachine.Proofs.Core.Step
import RegisterMachine.Proofs.Pipeline.Operations

/-!
# Pipelines run like cores

A pipeline made from a core without devices does what the core does, step by step. Only a pop into
the stack pointer is left out, and a data address without a device is reported as one outside data
memory.

* `Pairing.agree_step`: one step.
* `Pipeline.lockstep`: runs of any length.
-/

namespace RegisterMachine

open Exec

/-- No instruction lacks an operation for want of a device. -/
theorem Instruction.withoutDevices_of_operation {i : Instruction} {fault : Fault}
    (h : i.operation = .error fault) (capacity : ℕ) : fault.withoutDevices capacity = fault := by
  unfold operation at h
  split at h
  · cases h; rfl
  all_goals split at h <;> cases h; rfl

namespace Pairing

variable {δ : Type} {U : Pairing} {core : Core δ} {pipeline : Pipeline}

/-! ## The end of a step -/

theorem Fits.retired (h : U.Fits core) (address : Word) : U.Fits (core.retired address) := by
  rw [Core.retired]
  split_ifs
  · have hput := h.put h.writable.instructionPointer (address + 1)
    exact ⟨hput.profile_eq, hput.sound, hput.noDevices, hput.data⟩
  · exact ⟨h.profile_eq, h.sound, h.noDevices, h.data⟩

theorem agree_finish {profile : Profile} {op : Operation} (hstep : U.InStep core pipeline)
    (hp : profile = U.profile) (ha : core.advance = true ↔ op.group ≠ .jump) (address : Word) :
    Exec.Agree U.InStep (Fault.withoutDevices U.profile.dataCapacity) core pipeline
      (Core.finish address) (do
        if op.group ≠ .jump then
          Pipeline.writeRegister profile.registers.instructionPointer (profile.mask (address + 1))
        modify fun pipeline => { pipeline with steps := pipeline.steps + 1 }) := by
  obtain ⟨hfit, written, hout, rfl⟩ := hstep
  obtain rfl := hp.trans hfit.profile_eq.symm
  have hx := Core.gives_finish hfit.sound hfit.writable address
  have hout' : (core.retired address).output = U.coreOutput.extend written := by
    rw [Core.retired_output, hout]
  refine InStep.agree hx (Ensures.ite (fun hj => ?_) fun hj => ?_) (hfit.retired address) hout'
  · have hset := Pipeline.gives_writeRegister (U.pipelineOutput.extend written) hfit.sound
      hfit.writable.instructionPointer (core.profile.mask (address + 1))
    refine hset.bind ((gives_modify _ _).ensures ⟨rfl, ?_⟩)
    rw [Core.retired, if_pos (ha.2 hj), Profile.mask_mask]
    rfl
  · refine (gives_modify _ _).ensures ⟨rfl, ?_⟩
    rw [Core.retired, if_neg (mt ha.1 hj)]
    rfl

/-! ## Steps -/

variable [Device δ]

theorem agree_instruction {profile : Profile} {i : Instruction} (hstep : U.InStep core pipeline)
    (hp : profile = U.profile) (ha : core.advance = true)
    (hpop : i.operation = .ok (.move .pop) → i.dest ≠ U.profile.registers.stackPointer)
    (address : Word) :
    Exec.Agree U.InStep (Fault.withoutDevices U.profile.dataCapacity) core pipeline
      (do
        Core.execute .standard i
        Core.finish address)
      (do
        let operation ← i.operation
        Pipeline.executeOperation i operation
        if operation.group ≠ .jump then
          Pipeline.writeRegister profile.registers.instructionPointer (profile.mask (address + 1))
        modify fun pipeline => { pipeline with steps := pipeline.steps + 1 }) := by
  obtain ⟨hfit, written, hout, rfl⟩ := hstep
  cases hop : i.operation with
  | error fault =>
    refine InStep.agree ((Core.gives_execute_error core hop).bind_error ⟨rfl, rfl⟩) ?_ hfit hout
    refine (gives_lift _ _).bind_error ⟨?_, rfl⟩
    exact congrArg Except.error (Instruction.withoutDevices_of_operation hop _).symm
  | ok op =>
    have hagrees := agrees_execute (δ := δ) hop fun hmove => hpop (hmove ▸ hop)
    have hadvance := Core.ensures_advance hfit.sound hfit.writable ha hop
    refine (gives_lift _ _).agree_right ?_
    refine (hagrees _ _ ⟨hfit, written, hout, rfl⟩).bind_of
      (hadvance.mono fun _ _ hc _ ho => hc (ho ▸ rfl)) ?_
    exact fun _ _ _ hstep ha => agree_finish hstep hp ha address

theorem agree_executeNext (hstep : U.InStep core pipeline) (ha : core.advance = true)
    (hs : core.status = .running)
    (hpop : ∀ i, core.upcoming? = some (i, .move .pop) →
      i.dest ≠ U.profile.registers.stackPointer) :
    Exec.Agree U.InStep (Fault.withoutDevices U.profile.dataCapacity) core pipeline
      (Core.executeNext .standard) Pipeline.executeNext := by
  obtain ⟨hfit, written, hout, rfl⟩ := hstep
  have hread := Pipeline.gives_readRegister core (U.pipelineOutput.extend written)
    core.profile.registers.instructionPointer
  refine (gives_get core).agree_left ((gives_get core).agree_left ?_)
  refine (gives_get _).agree_right (hread.agree_right ((gives_get _).agree_right ?_))
  cases hw : core.memory.code.load core.instructionPointer with
  | error fault =>
    have hi : core.nextInstruction = .error fault := by rw [Core.nextInstruction, hw]; rfl
    refine InStep.agree ((gives_lift_of core hi).bind_error ⟨rfl, rfl⟩) ?_ hfit hout
    refine (gives_lift_of _ hw).bind_error ⟨?_, rfl⟩
    exact congrArg Except.error (Segment.withoutDevices_of_load hw _).symm
  | ok word =>
    have hi : core.nextInstruction = .ok (.decode word) := by rw [Core.nextInstruction, hw]; rfl
    refine (gives_lift_of core hi).agree_left ((gives_note _ _ _).agree_left ?_)
    refine (gives_lift_of _ hw).agree_right ((Pipeline.gives_decode core _ word).agree_right ?_)
    refine (gives_note _ _ _).agree_right ?_
    exact agree_instruction ⟨hfit, written, hout, rfl⟩ hfit.profile_eq ha
      (fun hop => hpop _ (Core.upcoming?_eq_some_iff.2 ⟨hs, hi, hop⟩)) _

/-- **A step does the same to a core and to a pipeline in step**, unless it pops into the stack
    pointer. -/
theorem agree_step (hstep : U.InStep core pipeline) (ha : core.advance = true)
    (hpop : ∀ i, core.upcoming? = some (i, .move .pop) →
      i.dest ≠ U.profile.registers.stackPointer) :
    Exec.Agree (fun core pipeline => U.InStep core pipeline ∧ core.advance = true)
      (Fault.withoutDevices U.profile.dataCapacity) core pipeline (Core.step .standard)
      Pipeline.step := by
  have hnext := fun hs => agree_executeNext hstep ha hs hpop
  obtain ⟨hfit, written, hout, rfl⟩ := hstep
  refine Agree.and ?_ (Core.ensures_step_advance hfit.sound hfit.writable ha)
  refine (gives_get core).agree_left ((gives_get _).agree_right ?_)
  by_cases hs : core.status = .running
  · rw [if_pos hs, if_pos (show (core.pipelined _).status = .running from hs)]
    refine (hnext hs).tryCatch ?_
    rintro fault core' _ ⟨hfit', written', hout', rfl⟩
    exact InStep.agree (Core.gives_stopWith core' fault)
      ((gives_note _ _ _).bind ((gives_modify _ _).bind (gives_throw _ _)))
      ⟨hfit'.profile_eq, hfit'.sound, hfit'.noDevices, hfit'.data⟩ hout'
  · rw [if_neg hs, if_neg (show ¬(core.pipelined _).status = .running from hs)]
    exact agrees_pure () core _ ⟨hfit, written, hout, rfl⟩

end Pairing

/-! ## Runs -/

/-- A core that has been reset, and whose registers may have been written since. -/
inductive Core.Configured {δ : Type} (start : Core δ) : Core δ → Prop
  | reset : Configured start start.reset
  | setRegister {core : Core δ} (h : Configured start core) (r : UInt8) (value : Word) (log : Log) :
      Configured start ((Core.setRegister r value).final core log)

namespace Pipeline

section
variable (start : Pipeline) (log : Log) (n : ℕ)

/-- The pipeline after `n` steps. -/
def after : Pipeline :=
  (iterate step start log n).1

/-- The outcome of the step after `n` steps. -/
def stepOutcome : Except Fault Unit :=
  outcome step start log n

end

variable {δ : Type}

/-- A pipeline has the registers, the memory, the status and the steps of a core. -/
structure Mirrors (pipeline : Pipeline) (core : Core δ) : Prop where
  registers : ∀ r, pipeline.registers.state.get r = core.register r
  data : pipeline.memory.state.data = core.memory.data
  stack : pipeline.memory.state.stack = core.memory.stack
  callStack : pipeline.branch.state.callStack = core.memory.callStack
  microcode : pipeline.memory.state.microcode = core.memory.microcode
  status : pipeline.status = core.status
  steps : pipeline.steps = core.steps

theorem exists_ofCore {core : Core δ} (hs : core.status = .running) (hn : core.steps = 0)
    (output : Sink) (log : Log) :
    ∃ log', ofCore core output log = (.ok (core.pipelined output), log') := by
  obtain ⟨ho, hp⟩ := gives_start hs hn output log
  unfold result Exec.run at ho
  unfold final Exec.run at hp
  unfold ofCore
  generalize start (ofMemory core.profile core.registers core.memory output) log = r at ho hp ⊢
  obtain ⟨⟨o, p⟩, log'⟩ := r
  cases ho
  cases hp
  exact ⟨log', rfl⟩

theorem mirrors_pipelined (core : Core δ) (output : Sink) :
    Mirrors (core.pipelined output) core := by
  constructor <;> intros <;> rfl

section
variable {start core : Core δ} (hc : start.Configured core)
include hc

theorem fits_of_configured {U : Pairing} (hp : start.profile = U.profile)
    (hd : start.devices.slots = []) (hm : start.memory.LaidOut start.profile) :
    U.Fits core ∧ core.output = start.output ∧
      core.advance = true ∧ core.status = .running ∧ core.steps = 0 := by
  induction hc with
  | reset =>
    have hs := RegisterFile.sound_powerOn (hp ▸ U.wellFormed.writable : start.profile.Writable)
    exact ⟨⟨hp, hs, hd, hp ▸ hm.data⟩, rfl, rfl, rfl, rfl⟩
  | @setRegister core h r value log ih =>
    obtain ⟨hfit, hrest⟩ := ih
    by_cases hr : 1 < r
    · rw [(Core.gives_setRegister hfit.sound.mask_eq hr value).final_eq log]
      exact ⟨hfit.put hr value, hrest⟩
    · rw [(Core.gives_setRegister_protected (UInt8.not_lt.1 hr) value).final_eq log]
      exact ⟨hfit, hrest⟩

/-- **A pipeline runs like the core it is made from.** Take a core without devices, reset and with
    any registers and memory, and a pipeline made from it whose output takes as many bytes. After
    any number of steps both have the same registers, memory, status and steps, and have written
    the same bytes; and each step ended the same in both, except that an unmapped address of the
    core is one outside data memory in the pipeline. No instruction on the way may pop into the
    stack pointer. -/
theorem lockstep [Device δ] (hw : start.profile.WellFormed) (hbits : 16 ≤ start.profile.wordBits)
    (hm : start.memory.LaidOut start.profile) (hd : start.devices.slots = []) (output : Sink)
    (hroom : start.output.room = output.room) (log log' : Log) (n : ℕ)
    (hpop : ∀ k < n, ∀ i, (core.after log k).upcoming? = some (i, .move .pop) →
      i.dest ≠ start.profile.registers.stackPointer) :
    ∃ pipeline log'', ofCore core output log' = (.ok pipeline, log'') ∧
      (pipeline.after log'' n).Mirrors (core.after log n) ∧
      (∃ written, (core.after log n).output.bytes = start.output.bytes ++ written ∧
        (pipeline.after log'' n).output.bytes = output.bytes ++ written) ∧
      ∀ k < n, pipeline.stepOutcome log'' k =
        (core.stepOutcome log k).mapError (Fault.withoutDevices start.profile.dataCapacity) := by
  let U : Pairing := ⟨start.profile, hw, hbits, start.output, output, hroom⟩
  obtain ⟨hfit, hout, ha, hs, hn⟩ := fits_of_configured hc (U := U) rfl hd hm
  obtain ⟨log'', hstart⟩ := exists_ofCore hs hn output log'
  have hstep : U.InStep core (core.pipelined output) :=
    ⟨hfit, #[], by simp [hout, U, Sink.extend], by simp [U, Sink.extend]⟩
  obtain ⟨⟨⟨-, written, hwritten, hpipeline⟩, -⟩, houtcome⟩ :=
    agree_iterate log log'' n ⟨hstep, ha⟩ fun k hk pipeline hR =>
      Pairing.agree_step (U := U) hR.1 hR.2 (hpop k hk)
  refine ⟨core.pipelined output, log'', hstart, ?_, ⟨written, ?_, ?_⟩, houtcome⟩
  · rw [after, hpipeline]
    exact mirrors_pipelined _ _
  · exact congrArg Sink.bytes hwritten
  · rw [after, hpipeline]
    rfl

end

/-- A core that pushes a word and then loads from an address that no device has. -/
def straying : Core Empty :=
  Core.codePart.set ⟨.code, #[(Instruction.moveImmediate .pushImmediate 0 7).encode,
    (Instruction.moveImmediate .loadImmediate 8 100).encode, 0, 0]⟩
    (.powerOn .small .empty default)

theorem lockstep_straying :
    let core := (Core.setRegister 8 5).final straying.reset (.ofLevel none)
    core.stepOutcome (.ofLevel none) 1 = .error (.unmappedAddress 100) ∧
    ∃ pipeline log'', ofCore core default (.ofLevel none) = (.ok pipeline, log'') ∧
      (pipeline.after log'' 3).Mirrors (core.after (.ofLevel none) 3) ∧
      (∃ written, (core.after (.ofLevel none) 3).output.bytes = #[] ++ written ∧
        (pipeline.after log'' 3).output.bytes = #[] ++ written) ∧
      ∀ k < 3, pipeline.stepOutcome log'' k =
        (core.stepOutcome (.ofLevel none) k).mapError (Fault.withoutDevices 4) := by
  intro core
  have hc : straying.Configured core := .setRegister .reset 8 5 _
  have hz := Memory.laidOut_zeroed .small
  refine ⟨by decide +kernel, lockstep hc (by decide) (by decide)
    ⟨⟨rfl, rfl⟩, hz.data, hz.stack, hz.callStack, hz.microcode⟩ rfl default rfl (.ofLevel none)
    (.ofLevel none) 3 fun k hk i hi => ?_⟩
  have hpop : ((core.after (.ofLevel none) k).upcoming?.map Prod.snd) ≠ some (.move .pop) := by
    interval_cases k <;> decide +kernel
  exact absurd (congrArg (Option.map Prod.snd) hi) hpop

end Pipeline

end RegisterMachine
