import RegisterMachine.Proofs.Core.Step
import RegisterMachine.Proofs.Instruction
import RegisterMachine.Proofs.Pipeline.Operations

/-!
# Pops

A pop reads the value on top of the data stack, writes it to its destination, and takes it off. A
core looks up the stack pointer again to take the value off, and a pipeline goes by the pointer that
it has read already. Where the destination is the stack pointer itself, the core therefore goes on
from the value as a pointer: it takes off whatever is there or, if that is outside the stack, faults
with the pointer overwritten.

* `Pipeline.gives_step_of_ok`, `Pipeline.gives_step_of_error`: what a step of a pipeline makes of an
  instruction.
* `Core.StepsAlike`: a step is the same for a core and a pipeline, and atomic.
* `Core.pop_alike_iff`: which pops are.
-/

namespace RegisterMachine

open Exec

variable {δ : Type} {core core' : Core δ} {output : Sink}

/-! ## Steps of a pipeline -/

namespace Pipeline
variable {i : Instruction} {op : Operation}

/-- A step of a pipeline comes to executing the instruction that is next. -/
theorem ensures_step (hu : core.upcoming? = some (i, op)) {Q : Except Fault Unit → Pipeline → Prop}
    (hx : Ensures (core.pipelined output)
      (do
        executeOperation i op
        if op.group ≠ .jump then
          writeRegister core.profile.registers.instructionPointer
            (core.profile.mask (core.instructionPointer + 1))
        modify fun pipeline => { pipeline with steps := pipeline.steps + 1 })
      fun o pipeline => match o with
        | .ok _ => Q o pipeline
        | .error _ => Q o { pipeline with status := .faulted }) :
    Ensures (core.pipelined output) step Q := by
  obtain ⟨hs, hi, hop⟩ := Core.upcoming?_eq_some_iff.1 hu
  obtain ⟨word, hword, rfl⟩ : ∃ word, core.memory.code.load core.instructionPointer = .ok word ∧
      Instruction.decode word = i := by
    rw [Core.nextInstruction] at hi
    cases hword : core.memory.code.load core.instructionPointer with
    | ok word =>
      rw [hword] at hi
      exact ⟨word, rfl, Except.ok.inj hi⟩
    | error fault =>
      rw [hword] at hi
      cases hi
  have hnext : Ensures (core.pipelined output) executeNext fun o pipeline => match o with
      | .ok _ => Q o pipeline
      | .error _ => Q o { pipeline with status := .faulted } := by
    refine (gives_get _).bind ((gives_readRegister core output _).bind ((gives_get _).bind ?_))
    refine (gives_lift_of _ hword).bind ((gives_decode core output word).bind ?_)
    refine (gives_note _ _ _).bind ?_
    rw [hop]
    exact (gives_lift _ _).bind hx
  refine (gives_get _).bind ?_
  rw [if_pos (show (core.pipelined output).status = .running from hs)]
  refine hnext.tryCatch (fun _ _ hq => hq) fun fault pipeline hq => ?_
  exact (gives_note _ _ _).bind ((gives_modify _ _).bind ((gives_throw _ _).ensures hq))

theorem gives_step_of_error (hu : core.upcoming? = some (i, op)) {fault : Fault}
    (hx : Gives (core.pipelined output) (executeOperation i op) (.error fault)
      (core'.pipelined output)) :
    Gives (core.pipelined output) step (.error fault) (core'.faulted.pipelined output) :=
  ensures_step hu (hx.bind_error ⟨rfl, rfl⟩)

/-- Operations other than jumps leave the instruction pointer to the step. -/
theorem gives_step_of_ok (hu : core.upcoming? = some (i, op)) (hj : op.group ≠ .jump)
    (hs : core'.Sound) (hw : core'.profile.Writable) (hp : core'.profile = core.profile)
    (ha : core'.advance = true)
    (hx : Gives (core.pipelined output) (executeOperation i op) (.ok ())
      (core'.pipelined output)) :
    Gives (core.pipelined output) step (.ok ())
      ((core'.retired core.instructionPointer).pipelined output) := by
  refine ensures_step hu (hx.bind ?_)
  have hset := gives_writeRegister output hs hw.instructionPointer
    (core.profile.mask (core.instructionPointer + 1))
  rw [hp, Profile.mask_mask] at hset
  rw [if_pos hj]
  refine hset.bind ((gives_modify _ _).ensures ⟨rfl, ?_⟩)
  rw [Core.retired, if_pos ha, hp]
  rfl

theorem gives_step_popTo (output : Sink) (hs : core.Sound)
    (hu : core.upcoming? = some (i, .move .pop)) (hw : core.profile.Writable)
    (ha : core.advance = true) {value : Word}
    (hv : core.memory.stack.load core.stackPointer = .ok value) (hr : 1 < i.dest) :
    Gives (core.pipelined output) step (.ok ())
      (((core.popped i.dest value core.stackPointer).retired core.instructionPointer).pipelined
        output) :=
  gives_step_of_ok hu (by decide) (hs.popped hw hr value _) hw rfl ha
    (gives_popTo output hv hs hw hr)

end Pipeline

/-! ## Which pops are alike -/

namespace Core
variable [Device δ]

/-- A step ends the same in a core and in the pipeline with its state and leaves the same registers
in both, and the registers of before if it faults. -/
structure StepsAlike (core : Core δ) (output : Sink) (log log' : Log) : Prop where
  outcome_eq : Pipeline.step.result (core.pipelined output) log' =
    (step .standard).result core log
  register_eq : ∀ r, (Pipeline.step.final (core.pipelined output) log').registers.state.get r =
    ((step .standard).final core log).register r
  register_of_error : ∀ fault, (step .standard).result core log = .error fault →
    ∀ r, ((step .standard).final core log).register r = core.register r

section
variable {i : Instruction} {op : Operation} (hs : core.Sound) (hw : core.profile.Writable)
  (hu : core.upcoming? = some (i, op))
include hs hw hu

theorem stepsAlike_of_error {fault : Fault}
    (hx : Gives core (execute .standard i) (.error fault) core)
    (hy : Gives (core.pipelined output) (Pipeline.executeOperation i op) (.error fault)
      (core.pipelined output)) (log log' : Log) : core.StepsAlike output log log' := by
  have hstep := gives_step_of_error hs hw hu hx
  have hstep' := Pipeline.gives_step_of_error hu hy
  refine ⟨?_, fun r => ?_, fun _ _ r => ?_⟩
  · rw [hstep.result_eq, hstep'.result_eq]
  · rw [hstep.final_eq, hstep'.final_eq]
    rfl
  · rw [hstep.final_eq]
    rfl

theorem stepsAlike_of_ok (hj : op.group ≠ .jump) (hs' : core'.Sound)
    (hp : core'.profile = core.profile) (ha : core'.advance = true)
    (hx : Gives core (execute .standard i) (.ok ()) core')
    (hy : Gives (core.pipelined output) (Pipeline.executeOperation i op) (.ok ())
      (core'.pipelined output)) (log log' : Log) : core.StepsAlike output log log' := by
  have hstep := gives_step_of_ok hs hw hu hx
  have hstep' := Pipeline.gives_step_of_ok hu hj hs' (hp ▸ hw) hp ha hy
  refine ⟨?_, fun r => ?_, fun fault hfault => ?_⟩
  · rw [hstep.result_eq, hstep'.result_eq]
  · rw [hstep.final_eq, hstep'.final_eq]
    rfl
  · rw [hstep.result_eq] at hfault
    cases hfault

end

section
variable {i : Instruction} (hs : core.Sound) (hu : core.upcoming? = some (i, .move .pop))
include hs hu

omit hs in
theorem execute_pop : execute (δ := δ) .standard i = executeTransfer (.pop (.register i.dest)) :=
  execute_eq (upcoming?_eq_some_iff.1 hu).2.2

/-- A pop is alike if writing its destination leaves the stack pointer as it is. -/
theorem stepsAlike_pop (hw : core.profile.Writable) (ha : core.advance = true)
    (hkeep : ∀ value, core.memory.stack.load core.stackPointer = .ok value →
      (core.put i.dest (core.profile.mask value)).stackPointer = core.stackPointer)
    (output : Sink) (log log' : Log) : core.StepsAlike output log log' := by
  have hexecute := execute_pop hu
  cases hv : core.memory.stack.load core.stackPointer with
  | error fault =>
    exact stepsAlike_of_error hs hw hu (hexecute ▸ gives_pop_error hv i.dest)
      (Pipeline.gives_popTo_error output hv i.dest) log log'
  | ok value =>
    by_cases hr : 1 < i.dest
    · have hx := gives_pop_kept hv hs.mask_eq hr hw (hkeep value hv)
      rw [← hexecute] at hx
      exact stepsAlike_of_ok hs hw hu (by decide) (hs.popped hw hr value _) rfl ha hx
        (Pipeline.gives_popTo output hv hs hw hr) log log'
    · have hr := UInt8.not_lt.1 hr
      exact stepsAlike_of_error hs hw hu (hexecute ▸ gives_pop_protected hv hr)
        (Pipeline.gives_popTo_protected output hv hr) log log'

omit hu [Device δ] in
/-- A pointer can be told from the one below it. -/
theorem mask_eq_stackPointer (hw : core.profile.Writable) {value : Word}
    (h : core.profile.mask (core.stackPointer - 1) =
      core.profile.mask (core.profile.mask value - 1)) :
    core.profile.mask value = core.stackPointer := by
  have hnext := congrArg (fun pointer => core.profile.mask (pointer + 1)) h
  simp only [Profile.mask_mask_add, UInt64.sub_add_cancel, Profile.mask_mask] at hnext
  exact hnext.symm.trans (hs.mask_register hw.stackPointer)

variable (hw : core.profile.Writable) (hdest : i.dest = core.profile.registers.stackPointer)
  {value : Word} (hv : core.memory.stack.load core.stackPointer = .ok value)
include hw hdest hv

/-- A pop into the stack pointer goes on from the value that it has written there. -/
theorem gives_step_pop_overwriting {value' : Word}
    (hv' : core.memory.stack.load (core.profile.mask value) = .ok value') :
    Gives core (step .standard) (.ok ())
      ((core.popped i.dest value (core.profile.mask value)).retired core.instructionPointer) := by
  have hsp : (core.put i.dest (core.profile.mask value)).stackPointer = core.profile.mask value :=
    hdest ▸ stackPointer_put_self _
  have hx := gives_pop hv hs.mask_eq (hdest ▸ hw.stackPointer) hw (hsp.symm ▸ hv')
  rw [hsp, ← execute_pop hu] at hx
  exact gives_step_of_ok hs hw hu hx

/-- If the value points outside the stack, the pop faults and leaves the pointer there. -/
theorem gives_step_pop_lost {fault : Fault}
    (hv' : core.memory.stack.load (core.profile.mask value) = .error fault) :
    Gives core (step .standard) (.error fault)
      (core.put i.dest (core.profile.mask value)).faulted := by
  have hsp : (core.put i.dest (core.profile.mask value)).stackPointer = core.profile.mask value :=
    hdest ▸ stackPointer_put_self _
  have hx := gives_pop_lost hv hs.mask_eq (hdest ▸ hw.stackPointer) (hsp.symm ▸ hv')
  rw [← execute_pop hu] at hx
  exact gives_step_of_error hs hw hu hx

/-- A pop that overwrites the stack pointer with another value is not alike. -/
theorem not_stepsAlike_pop (hw' : core.profile.WellFormed) (ha : core.advance = true)
    (hne : core.profile.mask value ≠ core.stackPointer) (output : Sink) (log log' : Log) :
    ¬core.StepsAlike output log log' := by
  intro h
  have hstep := Pipeline.gives_step_popTo output hs hu hw ha hv (hdest ▸ hw.stackPointer)
  cases hv' : core.memory.stack.load (core.profile.mask value) with
  | error fault =>
    have houtcome := h.outcome_eq
    rw [hstep.result_eq, (gives_step_pop_lost hs hu hw hdest hv hv').result_eq] at houtcome
    cases houtcome
  | ok value' =>
    have hregister := h.register_eq core.profile.registers.stackPointer
    rw [hstep.final_eq, (gives_step_pop_overwriting hs hu hw hdest hv hv').final_eq] at hregister
    have hpointer (pointer : Word) : ((core.popped i.dest value pointer).retired
        core.instructionPointer).register core.profile.registers.stackPointer =
          core.profile.mask (pointer - 1) := by
      have hip : core.profile.registers.stackPointer ≠ (core.popped i.dest value
          pointer).profile.registers.instructionPointer := hw'.stackPointer_ne_instructionPointer
      rw [register_retired_of_ne hip]
      exact register_put_self _ _ _
    have hpipeline (c : Core δ) (r : UInt8) :
        (c.pipelined output).registers.state.get r = c.register r := rfl
    rw [hpipeline, hpointer, hpointer] at hregister
    exact hne (mask_eq_stackPointer hs hw hregister)

end

/-- **A pop is the same atomic step in a core and in a pipeline exactly if it does not overwrite
    the stack pointer with another value.** -/
theorem pop_alike_iff {i : Instruction} (hs : core.Sound) (hw : core.profile.WellFormed)
    (ha : core.advance = true) (hu : core.upcoming? = some (i, .move .pop)) (output : Sink)
    (log log' : Log) :
    core.StepsAlike output log log' ↔
      (i.dest = core.profile.registers.stackPointer → ∀ value,
        core.memory.stack.load core.stackPointer = .ok value →
          core.profile.mask value = core.stackPointer) := by
  constructor
  · intro h hdest value hv
    by_contra hne
    exact not_stepsAlike_pop hs hu hw.writable hdest hv hw ha hne output log log' h
  · intro h
    refine stepsAlike_pop hs hu hw.writable ha (fun value hv => ?_) output log log'
    by_cases hdest : i.dest = core.profile.registers.stackPointer
    · rw [hdest, stackPointer_put_self]
      exact h hdest value hv
    · exact stackPointer_put_of_ne hdest _

/-- A core that is about to pop `value` into the stack pointer. -/
def overturning (profile : Profile) (value : Word) : Core Empty :=
  let core := (powerOn profile .empty default).put profile.registers.stackPointer 0
  codePart.set (core.memory.code.put 0
      (Instruction.move .pop profile.registers.stackPointer 0).encode)
    (stackPart.set (core.memory.stack.put 0 value) core)

section
variable (profile : Profile) (value : Word)

theorem sound_overturning (hw : profile.Writable) : (overturning profile value).Sound :=
  (RegisterFile.sound_powerOn hw).put hw.stackPointer UInt64.zero_le

theorem stackPointer_overturning : (overturning profile value).stackPointer = 0 :=
  stackPointer_put_self _

theorem load_overturning (hcap : 0 < profile.stackCapacity) :
    (overturning profile value).memory.stack.load (overturning profile value).stackPointer =
      .ok value := by
  rw [stackPointer_overturning]
  exact Segment.load_put_self
    (by simpa [powerOn, Memory.zeroed, Segment.filled, Segment.capacity]) value

theorem upcoming_overturning (hcap : 0 < profile.codeCapacity)
    (hip : (overturning profile value).instructionPointer = 0) :
    (overturning profile value).upcoming? =
      some (Instruction.move .pop profile.registers.stackPointer 0, .move .pop) := by
  have hload : (overturning profile value).memory.code.load 0 =
      .ok (Instruction.move .pop profile.registers.stackPointer 0).encode :=
    Segment.load_put_self (by simpa [powerOn, Memory.zeroed, Segment.filled, Segment.capacity]) _
  refine upcoming?_eq_some_iff.2 ⟨rfl, ?_, rfl⟩
  rw [nextInstruction, hip, hload]
  exact congrArg Except.ok (Instruction.decode_encode _)

end

theorem pop_alike_overturning :
    Profile.small.mask 0 = (overturning .small 0).stackPointer ∧
      (overturning .small 0).StepsAlike default (.ofLevel none) (.ofLevel none) := by
  have hw : Profile.small.WellFormed := by decide
  have hv := load_overturning .small 0 (by decide)
  have hu := upcoming_overturning .small 0 (by decide) (by decide +kernel)
  have htop : Profile.small.mask 0 = (overturning .small 0).stackPointer := by decide +kernel
  refine ⟨htop, (pop_alike_iff (sound_overturning .small 0 hw.writable) hw rfl hu default _ _).2 ?_⟩
  rintro - value hvalue
  cases hv.symm.trans hvalue
  exact htop

/-- A preset machine with a pointer in its data stack that is outside the stack. -/
theorem pop_not_alike_overturning :
    (overturning .compact16 0x2000).profile = .compact16 ∧
      (overturning .compact16 0x2000).devices.slots = [] ∧
      (overturning .compact16 0x2000).upcoming? = some (Instruction.move .pop 3 0, .move .pop) ∧
      ∀ log log',
        (step .standard).result (overturning .compact16 0x2000) log =
            .error (.addressOutOfRange .stack 0x2000 0x1000) ∧
          (overturning .compact16 0x2000).stackPointer = 0 ∧
          ((step .standard).final (overturning .compact16 0x2000) log).stackPointer = 0x2000 ∧
          Pipeline.step.result ((overturning .compact16 0x2000).pipelined default) log' = .ok () ∧
          ¬(overturning .compact16 0x2000).StepsAlike default log log' := by
  have hw : Profile.compact16.WellFormed := by decide
  have hs := sound_overturning .compact16 0x2000 hw.writable
  have hv := load_overturning .compact16 0x2000 (by decide)
  have hu := upcoming_overturning .compact16 0x2000 (by decide) (by decide +kernel)
  have hcap : (overturning .compact16 0x2000).memory.stack.capacity = 0x1000 := by
    simp [overturning, powerOn, Memory.zeroed, Segment.filled, Segment.capacity, Segment.put,
      stackPart, codePart, put, Profile.compact16]
  have hmask : (overturning .compact16 0x2000).profile.mask 0x2000 = 0x2000 := by
    have hpreset : Profile.compact16.mask 0x2000 = 0x2000 := by decide
    exact hpreset
  have hv' : (overturning .compact16 0x2000).memory.stack.load
      ((overturning .compact16 0x2000).profile.mask 0x2000) =
        .error (.addressOutOfRange .stack 0x2000 0x1000) := by
    have hout : ¬(0x2000 : Word).toNat < (overturning .compact16 0x2000).memory.stack.capacity := by
      rw [hcap]
      decide
    rw [hmask, Segment.load_outside hout, Segment.outside, hcap]
    rfl
  have hsp := stackPointer_overturning .compact16 0x2000
  refine ⟨rfl, rfl, hu, fun log log' => ?_⟩
  have hstep := gives_step_pop_lost hs hu hw.writable rfl hv hv'
  have hstep' := Pipeline.gives_step_popTo default hs hu hw.writable rfl hv (by decide)
  refine ⟨hstep.result_eq log, hsp, ?_, hstep'.result_eq log', ?_⟩
  · rw [hstep.final_eq, hmask]
    exact stackPointer_put_self _
  · refine not_stepsAlike_pop hs hu hw.writable rfl hv hw rfl ?_ default log log'
    rw [hsp, hmask]
    decide

end Core

end RegisterMachine
