import RegisterMachine.Device.Probe
import RegisterMachine.Proofs.Core.Step
import RegisterMachine.Proofs.Image

/-!
# Words never outgrow the machine

Values come into a core from many sides: from its user, from images, from devices that answer any
word, from arithmetic that computes in 64 bits. Whatever is asked of a core that has been built, the
constants stay in place and every register and every cell of words keeps within the word width, so
that the memory can always be dumped.

* `Core.InWidth`: the words of a core keep within its width.
* `Core.Invariant.keeps_run`: a run keeps every invariant that bears with the changes that
  instructions make.
* `Core.Request`: what a user may ask of a core.
* `Core.keeps_perform`, `Core.keeps_performAll`: one request, and any number of them.
* `Core.words_keep_width`: what this says of a core that has been built.
-/

namespace RegisterMachine

open Exec

/-! ## Segments -/

namespace Segment
variable {segment : Segment Word} {bound : Word}

theorem Bounded.put (h : segment.Bounded bound) (address : Word) {value : Word}
    (hv : value ≤ bound) : (segment.put address value).Bounded bound := by
  intro word hw
  rw [Segment.put, Array.toList_setIfInBounds] at hw
  rcases List.mem_or_eq_of_mem_set hw with hw | rfl
  exacts [h word hw, hv]

theorem keeps_store (address : Word) {value : Word} (hv : value ≤ bound) :
    Keeps (Segment.Bounded · bound) (store address value) := by
  intro segment log h
  by_cases hr : address.toNat < segment.capacity
  · rw [(gives_store hr value).final_eq log]
    exact h.put address hv
  · rw [(gives_store_outside hr value).final_eq log]
    exact h

theorem keeps_storeAll (start : Word) {values : List Word} (hv : ∀ value ∈ values, value ≤ bound)
    (offset : ℕ) : Keeps (Segment.Bounded · bound) (storeAll start values offset) := by
  induction values generalizing offset with
  | nil => exact Keeps.pure ()
  | cons value rest ih =>
    rw [storeAll]
    split_ifs
    · refine (keeps_store _ (hv value List.mem_cons_self)).bind fun _ => ?_
      exact ih (fun v hr => hv v (List.mem_cons_of_mem _ hr)) (offset + 1)
    · exact Keeps.get_bind fun segment _ => Keeps.throw _

end Segment

/-! ## Cores -/

namespace Core

variable {δ : Type} {core : Core δ} {profile : Profile}

/-- A core with a profile whose words keep within the width of the profile. -/
structure InWidth (profile : Profile) (core : Core δ) : Prop where
  profile_eq : core.profile = profile
  registers : core.Sound
  memory : core.memory.Bounded profile.wordMask

theorem inWidth_powerOn (hw : profile.Writable) (devices : Registry δ) (output : Sink) :
    (powerOn profile devices output).InWidth profile where
  profile_eq := rfl
  registers := RegisterFile.sound_powerOn hw
  memory := Memory.bounded_zeroed profile _

theorem InWidth.reset (h : core.InWidth profile) (hw : profile.Writable) :
    core.reset.InWidth profile where
  profile_eq := h.profile_eq
  registers := RegisterFile.sound_powerOn (h.profile_eq ▸ hw)
  memory := h.memory

theorem invariant_inWidth (profile : Profile) :
    Invariant profile (InWidth profile : Core δ → Prop) where
  profile_eq _ h := h.profile_eq
  sound _ h := h.registers
  put _ _ value _ hr h := { h with registers := h.profile_eq ▸ h.registers.put hr value }
  data _ address value h := { h with
    memory := { h.memory with data := h.memory.data.put address (profile.mask_le value) } }
  microcode _ address value h := { h with
    memory := { h.memory with microcode := h.memory.microcode.put address (profile.mask_le value) } }
  stack _ address value _ h := { h with
    memory := { h.memory with stack := h.memory.stack.put address (profile.mask_le value) } }
  callStack _ address value h := { h with
    memory := { h.memory with callStack := h.memory.callStack.put address (profile.mask_le value) } }
  devices _ _ h := { h with }
  output _ _ h := { h with }
  status _ _ h := { h with }
  flags _ _ _ _ h := { h with }

/-! ## Actions -/

namespace Invariant
variable {I : Core δ → Prop} (h : Invariant profile I)
include h

theorem keeps_setInstructionPointer (address : Word) : Keeps I (setInstructionPointer address) :=
  Keeps.get_bind fun _ _ => h.keeps_setRegister trivial address

theorem keeps_setPredicate (value : Bool) : Keeps I (setPredicate value) :=
  Keeps.get_bind fun _ _ => h.keeps_setRegister trivial _

variable [Device δ]

theorem keeps_loadData (address : Word) : Keeps I (loadData address) := by
  intro core log hc
  obtain ⟨⟨devices, hload⟩, -⟩ : core.UpToDevices ((loadData address).final core log) ∧ _ :=
    ensures_loadData address log
  exact hload ▸ h.devices core devices hc

theorem keeps_storeData (address value : Word) : Keeps I (storeData address value) := by
  intro core log hc
  by_cases hm : core.inMemory address = true
  · rw [(gives_storeData hm value).final_eq log, h.profile_eq core hc]
    exact h.data core address value hc
  · obtain ⟨devices, hstore⟩ := ensures_storeData_device hm value log
    exact hstore ▸ h.devices core devices hc

/-! ## Runs -/

variable (hw : profile.Writable)
include hw

theorem keeps_stepsFrom (made limit : ℕ) : Keeps I (stepsFrom .standard made limit) := by
  induction limit generalizing made with
  | zero => exact Keeps.pure made
  | succ limit ih =>
    refine Keeps.get_bind fun core _ => ?_
    split_ifs
    · exact (h.keeps_step hw).bind fun _ => ih (made + 1)
    · exact Keeps.pure made

/-- **An invariant that bears with every change of a core is kept by a run**, also by one whose
    devices do not start or do not shut down. -/
theorem keeps_run : Keeps I (run .standard) := by
  have hdevices (x : Exec (Registry δ) Unit) : Keeps I (onPart devicesPart x) :=
    Keeps.onPart (fun devices core hc => h.devices core devices hc) x
  refine ((hdevices _).tryCatch fun fault => ?_).bind fun _ => ?_
  · exact (Keeps.modify fun core hc => h.status core _ hc).bind fun _ => Keeps.throw fault
  · refine (h.keeps_stepsFrom hw 0 runLimit).attempt.bind fun outcome => ?_
    refine (hdevices _).attempt.bind fun shutdown => ?_
    exact (Keeps.lift outcome).bind fun made => (Keeps.lift shutdown).bind fun _ => Keeps.pure made

end Invariant

/-! ## Requests -/

/-- What a user may ask of a core. -/
inductive Request where
  | setRegister (r : UInt8) (value : Word)
  | setInstructionPointer (address : Word)
  | setPredicate (value : Bool)
  | installWords (program : List UInt32)
  | installProgram (program : List Instruction)
  | installData (start : Word) (words : List Word)
  | loadData (address : Word)
  | storeData (address value : Word)
  | writePlace (place : Place) (value : Word)
  | pushData (value : Word)
  | popData
  | pushCall (address : Word)
  | popCall
  | loadImage (image : List UInt8)
  | reset
  | step
  | runFor (limit : ℕ)
  | run

/-- Does what is asked. What is answered, if anything is, is not kept. -/
def Request.perform [Device δ] : Request → Exec (Core δ) Unit
  | setRegister r value => Core.setRegister r value
  | setInstructionPointer address => Core.setInstructionPointer address
  | setPredicate value => Core.setPredicate value
  | installWords program => Core.installWords program
  | installProgram program => Core.installProgram program
  | installData start words => Core.installData start words
  | loadData address => do
    let _ ← Core.loadData address
  | storeData address value => Core.storeData address value
  | writePlace place value => Core.writePlace place value
  | pushData value => Core.pushData value
  | popData => do
    let _ ← Core.popData
  | pushCall address => Core.pushCall address
  | popCall => do
    let _ ← Core.popCall
  | loadImage image => Core.loadImage image
  | reset => modify Core.reset
  | step => Core.step .standard
  | runFor limit => do
    let _ ← Core.runFor .standard limit
  | run => do
    let _ ← Core.run .standard

/-- Does what is asked, one thing after another and whatever faults. -/
def performAll [Device δ] (requests : List Request) : Exec (Core δ) Unit :=
  requests.forM fun request => do
    let _ ← attempt (request.perform (δ := δ))

theorem keeps_installWords (program : List UInt32) :
    Keeps (InWidth profile : Core δ → Prop) (installWords program) :=
  Keeps.onPart (fun _ _ h => { h with memory := { h.memory with } }) _

theorem keeps_installData (start : Word) (words : List Word) :
    Keeps (InWidth profile : Core δ → Prop) (installData start words) := by
  refine Keeps.get_bind fun core hc => ?_
  have hwords : ∀ word ∈ words.map core.profile.mask, word ≤ profile.wordMask := by
    intro word hw
    obtain ⟨word, -, rfl⟩ := List.mem_map.1 hw
    exact hc.profile_eq ▸ core.profile.mask_le word
  refine (Segment.keeps_storeAll start hwords 0).onPart_of (fun core h => h.memory.data) ?_
  exact fun data core h hdata => { h with memory := { h.memory with data := hdata } }

theorem keeps_loadImage (hc : Image.isCellSize profile.wordBytes) (hle : profile.wordBits ≤ 64)
    (image : List UInt8) : Keeps (InWidth profile : Core δ → Prop) (loadImage image) := by
  intro core log h
  obtain rfl := h.profile_eq
  rw [final_loadImage]
  split
  · next memory hread => exact ⟨rfl, h.registers, Image.bounded_of_readImage hc hle hread⟩
  · exact h

section
variable [Device δ] (hw : profile.Writable) (hpos : 8 ≤ profile.wordBits)
  (hle : profile.wordBits ≤ 64)
include hw hpos hle

theorem keeps_perform (request : Request) :
    Keeps (InWidth profile : Core δ → Prop) request.perform := by
  have h : Invariant profile (InWidth profile : Core δ → Prop) := invariant_inWidth profile
  cases request with
  | setRegister r value => exact h.keeps_setRegister trivial value
  | setInstructionPointer address => exact h.keeps_setInstructionPointer address
  | setPredicate value => exact h.keeps_setPredicate value
  | installWords program => exact keeps_installWords program
  | installProgram program => exact keeps_installWords _
  | installData start words => exact keeps_installData start words
  | loadData address => exact (h.keeps_loadData address).bind fun _ => Keeps.pure _
  | storeData address value => exact h.keeps_storeData address value
  | writePlace place value => exact h.keeps_writePlace (fun _ _ => trivial) value
  | pushData value => exact h.keeps_pushData hw trivial value
  | popData => exact (h.keeps_popData hw trivial).bind fun _ => Keeps.pure _
  | pushCall address => exact h.keeps_pushCall hw trivial address
  | popCall => exact (h.keeps_popCall hw trivial).bind fun _ => Keeps.pure _
  | loadImage image => exact keeps_loadImage (Image.isCellSize_wordBytes hpos hle) hle image
  | reset => exact Keeps.modify fun core hc => hc.reset hw
  | step => exact h.keeps_step hw
  | runFor limit => exact (h.keeps_stepsFrom hw 0 limit).bind fun _ => Keeps.pure _
  | run => exact (h.keeps_run hw).bind fun _ => Keeps.pure _

theorem keeps_performAll (requests : List Request) :
    Keeps (InWidth profile : Core δ → Prop) (performAll requests) :=
  Keeps.forM (fun request => (keeps_perform hw hpos hle request).attempt.bind fun _ =>
    Keeps.pure _) requests

end

theorem build_eq_ok [Device δ] {devices : List δ} {output : Sink} {log : Log}
    (h : (build profile devices output log).1 = .ok core) :
    ∃ registry, core = powerOn profile registry output := by
  unfold build at h
  split at h
  · next registry log' hattach =>
    cases h
    exact ⟨registry, rfl⟩
  · cases h

/-- **The words of a core keep within its width.** Build a core with any devices and ask anything of
    it, in any order and whatever faults: the constants are in place, no register and no cell of
    words exceeds the word width, and so memory can be dumped if words are whole bytes. -/
theorem words_keep_width [Device δ] (hw : profile.Writable) (hbits : 16 ≤ profile.wordBits)
    (hle : profile.wordBits ≤ 64) (devices : List δ) (output : Sink) (log log' : Log)
    (hbuild : (build profile devices output log).1 = .ok core) (requests : List Request) :
    let core' := (performAll requests).final core log'
    core'.register 0 = 0 ∧ core'.register 1 = 1 ∧ (∀ r, core'.register r ≤ profile.wordMask) ∧
      core'.memory.Bounded profile.wordMask ∧
      (8 ∣ profile.wordBits → ∀ sink : Sink, sink.limit = none →
        ∃ sink', core'.dumpImage sink = .ok sink') := by
  obtain ⟨registry, rfl⟩ := build_eq_ok hbuild
  have h : ((performAll requests).final (powerOn profile registry output) log').InWidth profile :=
    keeps_performAll hw (by omega) hle requests _ log' (inWidth_powerOn hw registry output)
  generalize (performAll requests).final (powerOn profile registry output) log' = core' at h ⊢
  obtain ⟨rfl, hregisters, hmemory⟩ := h
  refine ⟨hregisters.zero, hregisters.one, fun r => ?_, hmemory, fun hdvd sink hs => ?_⟩
  · exact hregisters.get_le (by omega) r
  · exact ⟨_, Image.writeImage_eq ⟨hdvd, by omega, hle⟩ hmemory hs⟩

/-- A device that answers more than a 16 bit machine keeps. -/
def overflowing : Probe := ⟨⟨4, 9⟩, some 0x10002, []⟩

theorem words_keep_width_overflowing :
    let devices : Registry Probe := ⟨[⟨⟨4, 9⟩, overflowing⟩], #[]⟩
    let requests := [.setRegister 8 0x10005, .writePlace (.register 9) 0x20000, .loadData 4,
      .installProgram [.moveImmediate .pushImmediate 0 7, .moveImmediate .loadImmediate 10 4], .run]
    let core := (performAll requests).final (powerOn .small devices default) (.ofLevel none)
    (build .small [overflowing] default (.ofLevel none)).1 = .ok (powerOn .small devices default) ∧
      core.register 8 = 5 ∧ core.register 10 = 2 ∧
      core.register 0 = 0 ∧ core.register 1 = 1 ∧ (∀ r, core.register r ≤ Profile.small.wordMask) ∧
      core.memory.Bounded Profile.small.wordMask ∧ ∃ sink, core.dumpImage default = .ok sink := by
  intro devices requests core
  have hw : Profile.small.Writable := ⟨by decide, by decide, by decide, by decide⟩
  have hbuild : (build .small [overflowing] default (.ofLevel none)).1 =
      .ok (powerOn .small devices default) := rfl
  obtain ⟨hzero, hone, hregisters, hmemory, hdump⟩ := words_keep_width hw (by decide) (by decide)
    [overflowing] default (.ofLevel none) (.ofLevel none) hbuild requests
  exact ⟨hbuild, by decide +kernel, by decide +kernel, hzero, hone, hregisters, hmemory,
    hdump (by decide) default rfl⟩

end Core

end RegisterMachine
