import RegisterMachine.Proofs.Agree
import RegisterMachine.Proofs.Pipeline.Traffic

/-!
# Cores and pipelines in step

A core without devices and a pipeline are in step if the pipeline has the state of the core. Their
outputs may have different beginnings, but have the same room.

* `Pairing`: what a core and a pipeline that are to be compared have in common.
* `Pairing.InStep`: a core and a pipeline are in step.
* `Pairing.Agrees`: an action on the core and one on the pipeline do the same to those in step.
-/

namespace RegisterMachine

/-- What a fault of a core is on a machine that has no devices. -/
def Fault.withoutDevices (capacity : ℕ) : Fault → Fault
  | unmappedAddress address => addressOutOfRange .data address capacity
  | fault => fault

/-- No fault of a segment is the absence of a device. -/
theorem Segment.withoutDevices_of_load {α : Type} {segment : Segment α} {address : Word}
    {fault : Fault} (h : segment.load address = .error fault) (capacity : ℕ) :
    fault.withoutDevices capacity = fault := by
  by_cases hlt : address.toNat < segment.capacity
  · obtain ⟨value, hv⟩ := exists_load hlt
    cases hv.symm.trans h
  · cases (load_outside hlt).symm.trans h
    rfl

theorem Segment.mapError_load {α : Type} (segment : Segment α) (address : Word) (capacity : ℕ) :
    (segment.load address).mapError (Fault.withoutDevices capacity) = segment.load address := by
  cases h : segment.load address with
  | ok value => rfl
  | error fault => exact congrArg Except.error (withoutDevices_of_load h capacity)

namespace Sink

/-- How many more bytes a sink takes, if there is a limit. -/
def room (sink : Sink) : Option ℕ :=
  sink.limit.map (· - sink.bytes.size)

/-- The sink with more bytes at the end. -/
def extend (sink : Sink) (bytes : Array UInt8) : Sink :=
  { sink with bytes := sink.bytes ++ bytes }

theorem extend_push (sink : Sink) (written : Array UInt8) (byte : UInt8) :
    sink.extend (written.push byte) =
      { sink.extend written with bytes := (sink.extend written).bytes.push byte } := by
  simp [extend]

theorem hasRoom_extend {s t : Sink} (h : s.room = t.room) (bytes : Array UInt8) :
    (s.extend bytes).hasRoom = (t.extend bytes).hasRoom := by
  obtain ⟨ls, bs⟩ := s
  obtain ⟨lt, bt⟩ := t
  cases ls <;> cases lt <;> simp [room, hasRoom, extend] at h ⊢
  omega

/-- Two sinks with the same room take the same bytes. -/
theorem exists_gives_write {s t : Sink} (h : s.room = t.room) (written : Array UInt8)
    (bytes : List UInt8) :
    ∃ o written', (∀ fault, o = .error fault → fault = .shortWrite) ∧
      Exec.Gives (s.extend written) (write bytes) o (s.extend written') ∧
      Exec.Gives (t.extend written) (write bytes) o (t.extend written') := by
  induction bytes generalizing written with
  | nil =>
    exact ⟨.ok (), written, by rintro _ ⟨⟩, Exec.gives_pure _ _, Exec.gives_pure _ _⟩
  | cons byte rest ih =>
    by_cases hroom : (s.extend written).hasRoom = true
    · obtain ⟨o, written', ho, hs, ht⟩ := ih (written.push byte)
      refine ⟨o, written', ho, (Exec.gives_get _).bind ?_, (Exec.gives_get _).bind ?_⟩
      · rw [if_pos hroom]
        rw [extend_push] at hs
        exact (Exec.gives_modify _ _).bind hs
      · rw [if_pos (hasRoom_extend h written ▸ hroom)]
        rw [extend_push] at ht
        exact (Exec.gives_modify _ _).bind ht
    · refine ⟨.error .shortWrite, written, by rintro _ ⟨⟩; rfl, (Exec.gives_get _).bind ?_,
        (Exec.gives_get _).bind ?_⟩
      · rw [if_neg hroom]
        exact Exec.gives_throw _ _
      · rw [if_neg (hasRoom_extend h written ▸ hroom)]
        exact Exec.gives_throw _ _

end Sink

/-- What a core and a pipeline that are to be compared have in common: a profile with words of at
least 16 bits, and outputs with the same room. -/
structure Pairing where
  profile : Profile
  wellFormed : profile.WellFormed
  wide : 16 ≤ profile.wordBits
  coreOutput : Sink
  pipelineOutput : Sink
  room_eq : coreOutput.room = pipelineOutput.room

namespace Pairing

open Exec

variable {δ α β : Type} (U : Pairing)

/-- A core that a pipeline can stand for. -/
structure Fits (core : Core δ) : Prop where
  profile_eq : core.profile = U.profile
  sound : core.Sound
  noDevices : core.devices.slots = []
  data : core.memory.data.Spans .data U.profile.dataCapacity

/-- The pipeline has the state of the core, and both have written the same to their outputs. -/
def InStep (core : Core δ) (pipeline : Pipeline) : Prop :=
  U.Fits core ∧ ∃ written, core.output = U.coreOutput.extend written ∧
    pipeline = core.pipelined (U.pipelineOutput.extend written)

/-- A core and a pipeline in step answer the same and stay in step. -/
def Agrees (x : Exec (Core δ) α) (y : Exec Pipeline α) : Prop :=
  ∀ core pipeline, U.InStep core pipeline →
    Exec.Agree U.InStep (Fault.withoutDevices U.profile.dataCapacity) core pipeline x y

variable {U}

section
variable {x : Exec (Core δ) α} {y : Exec Pipeline α} {f : α → Exec (Core δ) β}
  {g : α → Exec Pipeline β}

theorem Agrees.bind (h : U.Agrees x y) (hfg : ∀ a, U.Agrees (f a) (g a)) :
    U.Agrees (x >>= f) (y >>= g) :=
  fun core pipeline hstep => (h core pipeline hstep).bind fun a core' pipeline' hstep' =>
    hfg a core' pipeline' hstep'

theorem Agrees.tryCatch {hx : Fault → Exec (Core δ) α} {hy : Fault → Exec Pipeline α}
    (h : U.Agrees x y)
    (hcatch : ∀ fault, U.Agrees (hx fault)
      (hy (fault.withoutDevices U.profile.dataCapacity))) :
    U.Agrees (tryCatch x hx) (tryCatch y hy) :=
  fun core pipeline hstep => (h core pipeline hstep).tryCatch fun fault core' pipeline' hstep' =>
    hcatch fault core' pipeline' hstep'

theorem agrees_pure (a : α) : U.Agrees (pure a : Exec (Core δ) α) (pure a) :=
  fun core pipeline hstep => Agree.of_gives (gives_pure core a) (gives_pure pipeline a) hstep

theorem agrees_throw (fault : Fault) :
    U.Agrees (throw fault : Exec (Core δ) α)
      (throw (fault.withoutDevices U.profile.dataCapacity)) :=
  fun _ _ hstep => Agree.throw hstep fault

/-- Actions of which all is known. -/
theorem InStep.agree {core core' : Core δ} {written : Array UInt8} {o : Except Fault α}
    (hx : Gives core x o core')
    (hy : Gives (core.pipelined (U.pipelineOutput.extend written)) y
      (o.mapError (Fault.withoutDevices U.profile.dataCapacity))
      (core'.pipelined (U.pipelineOutput.extend written)))
    (hfit : U.Fits core') (hout : core'.output = U.coreOutput.extend written) :
    Exec.Agree U.InStep (Fault.withoutDevices U.profile.dataCapacity) core
      (core.pipelined (U.pipelineOutput.extend written)) x y :=
  Agree.of_gives hx hy ⟨hfit, written, hout, rfl⟩

end

/-! ## Cores without devices -/

section
variable {core : Core δ}

namespace Fits
variable (h : U.Fits core)
include h

theorem writable : core.profile.Writable := h.profile_eq ▸ U.wellFormed.writable

theorem put {r : UInt8} (hr : 1 < r) (value : Word) :
    U.Fits (core.put r (core.profile.mask value)) :=
  ⟨h.profile_eq, h.sound.put hr value, h.noDevices, h.data⟩

theorem fill {cell : Core.Cell} (ht : core.Takes cell) (value : Word) :
    U.Fits (core.fill (core.profile.mask value) cell) := by
  cases cell with
  | register r => exact h.put ht value
  | data address =>
    exact ⟨h.profile_eq, h.sound, h.noDevices, h.data.region_eq, by
      rw [← h.data.capacity_eq]; exact Segment.capacity_put _ _ _⟩
  | device address => exact h
  | microcode address => exact ⟨h.profile_eq, h.sound, h.noDevices, h.data⟩

theorem setStack (segment : Segment Word) : U.Fits (Core.stackPart.set segment core) :=
  ⟨h.profile_eq, h.sound, h.noDevices, h.data⟩

/-- The fault that the pipeline reports in place of a missing device. -/
theorem outside_data (address : Word) : core.memory.data.outside address =
    (Fault.unmappedAddress address).withoutDevices U.profile.dataCapacity := by
  rw [Segment.outside, h.data.region_eq, h.data.capacity_eq]
  rfl

variable [Device δ] {address : Word}

theorem gives_loadData_unmapped (hm : ¬core.inMemory address = true) :
    Gives core (Core.loadData address) (.error (.unmappedAddress address)) core :=
  Core.gives_loadData_of_empty h.noDevices hm

theorem gives_storeData_unmapped (hm : ¬core.inMemory address = true) (value : Word) :
    Gives core (Core.storeData address value) (.error (.unmappedAddress address)) core :=
  Core.gives_storeData_of_empty h.noDevices hm value

end Fits

end

/-! ## Places -/

/-- The pipeline may write a value that has been cut down to the word width already. -/
theorem agrees_setRegister (r : UInt8) {value value' : Word}
    (hv : U.profile.mask value' = U.profile.mask value) :
    U.Agrees (Core.setRegister (δ := δ) r value) (Pipeline.writeRegister r value') := by
  rintro core _ ⟨hfit, written, hout, rfl⟩
  by_cases hr : 1 < r
  · have hy := Pipeline.gives_writeRegister (U.pipelineOutput.extend written) hfit.sound hr value'
    rw [hfit.profile_eq, hv, ← hfit.profile_eq] at hy
    exact InStep.agree (Core.gives_setRegister hfit.sound.mask_eq hr value) hy
      (hfit.put hr value) hout
  · have hr := UInt8.not_lt.1 hr
    exact InStep.agree (Core.gives_setRegister_protected hr value)
      (Pipeline.gives_writeRegister_protected _ hr value') hfit hout

section
variable [Device δ]

theorem agrees_loadData (address : Word) :
    U.Agrees (Core.loadData (δ := δ) address) (Pipeline.access .load [address]) := by
  rintro core _ ⟨hfit, written, hout, rfl⟩
  have hy := Pipeline.gives_load core (U.pipelineOutput.extend written) address
  by_cases hm : core.inMemory address = true
  · obtain ⟨value, hv⟩ := Segment.exists_load (Core.inMemory_iff.1 hm)
    rw [hv] at hy
    exact InStep.agree (Core.gives_loadData hv) hy hfit hout
  · rw [Segment.load_outside (mt Core.inMemory_iff.2 hm), hfit.outside_data] at hy
    exact InStep.agree (hfit.gives_loadData_unmapped hm) hy hfit hout

theorem agrees_storeData (address value : Word) :
    U.Agrees (Core.storeData (δ := δ) address value) (do
      let _ ← Pipeline.access .store [address, value]) := by
  rintro core _ ⟨hfit, written, hout, rfl⟩
  by_cases hm : core.inMemory address = true
  · have hlt : core.Takes (.data address) := Core.inMemory_iff.1 hm
    refine InStep.agree (Core.gives_storeData hm value) ?_ (hfit.fill hlt value) hout
    exact (Pipeline.gives_store _ value hlt).bind (gives_pure _ _)
  · have hy := Pipeline.gives_store_outside (U.pipelineOutput.extend written) value
      (mt Core.inMemory_iff.2 hm)
    rw [hfit.outside_data] at hy
    exact InStep.agree (hfit.gives_storeData_unmapped hm value) (hy.bind_error ⟨rfl, rfl⟩) hfit hout

theorem agrees_readPlace (p : Place) :
    U.Agrees (Core.readPlace (δ := δ) p) (Pipeline.readPlace p) := by
  rintro core pipeline hstep
  obtain ⟨hfit, written, hout, rfl⟩ := hstep
  have hread (r : UInt8) := Pipeline.gives_readRegister core (U.pipelineOutput.extend written) r
  cases p with
  | register r =>
    exact InStep.agree ((gives_get core).bind (gives_pure core _)) (hread r) hfit hout
  | memory r =>
    refine (gives_get core).agree_left ((hread r).agree_right ?_)
    exact agrees_loadData _ _ _ ⟨hfit, written, hout, rfl⟩
  | memoryAt address => exact agrees_loadData _ _ _ ⟨hfit, written, hout, rfl⟩
  | microcode r =>
    refine (gives_get core).agree_left ((hread r).agree_right ?_)
    have hy := Pipeline.gives_loadMicrocode core (U.pipelineOutput.extend written) (core.register r)
    rw [← Segment.mapError_load _ _ U.profile.dataCapacity] at hy
    exact InStep.agree (gives_lift core _) hy hfit hout

theorem agrees_readOperand (operand : Operand) :
    U.Agrees (Core.readOperand (δ := δ) operand) (Pipeline.readOperand operand) := by
  cases operand with
  | place p => exact agrees_readPlace p
  | literal value => exact agrees_pure _

theorem agrees_writePlace (p : Place) (value : Word) :
    U.Agrees (Core.writePlace (δ := δ) p value) (Pipeline.writePlace p value) := by
  rintro core _ ⟨hfit, written, hout, rfl⟩
  have hread (r : UInt8) := Pipeline.gives_readRegister core (U.pipelineOutput.extend written) r
  cases p with
  | register r => exact agrees_setRegister r rfl _ _ ⟨hfit, written, hout, rfl⟩
  | memory r =>
    refine (gives_get core).agree_left ((hread r).agree_right ?_)
    exact agrees_storeData _ _ _ _ ⟨hfit, written, hout, rfl⟩
  | memoryAt address => exact agrees_storeData _ _ _ _ ⟨hfit, written, hout, rfl⟩
  | microcode r =>
    refine (gives_get core).agree_left ((gives_get core).agree_left ((hread r).agree_right ?_))
    by_cases hlt : (core.register r).toNat < core.memory.microcode.capacity
    · have ht : core.Takes (.microcode (core.register r)) := hlt
      refine InStep.agree (Segment.gives_store hlt _).onPart ?_ (hfit.fill ht value) hout
      exact (Pipeline.gives_storeMicrocode _ value hlt).bind (gives_pure _ _)
    · refine InStep.agree (Segment.gives_store_outside hlt _).onPart ?_ hfit hout
      exact (Pipeline.gives_storeMicrocode_outside _ value hlt).bind_error ⟨rfl, rfl⟩

end

end Pairing

end RegisterMachine
