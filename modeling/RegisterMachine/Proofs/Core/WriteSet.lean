import RegisterMachine.Proofs.Core.Calls

/-!
# What a step may change

The operation that a core is about to carry out settles which registers the step may change, and
how many cells of each region, also if the step faults in the middle of its work. Code is not among
what can be changed at all, and return addresses and pushed words are out of reach of data writes.

* `Operation.changes`, `Operation.reach`: the registers and the number of cells.
* `Core.Touched`: two cores are the same but for some spots. `Core.Confined`: the spots are among
  given registers and not more than so many cells of every region.
* `Core.touched_exchange`: a swap that is undone touches no more than one that is not.
* `Core.confined_execute`: any instruction.
* `Core.WithinWriteSet`, `Core.withinWriteSet_step`: any step.
* `Core.writes_confined`: what this says of a run.
-/

namespace RegisterMachine

/-! ## Write sets -/

/-- The registers that a move instruction may change. -/
def MoveOp.changes (special : SpecialRegisters) (i : Instruction) : MoveOp → List UInt8
  | move | set | load | loadImmediate | loadMicrocode | peek | swapRegMem | swapRegAddr => [i.dest]
  | swap => [i.dest, i.src0]
  | push | pushImmediate => [special.stackPointer]
  | pop => [special.stackPointer, i.dest]
  | swapMemMem | swapMemAddr | store | storeMemory | storeImmediateAddress | storeImmediate |
    storeMicrocode => []

/-- The registers that an operation may change, apart from the instruction pointer. -/
def Operation.changes (special : SpecialRegisters) (predicate : Bool) (i : Instruction) :
    Operation → List UInt8
  | arithmetic _ => [i.dest]
  | move op => op.changes special i
  | jump op => if op.calls predicate ∨ op = .ret then [special.callPointer] else []
  | compare _ => [special.predicate]
  | misc _ => []

/-- The number of data cells that a move instruction may change. -/
def MoveOp.dataReach : MoveOp → ℕ
  | store | storeMemory | storeImmediateAddress | storeImmediate => 1
  | swapRegMem | swapRegAddr => 1
  | swapMemMem | swapMemAddr => 2
  | _ => 0

/-- The number of cells of a region that an operation may change. -/
def Operation.reach (predicate : Bool) : Operation → Region → ℕ
  | move op, .data => op.dataReach
  | move .push, .stack | move .pushImmediate, .stack => 1
  | jump op, .callStack => if op.calls predicate then 1 else 0
  | move .storeMicrocode, .microcode => 1
  | _, _ => 0

/-- One cell of a region and none of the others. -/
def Region.single (region : Region) : Region → ℕ :=
  fun other => if other = region then 1 else 0

/-- The number of cells of a region that a place is. -/
def Place.reach : Place → Region → ℕ
  | register _ => fun _ => 0
  | memory _ | memoryAt _ => Region.data.single
  | microcode _ => Region.microcode.single

/-- The number of cells of a region that a transfer may change. -/
def Transfer.reach : Transfer → Region → ℕ
  | copy dest _ => dest.reach
  | swap a b => a.reach + b.reach
  | push _ => Region.stack.single
  | pop dest | peek dest => dest.reach

theorem Transfer.writes_ofMove (special : SpecialRegisters) (i : Instruction) (op : MoveOp) :
    (ofMove i op).writes special = op.changes special i := by
  cases op <;> rfl

theorem Transfer.reach_ofMove (predicate : Bool) (i : Instruction) (op : MoveOp) :
    (ofMove i op).reach = (Operation.move op).reach predicate := by
  funext region
  cases op <;> cases region <;> rfl

namespace Core

open Exec

variable {δ α β : Type} {core core' core'' : Core δ}

/-! ## Spots -/

/-- Where a core keeps a word. -/
inductive Spot where
  | register (r : UInt8)
  | cell (region : Region) (address : Word)

/-- The address of a spot in a region, if it is there. -/
def Spot.address? (region : Region) : Spot → Option Word
  | register _ => none
  | cell region' address => if region' = region then some address else none

/-- The word in a spot, or why there is none. -/
def look (core : Core δ) : Spot → Except Fault Word
  | .register r => .ok (core.register r)
  | .cell region address => core.loadCell region address

theorem look_put_of_ne {r : UInt8} {spot : Spot} (h : spot ≠ .register r) (value : Word) :
    (core.put r value).look spot = core.look spot := by
  cases spot with
  | register q =>
    have hne : q ≠ r := by
      rintro rfl
      exact h rfl
    rw [look, look, register_put_of_ne hne]
  | cell region address => cases region <;> rfl

/-- The core with another word in a cell of a region other than code. -/
def poke (core : Core δ) (address value : Word) : Region → Core δ
  | .code => core
  | .data => dataPart.set (core.memory.data.put address value) core
  | .stack => stackPart.set (core.memory.stack.put address value) core
  | .callStack => callStackPart.set (core.memory.callStack.put address value) core
  | .microcode => microcodePart.set (core.memory.microcode.put address value) core

theorem look_poke_of_ne {region : Region} {address : Word} {spot : Spot}
    (h : spot ≠ .cell region address) (value : Word) :
    (core.poke address value region).look spot = core.look spot := by
  cases spot with
  | register r => cases region <;> rfl
  | cell region' address' =>
    by_cases hregion : region' = region
    · subst hregion
      have hne : address' ≠ address := by
        rintro rfl
        exact h rfl
      cases region' with
      | code => rfl
      | _ => exact Segment.load_put_of_ne hne value
    · cases region <;> cases region' <;> first | rfl | exact absurd rfl hregion

/-- The words of a core are those of another but for some spots. -/
structure Touched (core : Core δ) (spots : List Spot) (core' : Core δ) : Prop where
  profile_eq : core'.profile = core.profile
  sound : core'.Sound
  code_eq : core'.memory.code = core.memory.code
  look_eq : ∀ spot, spot ∉ spots → core'.look spot = core.look spot

namespace Touched
variable {spots spots' : List Spot}

theorem of_same (hs : core.Sound) (hp : core'.profile = core.profile)
    (hr : core'.registers = core.registers) (hm : core'.memory = core.memory) :
    core.Touched [] core' := by
  refine ⟨hp, ?_, by rw [hm], fun spot _ => ?_⟩
  · rw [Sound, hr, hp]
    exact hs
  · cases spot with
    | register r => rw [look, look, register, register, hr]
    | cell region address => cases region <;> simp only [look, loadCell, hm]

theorem refl (hs : core.Sound) : core.Touched [] core := of_same hs rfl rfl rfl

theorem mono (h : core.Touched spots core') (hsub : spots ⊆ spots') : core.Touched spots' core' :=
  { h with look_eq := fun spot hspot => h.look_eq spot fun hmem => hspot (hsub hmem) }

theorem trans (h : core.Touched spots core') (h' : core'.Touched spots' core'') :
    core.Touched (spots ++ spots') core'' where
  profile_eq := h'.profile_eq.trans h.profile_eq
  sound := h'.sound
  code_eq := h'.code_eq.trans h.code_eq
  look_eq spot hspot := by
    rw [List.mem_append, not_or] at hspot
    rw [h'.look_eq spot hspot.2, h.look_eq spot hspot.1]

end Touched

theorem UpToDevices.touched (h : core.UpToDevices core') (hs : core.Sound) :
    core.Touched [] core' := by
  obtain ⟨devices, rfl⟩ := h
  exact .of_same hs rfl rfl rfl

theorem touched_put (hs : core.Sound) {r : UInt8} (hr : 1 < r) (value : Word) :
    core.Touched [.register r] (core.put r (core.profile.mask value)) :=
  ⟨rfl, hs.put hr value, rfl, fun _ hspot => look_put_of_ne (List.ne_of_not_mem_cons hspot) _⟩

theorem touched_poke (hs : core.Sound) (address value : Word) (region : Region) :
    core.Touched [.cell region address] (core.poke address value region) := by
  have hp : (core.poke address value region).profile = core.profile := by cases region <;> rfl
  have hr : (core.poke address value region).registers = core.registers := by cases region <;> rfl
  refine ⟨hp, ?_, by cases region <;> rfl, fun _ hspot => ?_⟩
  · rw [Sound, hr, hp]
    exact hs
  · exact look_poke_of_ne (List.ne_of_not_mem_cons hspot) value

/-! ## Few spots -/

/-- The words of a core are those of another but for given registers, and for not more than so many
cells of every region. -/
def Confined (core : Core δ) (writes : List UInt8) (reach : Region → ℕ) (core' : Core δ) : Prop :=
  ∃ spots, core.Touched spots core' ∧ (∀ r, .register r ∈ spots → r ∈ writes) ∧
    ∀ region, (spots.filterMap (Spot.address? region)).length ≤ reach region

namespace Confined
variable {writes writes' : List UInt8} {reach reach' : Region → ℕ}

theorem profile_eq (h : core.Confined writes reach core') : core'.profile = core.profile := by
  obtain ⟨spots, h, -⟩ := h
  exact h.profile_eq

theorem sound (h : core.Confined writes reach core') : core'.Sound := by
  obtain ⟨spots, h, -⟩ := h
  exact h.sound

theorem mono (h : core.Confined writes reach core') (hw : writes ⊆ writes')
    (hr : ∀ region, reach region ≤ reach' region) : core.Confined writes' reach' core' := by
  obtain ⟨spots, h, hwrites, hreach⟩ := h
  refine ⟨spots, h, fun r hmem => hw (hwrites r hmem), fun region => ?_⟩
  exact (hreach region).trans (hr region)

theorem of_touched (h : core.Touched [] core') : core.Confined writes reach core' :=
  ⟨[], h, by simp, by simp⟩

theorem refl (hs : core.Sound) : core.Confined writes reach core := of_touched (.refl hs)

theorem trans (h : core.Confined writes reach core') (h' : core'.Confined writes' reach' core'') :
    core.Confined (writes ++ writes') (reach + reach') core'' := by
  obtain ⟨spots, h, hwrites, hreach⟩ := h
  obtain ⟨spots', h', hwrites', hreach'⟩ := h'
  refine ⟨spots ++ spots', h.trans h', fun r hmem => ?_, fun region => ?_⟩
  · rw [List.mem_append] at hmem ⊢
    exact hmem.imp (hwrites r) (hwrites' r)
  · rw [List.filterMap_append, List.length_append]
    exact Nat.add_le_add (hreach region) (hreach' region)

/-- What comes before without a trace does not count. -/
theorem of_touched_trans (h : core.Touched [] core') (h' : core'.Confined writes reach core'') :
    core.Confined writes reach core'' := by
  obtain ⟨spots, h', hwrites, hreach⟩ := h'
  exact ⟨spots, h.trans h', hwrites, hreach⟩

theorem trans_touched (h : core.Confined writes reach core') (h' : core'.Touched [] core'') :
    core.Confined writes reach core'' := by
  obtain ⟨spots, h, hwrites, hreach⟩ := h
  refine ⟨spots, ?_, hwrites, hreach⟩
  simpa using h.trans h'

end Confined

theorem Touched.confined_register {r : UInt8} (h : core.Touched [.register r] core') :
    core.Confined [r] 0 core' :=
  ⟨_, h, by simp, by simp [Spot.address?]⟩

section
variable {writes writes' : List UInt8} {reach reach' : Region → ℕ} {x : Exec (Core δ) α}
  {f : α → Exec (Core δ) β}

theorem Confined.bind (hx : Ensures core x fun _ core' => core.Confined writes reach core')
    (hf : ∀ a core', core.Confined writes reach core' →
      Ensures core' (f a) fun _ core'' => core'.Confined writes' reach' core'') :
    Ensures core (x >>= f) fun _ core'' =>
      core.Confined (writes ++ writes') (reach + reach') core'' := by
  refine hx.bind (fun a core' h => (hf a core' h).mono fun _ _ h' => h.trans h') fun _ _ h => ?_
  refine h.mono (List.subset_append_left _ _) fun region => ?_
  exact Nat.le_add_right _ _

theorem Confined.read_bind (hs : core.Sound)
    (hx : Ensures core x fun _ core' => core.UpToDevices core')
    (hf : ∀ a core', core.Touched [] core' →
      Ensures core' (f a) fun _ core'' => core'.Confined writes reach core'') :
    Ensures core (x >>= f) fun _ core'' => core.Confined writes reach core'' := by
  refine hx.bind (fun a core' h => ?_) fun _ _ h => .of_touched (h.touched hs)
  have ht := h.touched hs
  exact (hf a core' ht).mono fun _ _ h' => .of_touched_trans ht h'

theorem Confined.lift_bind (hs : core.Sound) {o : Except Fault α}
    (hf : ∀ a, Ensures core (f a) fun _ core' => core.Confined writes reach core') :
    Ensures core (liftM o >>= f) fun _ core' => core.Confined writes reach core' := by
  cases o with
  | ok a => exact (gives_lift core _).bind (hf a)
  | error fault => exact (gives_lift core _).bind_error (.refl hs)

end

/-! ## Places -/

/-- The spot that a cell is, if it is not a device's. -/
def Cell.spots : Cell → List Spot
  | register r => [.register r]
  | data address => [.cell .data address]
  | device _ => []
  | microcode address => [.cell .microcode address]

theorem touched_fill {cell : Cell} (hs : core.Sound) (ht : core.Takes cell) (value : Word) :
    core.Touched cell.spots (core.fill (core.profile.mask value) cell) := by
  cases cell with
  | register r => exact touched_put hs ht value
  | data address => exact touched_poke hs address _ .data
  | device address => exact .refl hs
  | microcode address => exact touched_poke hs address _ .microcode

theorem mem_registers_of_cell {p : Place} {r : UInt8} (h : .register r ∈ (core.cell p).spots) :
    r ∈ p.registers := by
  cases hcell : core.cell p with
  | register q =>
    rw [hcell] at h
    cases eq_register_of_cell hcell
    cases List.mem_singleton.1 h
    exact List.mem_cons_self
  | _ => rw [hcell] at h; simp [Cell.spots] at h

theorem length_address_cell (core : Core δ) (p : Place) (region : Region) :
    ((core.cell p).spots.filterMap (Spot.address? region)).length ≤ p.reach region := by
  have hdata (address : Word) :
      ((core.cellAt address).spots.filterMap (Spot.address? region)).length ≤
        Region.data.single region := by
    rw [cellAt]
    split_ifs
    · cases region <;> simp [Cell.spots, Spot.address?, Region.single]
    · simp [Cell.spots]
  cases p with
  | register r => exact Nat.le_refl 0
  | memory r => exact hdata _
  | memoryAt address => exact hdata _
  | microcode r =>
    cases region <;> simp [cell, Cell.spots, Spot.address?, Place.reach, Region.single]

theorem Touched.confined {p : Place} (h : core.Touched (core'.cell p).spots core'') :
    core.Confined p.registers p.reach core'' :=
  ⟨_, h, fun _ => mem_registers_of_cell, length_address_cell core' p⟩

section
variable [Device δ] {p : Place} (hs : core.Sound)

/-- A write either fills the cell that the place names or has no effect. -/
theorem ensures_writePlace_cases (hs : core.Sound) (p : Place) (value : Word) :
    Ensures core (writePlace p value) fun o core' =>
      (o = .ok () ∧ core.Takes (core.cell p) ∧
        core' = core.fill (core.profile.mask value) (core.cell p)) ∨ core.UpToDevices core' := by
  by_cases h : core.Takes (core.cell p)
  · exact (gives_writePlace hs.mask_eq h value).ensures (.inl ⟨rfl, h, rfl⟩)
  · exact (ensures_writePlace h value).mono fun _ _ hc => .inr hc

/-- Whatever comes of a write, it touches at most the cell that the place names, and the place
still names that cell. -/
theorem touched_writePlace (hs : core.Sound) (p : Place) (value : Word) :
    Ensures core (writePlace p value) fun _ core' =>
      core.Touched (core.cell p).spots core' ∧ core'.cell p = core.cell p := by
  refine (ensures_writePlace_cases hs p value).mono ?_
  rintro o core' (⟨-, ht, rfl⟩ | hc)
  · exact ⟨touched_fill hs ht value, cell_fill_cell core _ p⟩
  · refine ⟨(hc.touched hs).mono (List.nil_subset _), ?_⟩
    obtain ⟨devices, rfl⟩ := hc
    rfl

theorem confined_writePlace (hs : core.Sound) (p : Place) (value : Word) :
    Ensures core (writePlace p value) fun _ core' => core.Confined p.registers p.reach core' :=
  (touched_writePlace hs p value).mono fun _ _ h => h.1.confined

/-- The undo of a swap goes to the cell that its first write went to, so that it touches nothing
that the swap would not have touched. -/
theorem touched_exchange (hs : core.Sound) (a b : Place) (first second : Word) :
    Ensures core (do
      writePlace a second
      tryCatch (writePlace b first) fun fault => do
        writePlace a first
        throw fault)
      fun _ core'' => ∃ core' : Core δ,
        core.Touched ((core.cell a).spots ++ (core'.cell b).spots) core'' := by
  have hfirst : (core.cell a).spots ⊆ (core.cell a).spots ++ (core.cell b).spots :=
    List.subset_append_left _ _
  refine (touched_writePlace hs a second).bind ?_ fun _ _ h => ⟨core, h.1.mono hfirst⟩
  rintro _ core₁ ⟨h₁, hcell⟩
  refine (ensures_writePlace_cases h₁.sound b first).tryCatch ?_ ?_
  · rintro _ core₂ (⟨-, ht, rfl⟩ | hc)
    · exact ⟨core₁, h₁.trans (touched_fill h₁.sound ht first)⟩
    · refine ⟨core, (h₁.trans (hc.touched h₁.sound)).mono ?_⟩
      simp
  · rintro fault core₂ (⟨ho, -, -⟩ | ⟨devices, rfl⟩)
    · cases ho
    -- a failed write leaves registers alone, so the undo fills the cell that was filled first
    have h₂ : core₁.Touched [] (devicesPart.set devices core₁) :=
      UpToDevices.touched ⟨devices, rfl⟩ h₁.sound
    have hcell₂ : (devicesPart.set devices core₁).cell a = core.cell a := hcell
    have hundo := touched_writePlace h₂.sound a first
    rw [hcell₂] at hundo
    have hend {core₃ : Core δ} (h₃ : (devicesPart.set devices core₁).Touched (core.cell a).spots
        core₃) : core.Touched ((core.cell a).spots ++ (core.cell b).spots) core₃ := by
      refine ((h₁.trans h₂).trans h₃).mono ?_
      simp
    refine hundo.bind (fun _ core₃ h₃ => ?_) fun _ core₃ h₃ => ⟨core, hend h₃.1⟩
    exact (gives_throw core₃ fault).ensures ⟨core, hend h₃.1⟩

end

/-! ## Instructions -/

section
variable (hs : core.Sound)
include hs

theorem confined_setRegister (r : UInt8) (value : Word) :
    Ensures core (setRegister r value) fun _ core' => core.Confined [r] 0 core' := by
  by_cases hr : 1 < r
  · exact (gives_setRegister hs.mask_eq hr value).ensures
      (touched_put hs hr value).confined_register
  · exact (gives_setRegister_protected (UInt8.not_lt.1 hr) value).ensures (.refl hs)

theorem confined_executeArithmetic (op : ArithmeticOp) (i : Instruction) :
    Ensures core (executeArithmetic op i) fun _ core' => core.Confined [i.dest] 0 core' := by
  rw [executeArithmetic_eq]
  refine (gives_get core).bind (Confined.lift_bind hs fun value => ?_)
  exact confined_setRegister hs i.dest value

theorem confined_executeCompare (op : CompareOp) (i : Instruction) :
    Ensures core (executeCompare op i) fun _ core' =>
      core.Confined [core.profile.registers.predicate] 0 core' :=
  (gives_get core).bind ((gives_get core).bind (confined_setRegister hs _ _))

theorem confined_systemCall (selector : UInt8) (i : Instruction) :
    Ensures core (SystemCallTable.standard.handler selector i) fun _ core' =>
      core.Confined [] 0 core' := by
  rw [handler_standard]
  generalize (Opcode.ofCode? selector.toNat : Option SystemCommand) = command
  rcases command with _ | _ | _ | _
  · exact (gives_throw core _).ensures (.refl hs)
  · refine (gives_get core).bind ((gives_note core _ _).bind ?_)
    exact (gives_modify core _).ensures (.of_touched (.of_same hs rfl rfl rfl))
  · exact (gives_throw core _).ensures (.refl hs)
  · refine (gives_get core).bind ((gives_get core).bind (Confined.lift_bind hs fun character => ?_))
    exact Ensures.onPart fun _ => .of_touched (.of_same hs rfl rfl rfl)

/-- A push changes a cell of a region and the register that points to it. -/
theorem confined_pushed {r : UInt8} {slot : Word} (hr : 1 < r)
    (hslot : core.profile.mask slot = slot) (value : Word) (region : Region) :
    core.Confined [r] region.single ((core.poke slot value region).put r slot) := by
  have hpoke := touched_poke hs slot value region
  have hput := touched_put hpoke.sound hr slot
  rw [hpoke.profile_eq, hslot] at hput
  refine ⟨_, hpoke.trans hput, by simp, fun other => ?_⟩
  cases region <;> cases other <;> simp [Spot.address?, Region.single]

variable (hw : core.profile.Writable)
include hw

theorem confined_pushData (value : Word) :
    Ensures core (pushData value) fun _ core' =>
      core.Confined [core.profile.registers.stackPointer] Region.stack.single core' := by
  by_cases hroom : core.stackSlot.toNat < core.memory.stack.capacity
  · exact (gives_pushData hs.mask_eq hw hroom value).ensures
      (confined_pushed hs hw.stackPointer (Profile.mask_mask _) _ .stack)
  · exact (gives_pushData_full hroom value).ensures (.refl hs)

theorem confined_popData :
    Ensures core popData fun _ core' =>
      core.Confined [core.profile.registers.stackPointer] 0 core' := by
  cases hv : core.memory.stack.load core.stackPointer with
  | ok value =>
    exact (gives_popData hs.mask_eq hw hv).ensures
      (touched_put hs hw.stackPointer _).confined_register
  | error fault => exact (gives_popData_error hv).ensures (.refl hs)

theorem confined_executeTransfer [Device δ] (transfer : Transfer) :
    Ensures core (executeTransfer transfer) fun _ core' =>
      core.Confined (transfer.writes core.profile.registers) transfer.reach core' := by
  cases transfer with
  | copy dest source =>
    refine Confined.read_bind hs (ensures_readOperand core source) fun value core' h => ?_
    exact confined_writePlace h.sound dest value
  | swap a b =>
    have hread (core : Core δ) (p : Place) :
        Ensures core (readPlace p) fun _ core' => core.UpToDevices core' :=
      (ensures_readPlace core p).mono fun _ _ h => h.1
    refine Confined.read_bind hs (hread core a) fun first core₁ h₁ => ?_
    refine Confined.read_bind h₁.sound (hread core₁ b) fun second core₂ h₂ => ?_
    refine (touched_exchange h₂.sound a b first second).mono ?_
    rintro _ core'' ⟨core', h⟩
    refine ⟨_, h, fun r hmem => ?_, fun region => ?_⟩
    · rw [Transfer.writes, List.mem_append]
      exact (List.mem_append.1 hmem).imp mem_registers_of_cell mem_registers_of_cell
    · rw [List.filterMap_append, List.length_append]
      exact Nat.add_le_add (length_address_cell _ a region) (length_address_cell _ b region)
  | push source =>
    refine Confined.read_bind hs (ensures_readOperand core source) fun value core' h => ?_
    rw [Transfer.writes, ← h.profile_eq]
    exact confined_pushData h.sound (h.profile_eq ▸ hw) value
  | pop dest =>
    refine (gives_get core).bind (Confined.lift_bind hs fun value => ?_)
    have hpop : Ensures core (do
        writePlace dest value
        let _ ← popData) fun _ core' =>
          core.Confined (dest.registers ++ [core.profile.registers.stackPointer])
            (dest.reach + 0) core' := by
      refine Confined.bind (confined_writePlace hs dest value) fun _ core' h => ?_
      rw [← h.profile_eq]
      refine (confined_popData h.sound (h.profile_eq ▸ hw)).bind (fun _ core'' h' => ?_)
        fun _ _ h' => h'
      exact (gives_pure core'' ()).ensures h'
    refine hpop.mono fun _ core' h => h.mono ?_ fun region => le_of_eq (Nat.add_zero _)
    intro r hr
    rw [Transfer.writes]
    simpa [or_comm] using hr
  | peek dest =>
    refine (gives_get core).bind (Confined.lift_bind hs fun value => ?_)
    exact confined_writePlace hs dest value

theorem touched_jumped (address : Word) :
    core.Touched [.register core.profile.registers.instructionPointer] (core.jumped address) := by
  have hput := touched_put hs hw.instructionPointer address
  have hflag : (core.put core.profile.registers.instructionPointer
      (core.profile.mask address)).Touched [] (core.jumped address) :=
    .of_same hput.sound rfl rfl rfl
  simpa using hput.trans hflag

theorem confined_jumped (address : Word) :
    core.Confined [core.profile.registers.instructionPointer] 0 (core.jumped address) :=
  (touched_jumped hs hw address).confined_register

theorem confined_follow_call (address : Word) :
    Ensures core (follow (.call address)) fun _ core' =>
      core.Confined
        [core.profile.registers.instructionPointer, core.profile.registers.callPointer]
        Region.callStack.single core' := by
  by_cases hroom : core.callSlot.toNat < core.memory.callStack.capacity
  · refine (gives_follow_call hs.mask_eq hw hroom address).ensures ?_
    have hcalled : core.Confined [core.profile.registers.callPointer] Region.callStack.single
        (core.called core.nextAddress) :=
      confined_pushed hs hw.callPointer (Profile.mask_mask _) _ .callStack
    have hjumped := hcalled.trans (confined_jumped hcalled.sound hw address)
    refine hjumped.mono (fun r hr => ?_) fun region => le_of_eq (Nat.add_zero _)
    rw [hcalled.profile_eq] at hr
    simpa [or_comm] using hr
  · exact (gives_follow_call_full hroom address).ensures (.refl hs)

theorem confined_follow_ret :
    Ensures core (follow .ret) fun _ core' =>
      core.Confined
        [core.profile.registers.instructionPointer, core.profile.registers.callPointer]
        0 core' := by
  cases ha : core.memory.callStack.load core.callPointer with
  | ok address =>
    refine (gives_follow_ret hs.mask_eq hw ha).ensures ?_
    have hpopped := touched_put hs hw.callPointer (core.callPointer - 1)
    have hjumped := hpopped.trans (touched_jumped hpopped.sound hw address)
    refine ⟨_, hjumped, fun r hr => ?_, by simp [Spot.address?]⟩
    simpa [or_comm] using hr
  | error fault => exact (gives_follow_ret_error ha).ensures (.refl hs)

/-- Only a taken call gets at the call stack, and only taken calls and returns at its pointer. -/
theorem confined_executeJump [Device δ] (op : JumpOp) (i : Instruction) :
    Ensures core (executeJump op i) fun _ core' =>
      core.Confined (core.profile.registers.instructionPointer ::
          (Operation.jump op).changes core.profile.registers core.predicate i)
        ((Operation.jump op).reach core.predicate) core' := by
  refine ensures_executeJump ?_
  by_cases hc : op.calls core.predicate = true
  · obtain ⟨address, hflow⟩ := flow_of_calls hc i
    rw [hflow]
    refine (confined_follow_call hs hw address).mono fun _ core' h => ?_
    refine h.mono (by simp [Operation.changes, hc]) fun region => ?_
    cases region <;> simp [Operation.reach, Region.single, hc]
  rw [Bool.not_eq_true] at hc
  by_cases hr : op = .ret
  · subst hr
    rw [flow_ret]
    refine (confined_follow_ret hs hw).mono fun _ core' h => ?_
    exact h.mono (by simp [Operation.changes]) fun region => Nat.zero_le _
  · have hjumped (address : Word) : core.Confined (core.profile.registers.instructionPointer ::
        (Operation.jump op).changes core.profile.registers core.predicate i)
        ((Operation.jump op).reach core.predicate) (core.jumped address) :=
      (confined_jumped hs hw address).mono (by simp) fun region => Nat.zero_le _
    rcases flow_of_not_calls hc hr i with hflow | ⟨address, hflow⟩
    · rw [hflow]
      exact (gives_follow_next hs.mask_eq hw).ensures (hjumped _)
    · rw [hflow]
      exact (gives_follow_goto hs.mask_eq hw address).ensures (hjumped address)

/-- **An instruction changes what its operation allows and no more**, also if it faults. -/
theorem confined_execute [Device δ] {i : Instruction} {op : Operation}
    (hi : i.operation = .ok op) :
    Ensures core (execute .standard i) fun _ core' =>
      core.Confined (core.profile.registers.instructionPointer ::
          op.changes core.profile.registers core.predicate i) (op.reach core.predicate) core' := by
  have hweaken {writes : List UInt8} {x : Exec (Core δ) Unit}
      (hx : Ensures core x fun _ core' => core.Confined writes 0 core')
      (hsub : writes ⊆ op.changes core.profile.registers core.predicate i) :
      Ensures core x fun _ core' =>
        core.Confined (core.profile.registers.instructionPointer ::
          op.changes core.profile.registers core.predicate i) (op.reach core.predicate) core' :=
    hx.mono fun _ _ h =>
      h.mono (List.subset_cons_of_subset _ hsub) fun region => Nat.zero_le _
  rw [execute_eq hi]
  cases op with
  | arithmetic op => exact hweaken (confined_executeArithmetic hs op i) (List.Subset.refl _)
  | move op =>
    refine (confined_executeTransfer hs hw (.ofMove i op)).mono fun _ core' h => ?_
    rw [Transfer.writes_ofMove, Transfer.reach_ofMove core.predicate] at h
    exact h.mono (List.subset_cons_self _ _) fun region => Nat.le_refl _
  | jump op => exact confined_executeJump hs hw op i
  | compare op => exact hweaken (confined_executeCompare hs op i) (List.Subset.refl _)
  | misc op => exact hweaken (confined_systemCall hs i.dest i) (List.Subset.refl _)

end

/-! ## Steps -/

/-- The registers that the upcoming step may change. -/
def mayWrite (core : Core δ) : List UInt8 :=
  match core.upcoming? with
  | some (i, op) => core.profile.registers.instructionPointer ::
      op.changes core.profile.registers (core.register core.profile.registers.predicate != 0) i
  | none => []

/-- The number of cells of a region that the upcoming step may change. -/
def mayReach (core : Core δ) (region : Region) : ℕ :=
  match core.upcoming? with
  | some (_, op) => op.reach (core.register core.profile.registers.predicate != 0) region
  | none => 0

/-- A core has changed from another only in what the step upcoming there may change. -/
structure WithinWriteSet (core core' : Core δ) : Prop where
  code_eq : core'.memory.code = core.memory.code
  cells : ∀ region, ∃ addresses : List Word, addresses.length ≤ core.mayReach region ∧
    ∀ address, address ∉ addresses → core'.loadCell region address = core.loadCell region address
  registers : ∀ r, core'.register r ≠ core.register r → r ∈ core.mayWrite

theorem Confined.withinWriteSet (h : core.Confined core.mayWrite core.mayReach core') :
    core.WithinWriteSet core' := by
  obtain ⟨spots, h, hwrites, hreach⟩ := h
  refine ⟨h.code_eq, fun region => ⟨_, hreach region, fun address ha => ?_⟩, fun r hr => ?_⟩
  · refine h.look_eq (.cell region address) fun hmem => ha ?_
    exact List.mem_filterMap.2 ⟨_, hmem, if_pos rfl⟩
  · by_contra hnot
    have hlook := h.look_eq (.register r) fun hmem => hnot (hwrites r hmem)
    exact hr (Except.ok.inj hlook)

/-- The core at the end of an instruction: the instruction pointer may move on. -/
theorem confined_retired (hs : core.Sound) (hw : core.profile.Writable) (address : Word) :
    core.Confined [core.profile.registers.instructionPointer] 0 (core.retired address) := by
  rw [retired]
  split_ifs
  · have hput := touched_put hs hw.instructionPointer (address + 1)
    exact hput.confined_register.trans_touched (.of_same hput.sound rfl rfl rfl)
  · exact .of_touched (.of_same hs rfl rfl rfl)

/-- **A step changes what its operation allows and no more**, also if it faults. -/
theorem confined_step [Device δ] (hs : core.Sound) (hw : core.profile.Writable) :
    Ensures core (step .standard) fun _ core' =>
      core.Confined core.mayWrite core.mayReach core' := by
  have hx {i : Instruction} (log : Log) (hr : core.status = .running)
      (hi : core.nextInstruction = .ok i) :
      core.Confined core.mayWrite core.mayReach ((execute .standard i).final core log) ∧
        ((execute .standard i).result core log = .ok () →
          core.profile.registers.instructionPointer ∈ core.mayWrite) := by
    cases hop : i.operation with
    | ok op =>
      have hu : core.upcoming? = some (i, op) := upcoming?_eq_some_iff.2 ⟨hr, hi, hop⟩
      have h := confined_execute hs hw hop log
      unfold mayWrite mayReach
      rw [hu]
      exact ⟨h, fun _ => List.mem_cons_self⟩
    | error fault =>
      have hx : Gives core (execute .standard i) (.error fault) core :=
        gives_execute_error core hop
      rw [hx.final_eq log, hx.result_eq log]
      exact ⟨.refl hs, by rintro ⟨⟩⟩
  refine (stepped hs hw).mono fun o core' hstep => ?_
  cases hstep with
  | stopped _ => exact .refl hs
  | unfetched _ _ => exact .of_touched (.of_same hs rfl rfl rfl)
  | @failed _ i log hr hi _ =>
    have h := (hx log hr hi).1
    exact h.trans_touched (.of_same h.sound rfl rfl rfl)
  | @retired i log hr hi hok =>
    obtain ⟨h, hip⟩ := hx log hr hi
    have hend := h.trans (confined_retired h.sound (h.profile_eq ▸ hw) core.instructionPointer)
    refine hend.mono ?_ fun region => le_of_eq (Nat.add_zero _)
    rw [h.profile_eq]
    simpa using hip hok

/-! ## Runs -/

/-- **A run changes nothing but what its steps may change.** Code stays as it is throughout, and
    every step, whether it faults or not, changes registers and cells only within the write set of
    the operation that it carries out. -/
theorem writes_confined [Device δ] (start : Core δ) (log : Log) (hs : start.Sound)
    (hw : start.profile.WellFormed) (n : ℕ) :
    (start.after log n).memory.code = start.memory.code ∧
      (start.after log n).WithinWriteSet (start.after log (n + 1)) := by
  have hinv (n : ℕ) : (start.after log n).profile = start.profile ∧ (start.after log n).Sound :=
    Keeps.iterate ((invariant_sound start.profile).keeps_step hw.writable) ⟨rfl, hs⟩ log n
  have hstep (n : ℕ) : (start.after log n).WithinWriteSet (start.after log (n + 1)) := by
    obtain ⟨hp, hsound⟩ := hinv n
    have h := confined_step hsound (hp ▸ hw.writable)
    exact (h _).withinWriteSet
  refine ⟨?_, hstep n⟩
  induction n with
  | zero => rfl
  | succ n ih => exact (hstep n).code_eq.trans ih

/-- A core that is about to swap two data cells and then to swap a register with an address that it
does not have. -/
def exchanging : Core Empty :=
  codePart.set ⟨.code, #[(Instruction.move .swapMemMem 8 9).encode,
      (Instruction.move .swapRegMem 8 10).encode, 0, 0]⟩
    (dataPart.set ⟨.data, #[0, 5, 6, 0]⟩
      ((((powerOn .small .empty default).put 8 1).put 9 2).put 10 70))

theorem writes_confined_exchanging :
    let log := Log.ofLevel none
    (exchanging.after log 2).memory.data.cells = #[0, 6, 5, 0] ∧
      (exchanging.after log 2).status = .faulted ∧
      (exchanging.after log 0).mayReach .data = 2 ∧
      (exchanging.after log 0).WithinWriteSet (exchanging.after log 1) ∧
      (exchanging.after log 1).mayWrite = [2, 8] ∧
      (exchanging.after log 1).WithinWriteSet (exchanging.after log 2) := by
  intro log
  have hw : Profile.small.WellFormed := by decide
  have hs : exchanging.Sound :=
    (((RegisterFile.sound_powerOn hw.writable).put (by decide) (by decide)).put
      (by decide) (by decide)).put (by decide) (by decide)
  exact ⟨by decide +kernel, by decide +kernel, by decide +kernel,
    (writes_confined exchanging log hs hw 0).2, by decide +kernel,
    (writes_confined exchanging log hs hw 1).2⟩

end Core

end RegisterMachine
