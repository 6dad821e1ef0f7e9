import RegisterMachine.Proofs.Core.WriteSet

/-!
# Swaps

A swap reads its two places and then writes them, and looks up where each place is every time. It
exchanges them unless its first write moves the second place, which takes a register that is
swapped with what it points to.

* `Core.spot`: where the word of a place is.
* `Core.Exchanged`: two words have changed places.
* `Core.exchanged_iff`: the two writes of a swap exchange the places if the second stays where it
  is.
* `Core.spot_halfway_iff`: when it does.
* `Core.swap_exchanges_iff`: which swaps exchange their places.
-/

namespace RegisterMachine

/-- The register that points to a place. -/
def Place.pointer? : Place → Option UInt8
  | memory r | microcode r => some r
  | _ => none

namespace Core

open Exec

variable {δ : Type} {core core' : Core δ} {a b p : Place}

/-! ## Spots of places -/

/-- Where the word of a place is. -/
def spot (core : Core δ) : Place → Spot
  | .register r => .register r
  | .memory r => .cell .data (core.register r)
  | .memoryAt address => .cell .data address.toUInt64
  | .microcode r => .cell .microcode (core.register r)

theorem look_spot_iff (h : core.Takes (core.cell p)) {value : Word} :
    core.look (core.spot p) = .ok value ↔ core.Holds value (core.cell p) := by
  have hdata {address : Word} (h : core.Takes (core.cellAt address)) :
      core.look (.cell .data address) = .ok value ↔ core.Holds value (core.cellAt address) := by
    rw [cellAt, if_pos (takes_cellAt.1 h)]
    rfl
  cases p with
  | register r => simp [look, spot, cell, Holds]
  | microcode r => rfl
  | memory r | memoryAt address => exact hdata h

/-- A cell that is filled holds what it is filled with. -/
theorem look_fill_self (h : core.Takes (core.cell p)) (value : Word) :
    (core.fill value (core.cell p)).look (core.spot p) = .ok value := by
  have hdata {address : Word} (h : core.Takes (core.cellAt address)) :
      (core.fill value (core.cellAt address)).look (.cell .data address) = .ok value := by
    have hm := takes_cellAt.1 h
    rw [cellAt, if_pos hm]
    exact Segment.load_put_self (inMemory_iff.1 hm) value
  cases p with
  | register r => exact congrArg Except.ok (register_put_self core r value)
  | microcode r => exact Segment.load_put_self h value
  | memory r | memoryAt address => exact hdata h

/-- Every other word is as it was. -/
theorem look_fill_of_ne (h : core.Takes (core.cell p)) {s : Spot} (hne : s ≠ core.spot p)
    (value : Word) : (core.fill value (core.cell p)).look s = core.look s := by
  have hdata {address : Word} (h : core.Takes (core.cellAt address))
      (hne : s ≠ .cell .data address) :
      (core.fill value (core.cellAt address)).look s = core.look s := by
    rw [cellAt, if_pos (takes_cellAt.1 h)]
    exact look_poke_of_ne hne value
  cases p with
  | register r => exact look_put_of_ne hne value
  | microcode r => exact look_poke_of_ne hne value
  | memory r | memoryAt address => exact hdata h hne

/-- A word in a bounded memory or in a register that takes words fits the word width. It does not
matter at which point of a swap the place takes them. -/
theorem mask_of_look (hregisters : ∀ r, 1 < r → core.register r ≤ core.profile.wordMask)
    (hm : core.memory.Bounded core.profile.wordMask) (ht : core'.Takes (core'.cell p))
    {value : Word} (hv : core.look (core.spot p) = .ok value) :
    core.profile.mask value = value := by
  cases p with
  | register r =>
    cases hv
    exact Profile.mask_of_le (hregisters r ht)
  | memory r | memoryAt address => exact Profile.mask_of_le (hm.data.le_of_load hv)
  | microcode r => exact Profile.mask_of_le (hm.microcode.le_of_load hv)

/-! ## Exchanges -/

/-- The words of two spots have changed places, and every other word is as it was. -/
structure Exchanged (core : Core δ) (s t : Spot) (core' : Core δ) : Prop where
  left : core'.look s = core.look t
  right : core'.look t = core.look s
  look_eq : ∀ spot, spot ≠ s → spot ≠ t → core'.look spot = core.look spot

/-- The core after the first write of a swap. -/
def halfway (core : Core δ) (a : Place) (second : Word) : Core δ :=
  core.fill (core.profile.mask second) (core.cell a)

/-- The core after both writes of a swap. -/
def crossed (core : Core δ) (a b : Place) (first second : Word) : Core δ :=
  (core.halfway a second).fill (core.profile.mask first) ((core.halfway a second).cell b)

theorem mask_halfway (h : core.registers.mask = core.profile.wordMask) (second : Word) :
    (core.halfway a second).registers.mask = (core.halfway a second).profile.wordMask := by
  rw [halfway]
  cases core.cell a <;> exact h

section
variable {first second : Word} {s : Spot}

theorem look_halfway_of_ne (ha : core.Takes (core.cell a)) (hne : s ≠ core.spot a) :
    (core.halfway a second).look s = core.look s :=
  look_fill_of_ne ha hne _

theorem look_crossed_of_ne (hb : (core.halfway a second).Takes ((core.halfway a second).cell b))
    (hne : s ≠ (core.halfway a second).spot b) :
    (core.crossed a b first second).look s = (core.halfway a second).look s :=
  look_fill_of_ne hb hne _

variable (hregisters : ∀ r, 1 < r → core.register r ≤ core.profile.wordMask)
  (hm : core.memory.Bounded core.profile.wordMask)
  (ha : core.Takes (core.cell a))
  (hb : (core.halfway a second).Takes ((core.halfway a second).cell b))
  (hfirst : core.look (core.spot a) = .ok first) (hsecond : core.look (core.spot b) = .ok second)
include hregisters hm ha hb hfirst

/-- The second write goes to where the second place is by then. -/
theorem look_crossed :
    (core.crossed a b first second).look ((core.halfway a second).spot b) = .ok first := by
  rw [crossed, look_fill_self hb, mask_of_look hregisters hm ha hfirst]

include hsecond

/-- The places are exchanged if the second stays where it is while the first is written. -/
theorem exchanged_iff : core.Exchanged (core.spot a) (core.spot b) (core.crossed a b first second) ↔
    (core.halfway a second).spot b = core.spot b := by
  constructor
  · intro h
    by_contra hne
    -- nothing was written where `b` was, unless by the first write
    have hkept : core.look (core.spot b) = core.look (core.spot a) := by
      by_cases hab : core.spot b = core.spot a
      · rw [hab]
      · rw [← h.right, look_crossed_of_ne hb (Ne.symm hne), look_halfway_of_ne ha hab]
    have hsame : second = first := by
      rw [hfirst, hsecond] at hkept
      exact Except.ok.inj hkept
    have hback : core.halfway a second = core := by
      rw [halfway, hsame, mask_of_look hregisters hm ha hfirst]
      exact fill_of_holds ((look_spot_iff ha).1 hfirst)
    exact hne (by rw [hback])
  · intro hstay
    have hright := look_crossed hregisters hm ha hb hfirst
    rw [hstay] at hright
    refine ⟨?_, hright.trans hfirst.symm, fun spot hne hne' => ?_⟩
    · by_cases hab : core.spot a = core.spot b
      · rw [hab, hright, ← hfirst, hab]
      · rw [look_crossed_of_ne hb (hstay ▸ hab), hsecond]
        have hmask := mask_of_look hregisters hm hb hsecond
        exact (look_fill_self ha _).trans (congrArg Except.ok hmask)
    · rw [look_crossed_of_ne hb (hstay ▸ hne'), look_halfway_of_ne ha hne]

end

theorem register_halfway_of_ne {q : UInt8} (h : a ≠ .register q) (second : Word) :
    (core.halfway a second).register q = core.register q := by
  rw [halfway]
  cases hcell : core.cell a with
  | register r =>
    have hne : q ≠ r := by
      rintro rfl
      exact h (eq_register_of_cell hcell)
    exact register_put_of_ne hne _
  | data address | device address | microcode address => rfl

/-- The first write of a swap moves the second place if that is what the first points to. -/
theorem spot_halfway_iff {second : Word} (hmask : core.profile.mask second = second) :
    (core.halfway a second).spot b = core.spot b ↔
      ∀ r, a = .register r → b.pointer? = some r → second = core.register r := by
  have hpointed {q : UInt8} (f : Word → Spot) (hf : Function.Injective f)
      (hb : b.pointer? = some q) :
      f ((core.halfway a second).register q) = f (core.register q) ↔
        ∀ r, a = .register r → b.pointer? = some r → second = core.register r := by
    rw [hf.eq_iff]
    by_cases ha : a = .register q
    · have hput : (core.halfway a second).register q = second := by
        rw [halfway, ha, hmask]
        exact register_put_self core q second
      rw [hput]
      refine ⟨?_, fun h => h q ha hb⟩
      rintro h r hr -
      cases ha.symm.trans hr
      exact h
    · refine iff_of_true (register_halfway_of_ne ha second) ?_
      rintro r rfl hr
      cases hb.symm.trans hr
      exact absurd rfl ha
  cases b with
  | register q | memoryAt address => exact iff_of_true rfl (by rintro r - ⟨⟩)
  | memory q => exact hpointed (.cell .data) (fun _ _ h => by cases h; rfl) rfl
  | microcode q => exact hpointed (.cell .microcode) (fun _ _ h => by cases h; rfl) rfl

/-! ## Swaps without devices -/

section
variable [Device δ] (hd : core.devices.slots = [])
include hd

theorem ensures_readPlace_of_empty (p : Place) :
    Ensures core (readPlace p) fun o core' =>
      core' = core ∧ ∀ value, o = .ok value → core.look (core.spot p) = .ok value := by
  have hdata (address : Word) : Ensures core (loadData address) fun o core' =>
      core' = core ∧ ∀ value, o = .ok value → core.look (.cell .data address) = .ok value := by
    by_cases hm : core.inMemory address = true
    · obtain ⟨value, hv⟩ := Segment.exists_load (inMemory_iff.1 hm)
      refine (gives_loadData hv).ensures ⟨rfl, ?_⟩
      rintro _ ⟨⟩
      exact hv
    · refine (gives_loadData_of_empty hd hm).ensures ⟨rfl, ?_⟩
      rintro _ ⟨⟩
  cases p with
  | register r => exact (gives_get core).bind ((gives_pure core _).ensures ⟨rfl, fun _ h => h⟩)
  | memory r => exact (gives_get core).bind (hdata _)
  | memoryAt address => exact hdata _
  | microcode r => exact (gives_get core).bind ((gives_lift core _).ensures ⟨rfl, fun _ h => h⟩)

/-- A write to a cell that takes no words faults. -/
theorem ensures_writePlace_of_empty (h : ¬core.Takes (core.cell p)) (value : Word) :
    Ensures core (writePlace p value) fun o _ => o ≠ .ok () := by
  have hdata {address : Word} (h : ¬core.Takes (core.cellAt address)) :
      Ensures core (storeData address value) fun o _ => o ≠ .ok () :=
    (gives_storeData_of_empty hd (mt takes_cellAt.2 h) value).ensures (by rintro ⟨⟩)
  cases p with
  | register r =>
    exact (gives_setRegister_protected (UInt8.not_lt.1 h) value).ensures (by rintro ⟨⟩)
  | memory r => exact (gives_get core).bind (hdata h)
  | memoryAt address => exact hdata h
  | microcode r =>
    refine (gives_get core).bind ((gives_get core).bind ?_)
    exact ((Segment.gives_store_outside h _).onPart).ensures (by rintro ⟨⟩)

omit [Device δ] in
theorem slots_halfway (a : Place) (second : Word) :
    (core.halfway a second).devices.slots = [] := by
  rw [halfway]
  cases core.cell a <;> exact hd

/-- A swap that does not fault has read both places and written both. -/
theorem ensures_swap (hmask : core.registers.mask = core.profile.wordMask) (a b : Place) :
    Ensures core (executeTransfer (.swap a b)) fun o core' => o = .ok () →
      ∃ first second, core.look (core.spot a) = .ok first ∧ core.look (core.spot b) = .ok second ∧
        core.Takes (core.cell a) ∧
        (core.halfway a second).Takes ((core.halfway a second).cell b) ∧
        core' = core.crossed a b first second := by
  refine (ensures_readPlace_of_empty hd a).bind ?_ fun _ _ _ => by rintro ⟨⟩
  rintro first _ ⟨rfl, hfirst⟩
  refine (ensures_readPlace_of_empty hd b).bind ?_ fun _ _ _ => by rintro ⟨⟩
  rintro second core ⟨rfl, hsecond⟩
  by_cases ha : core.Takes (core.cell a)
  · refine (gives_writePlace hmask ha second).bind ?_
    change Ensures (core.halfway a second) _ _
    by_cases hb : (core.halfway a second).Takes ((core.halfway a second).cell b)
    · have hwrite := gives_writePlace (mask_halfway hmask second) hb first
      have hprofile : (core.halfway a second).profile = core.profile := fill_profile _ _ _
      rw [hprofile] at hwrite
      refine hwrite.tryCatch ?_ ?_
      · rintro _ _ ⟨-, rfl⟩ -
        exact ⟨first, second, hfirst _ rfl, hsecond _ rfl, ha, hb, rfl⟩
      · rintro fault _ ⟨⟨⟩, -⟩
    · refine (ensures_writePlace_of_empty (slots_halfway hd a second) hb first).tryCatch ?_ ?_
      · exact fun _ _ hne => absurd rfl hne
      · intro fault core' _
        refine Ensures.bind (Q := fun _ _ => True) (fun _ => trivial) ?_ ?_
        · exact fun _ core'' _ => (gives_throw core'' fault).ensures (by rintro ⟨⟩)
        · rintro _ _ - ⟨⟩
  · refine (ensures_writePlace_of_empty hd ha second).bind ?_ ?_
    · exact fun _ _ hne => absurd rfl hne
    · rintro _ _ - ⟨⟩

end

/-- **A swap exchanges its places, unless it swaps a register with what that points to.** Even then
    it does if the register and the cell hold the same; otherwise the register gets the word of the
    cell, and what it held goes where that word points to. -/
theorem swap_exchanges_iff [Device δ] {calls : SystemCallTable δ} {i : Instruction} {op : MoveOp}
    (hi : i.operation = .ok (.move op)) {a b : Place} (hop : Transfer.ofMove i op = .swap a b)
    (hmask : core.registers.mask = core.profile.wordMask)
    (hregisters : ∀ r, 1 < r → core.register r ≤ core.profile.wordMask)
    (hm : core.memory.Bounded core.profile.wordMask)
    (hd : core.devices.slots = []) (log : Log)
    (hx : (execute calls i).result core log = .ok ()) :
    (core.Exchanged (core.spot a) (core.spot b) ((execute calls i).final core log) ↔
      (op = .swapRegMem → i.dest = i.src0 →
        core.memory.data.load (core.register i.dest) = .ok (core.register i.dest))) ∧
    (op = .swapRegMem → i.dest = i.src0 → ∀ value,
      core.memory.data.load (core.register i.dest) = .ok value →
        ((execute calls i).final core log).register i.dest = value ∧
        ((execute calls i).final core log).memory.data.load value =
          .ok (core.register i.dest)) := by
  have hexecute : execute calls i = executeTransfer (.swap a b) := by
    rw [execute_eq hi]
    exact congrArg executeTransfer hop
  obtain ⟨first, second, hfirst, hsecond, ha, hb, hfinal⟩ :=
    ensures_swap hd hmask a b log (hexecute ▸ hx)
  have hfits := mask_of_look hregisters hm hb hsecond
  rw [hexecute, hfinal, exchanged_iff hregisters hm ha hb hfirst hsecond, spot_halfway_iff hfits]
  cases op with
  | swapRegMem =>
    cases hop
    have hload : core.memory.data.load (core.register i.src0) = .ok second := hsecond
    refine ⟨⟨fun h _ hr => ?_, fun h r hr hq => ?_⟩, fun _ hr value hv => ?_⟩
    · rw [← hr] at hload
      exact hload.trans (congrArg Except.ok (h i.dest rfl (congrArg some hr.symm)))
    · cases hr
      have hr : i.dest = i.src0 := (Option.some.inj hq).symm
      rw [← hr, h rfl hr] at hload
      exact (Except.ok.inj hload).symm
    · rw [← hr, hv] at hload
      cases hload
      cases hfirst
      have hregister : (core.halfway (.register i.dest) second).register i.dest = second :=
        (register_put_self _ _ _).trans hfits
      have hspot : (core.halfway (.register i.dest) second).spot (.memory i.src0) =
          .cell .data second := by
        rw [spot, ← hr, hregister]
      have hcell := look_crossed hregisters hm ha hb rfl
      rw [hspot] at hcell
      have hkept : (core.crossed (.register i.dest) (.memory i.src0) (core.register i.dest)
          second).look (.register i.dest) = _ := look_crossed_of_ne hb (by rintro ⟨⟩)
      exact ⟨(Except.ok.inj hkept).trans hregister, hcell⟩
  | swap | swapMemMem | swapRegAddr | swapMemAddr =>
    cases hop
    exact ⟨iff_of_true (by rintro r ⟨⟩ ⟨⟩) (by rintro ⟨⟩), by rintro ⟨⟩⟩
  | _ => cases hop

/-- A core with registers that point to a cell, which points to another. -/
def crossing : Core Empty :=
  dataPart.set ⟨.data, #[0, 2, 0, 0]⟩
    (((powerOn .small .empty default).put 8 1).put 9 1)

theorem swap_exchanges_crossing :
    let after (r : UInt8) := (execute .standard (Instruction.move .swapRegMem 8 r)).final crossing
      (.ofLevel none)
    crossing.Exchanged (.register 8) (.cell .data 1) (after 9) ∧
      (after 8).register 8 = 2 ∧ (after 8).memory.data.load 2 = .ok (crossing.register 8) := by
  intro after
  have hw : Profile.small.WellFormed := by decide
  have hs : crossing.Sound :=
    ((RegisterFile.sound_powerOn hw.writable).put (by decide) (by decide)).put (by decide)
      (by decide)
  have hregisters (r : UInt8) (hr : 1 < r) : crossing.register r ≤ crossing.profile.wordMask :=
    hs.le_wordMask r hr
  have hz := Memory.bounded_zeroed .small Profile.small.wordMask
  have hdata : ∀ word ∈ ([0, 2, 0, 0] : List Word), word ≤ Profile.small.wordMask := by
    simp only [List.mem_cons, List.not_mem_nil, or_false]
    rintro word (rfl | rfl | rfl | rfl) <;> decide
  have hm : crossing.memory.Bounded crossing.profile.wordMask :=
    ⟨hdata, hz.stack, hz.callStack, hz.microcode⟩
  have hswap (r : UInt8) : Transfer.ofMove (Instruction.move .swapRegMem 8 r) .swapRegMem =
      .swap (.register 8) (.memory r) := rfl
  have hspot : crossing.spot (.memory 9) = .cell .data 1 :=
    congrArg (Spot.cell .data) (by decide +kernel)
  have hx₉ : (execute .standard (Instruction.move .swapRegMem 8 9)).result crossing
      (.ofLevel none) = .ok () := by decide +kernel
  have hx₈ : (execute .standard (Instruction.move .swapRegMem 8 8)).result crossing
      (.ofLevel none) = .ok () := by decide +kernel
  have hapart := (swap_exchanges_iff rfl (hswap 9) hs.mask_eq hregisters hm rfl _ hx₉).1.2
    fun _ hr => absurd hr (by decide)
  have hpointed := (swap_exchanges_iff rfl (hswap 8) hs.mask_eq hregisters hm rfl _ hx₈).2
    rfl rfl 2 (by decide +kernel)
  rw [hspot] at hapart
  exact ⟨hapart, hpointed⟩

/-- Here the cell does not get what the register held. -/
theorem not_exchanged_crossing :
    let log := Log.ofLevel none
    let i := Instruction.move .swapRegMem 8 8
    (execute .standard i).result crossing log = .ok () ∧
      ((execute .standard i).final crossing log).memory.data.cells = #[0, 2, 1, 0] ∧
      crossing.register 8 = 1 ∧
      ¬crossing.Exchanged (.register 8) (.cell .data 1)
        ((execute .standard i).final crossing log) := by
  intro log i
  have hcell : ((execute .standard i).final crossing log).memory.data.load 1 ≠
      .ok (crossing.register 8) := by decide +kernel
  exact ⟨by decide +kernel, by decide +kernel, by decide +kernel, fun h => hcell h.right⟩

end Core

end RegisterMachine
