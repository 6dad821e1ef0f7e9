import RegisterMachine.Core.Basic
import RegisterMachine.Device.Probe
import RegisterMachine.Proofs.Exec
import RegisterMachine.Proofs.Layout

/-!
# No two devices answer an address

The registry takes a device just if its range is not empty and shares no address with that of a
device it has. Hence at most one device answers an address, and the order in which devices were
added decides nothing: not whether a core can be built, nor where an access goes.

* `AddressRange.Apart`: ranges that are not empty and share no address.
* `Registry.gives_register`, `Registry.gives_register_refused`, `Registry.refuses_iff`: what becomes
  of a device that is to be registered.
* `Registry.keeps_registerAll`: the ranges in a registry are apart.
* `Registry.Serves`, `Registry.Deserts`: the device that answers an address, and there being none.
* `Registry.UsedAlike.reordered`: registries with the same devices have them after every use.
* `Core.build_isOk_iff`: which devices a core can be built with.
* `Core.devices_apart`: what all this says of devices that are added in different orders.
-/

namespace RegisterMachine

open Exec

namespace AddressRange

/-- Two ranges share no address. -/
def Disjoint (a b : AddressRange) : Prop :=
  ¬∃ address, address ∈ a ∧ address ∈ b

theorem Disjoint.symm {a b : AddressRange} (h : a.Disjoint b) : b.Disjoint a :=
  fun ⟨address, hb, ha⟩ => h ⟨address, ha, hb⟩

/-- No range is empty, and no two share an address. -/
structure Apart (ranges : List AddressRange) : Prop where
  first_le_last : ∀ range ∈ ranges, range.first ≤ range.last
  disjoint : ranges.Pairwise Disjoint

theorem isEmpty_eq_false_iff {range : AddressRange} :
    range.isEmpty = false ↔ range.first ≤ range.last := by
  rw [isEmpty, decide_eq_false_iff_not, UInt64.not_lt]

namespace Apart
variable {ranges : List AddressRange} {range : AddressRange}

theorem nil : Apart [] := ⟨by simp, .nil⟩

theorem perm {ranges' : List AddressRange} (h : Apart ranges) (hp : ranges.Perm ranges') :
    Apart ranges' where
  first_le_last range hr := h.first_le_last range (hp.mem_iff.2 hr)
  disjoint := (hp.pairwise_iff Disjoint.symm).1 h.disjoint

theorem of_append {ranges' : List AddressRange} (h : Apart (ranges ++ ranges')) : Apart ranges where
  first_le_last range hr := h.first_le_last range (List.mem_append_left _ hr)
  disjoint := (List.pairwise_append.1 h.disjoint).1

theorem concat_iff : Apart (ranges ++ [range]) ↔
    Apart ranges ∧ range.first ≤ range.last ∧ ∀ claimed ∈ ranges, claimed.Disjoint range := by
  constructor
  · rintro ⟨hne, hd⟩
    rw [List.pairwise_append] at hd
    exact ⟨⟨fun r hr => hne r (List.mem_append_left _ hr), hd.1⟩,
      hne range (List.mem_append_right _ List.mem_cons_self),
      fun claimed hc => hd.2.2 claimed hc range List.mem_cons_self⟩
  · rintro ⟨h, hne, hd⟩
    refine ⟨fun r hr => ?_, List.pairwise_append.2 ⟨h.disjoint, List.pairwise_singleton _ _, ?_⟩⟩
    · rcases List.mem_append.1 hr with hr | hr
      · exact h.first_le_last r hr
      · rwa [List.mem_singleton.1 hr]
    · intro claimed hc r hr
      rw [List.mem_singleton.1 hr]
      exact hd claimed hc

end Apart

end AddressRange

namespace Registry

variable {δ α : Type} {registry : Registry δ}

/-! ## Registration -/

/-- The ranges that are claimed. -/
def ranges (registry : Registry δ) : List AddressRange :=
  registry.slots.map Slot.range

/-- The registry with more devices at the end. -/
def extend [Device δ] (registry : Registry δ) (devices : List δ) : Registry δ :=
  { registry with
    slots := registry.slots ++ devices.map fun device => ⟨Device.range device, device⟩ }

@[simp] theorem ranges_extend [Device δ] (registry : Registry δ) (devices : List δ) :
    (registry.extend devices).ranges = registry.ranges ++ devices.map Device.range := by
  simp [ranges, extend, Function.comp_def]

@[simp] theorem extend_extend [Device δ] (registry : Registry δ) (devices devices' : List δ) :
    (registry.extend devices).extend devices' = registry.extend (devices ++ devices') := by
  simp [extend]

/-- The test that the registry makes is right for ranges that are apart. -/
theorem accepts_iff (h : AddressRange.Apart registry.ranges) (range : AddressRange) :
    registry.accepts range = true ↔
      range.first ≤ range.last ∧ ∀ claimed ∈ registry.ranges, claimed.Disjoint range := by
  rw [accepts, Bool.and_eq_true, Bool.not_eq_true', Bool.not_eq_true', List.any_eq_false,
    AddressRange.isEmpty_eq_false_iff, ranges, List.forall_mem_map]
  refine and_congr_right fun hrange => forall₂_congr fun slot hslot => not_congr ?_
  have hclaimed : slot.range.first ≤ slot.range.last :=
    h.first_le_last slot.range (List.mem_map_of_mem hslot)
  exact AddressRange.overlaps_iff (AddressRange.isEmpty_eq_false_iff.2 hclaimed)
    (AddressRange.isEmpty_eq_false_iff.2 hrange)

/-- A range that has no address, or an address that is claimed already. -/
def Refuses (registry : Registry δ) (range : AddressRange) : Prop :=
  range.last < range.first ∨ ∃ slot ∈ registry.slots, ∃ address, address ∈ slot.range ∧
    address ∈ range

theorem refuses_iff (h : AddressRange.Apart registry.ranges) (range : AddressRange) :
    registry.Refuses range ↔ ¬registry.accepts range = true := by
  rw [accepts_iff h, not_and_or, UInt64.not_le, Refuses, ranges, List.forall_mem_map]
  simp only [AddressRange.Disjoint, not_forall, not_not, exists_prop]

section
variable [Device δ] {device : δ}

theorem gives_register (h : registry.accepts (Device.range device) = true) :
    Gives registry (register device) (.ok ()) (registry.extend [device]) := by
  refine (gives_get registry).bind ?_
  rw [if_pos h]
  exact (gives_note registry _ _).bind (gives_modify registry _)

theorem gives_register_refused (h : ¬registry.accepts (Device.range device) = true) :
    Gives registry (register device)
      (.error (.overlappingDevice (Device.range device).first (Device.range device).last))
      registry := by
  refine (gives_get registry).bind ?_
  rw [if_neg h]
  exact gives_throw registry _

theorem keeps_register (device : δ) :
    Keeps (fun registry : Registry δ => AddressRange.Apart registry.ranges) (register device) := by
  intro registry log h
  by_cases ha : registry.accepts (Device.range device) = true
  · rw [(gives_register ha).final_eq log, ranges_extend, List.map_singleton,
      AddressRange.Apart.concat_iff]
    exact ⟨h, (accepts_iff h _).1 ha⟩
  · rw [(gives_register_refused ha).final_eq log]
    exact h

/-- Registers devices one after another, whichever are refused. -/
def registerAll (devices : List δ) : Exec (Registry δ) Unit :=
  devices.forM fun device => do
    let _ ← attempt (register device)

theorem keeps_registerAll (devices : List δ) :
    Keeps (fun registry : Registry δ => AddressRange.Apart registry.ranges) (registerAll devices) :=
  Keeps.forM (fun device => (keeps_register device).attempt.bind fun _ => Keeps.pure _) devices

end

/-! ## Accesses -/

/-- An access at an address that no device has. -/
def Unmapped (registry : Registry δ) (x : Exec (Registry δ) α) (address : Word) : Prop :=
  Gives registry x (.error (.unmappedAddress address)) registry

/-- The device in a slot carries out an access: it answers and logs as the device would alone, and
changes no other device. -/
structure Routes (registry : Registry δ) (slot : Slot δ) (access : Access)
    (x : Exec (Registry δ) α) (y : Exec δ α) : Prop where
  mem : slot ∈ registry.slots
  result_eq : ∀ log, x.result registry log = y.result slot.device log
  logged_eq : ∀ log, x.logged registry log = y.logged slot.device log
  final_eq : ∃ before after, registry.slots = before ++ slot :: after ∧ ∀ log,
    x.final registry log =
      ⟨before ++ { slot with device := y.final slot.device log } :: after,
        registry.accesses.push (slot.range, access)⟩

/-- What the device in a slot does is what the registry does. -/
theorem Routes.gives {slot : Slot δ} {access : Access} {x : Exec (Registry δ) α} {y : Exec δ α}
    {o : Except Fault α} {device : δ} (h : registry.Routes slot access x y)
    (hy : Gives slot.device y o device) :
    ∃ before after, registry.slots = before ++ slot :: after ∧
      Gives registry x o ⟨before ++ { slot with device } :: after,
        registry.accesses.push (slot.range, access)⟩ := by
  obtain ⟨before, after, hslots, hfinal⟩ := h.final_eq
  refine ⟨before, after, hslots, fun log => ⟨?_, ?_⟩⟩
  · rw [h.result_eq log, hy.result_eq log]
  · rw [hfinal log, hy.final_eq log]

section
variable (access : Access) (y : Exec δ α) (address : Word)
  (accesses : Array (AddressRange × Access)) (log : Log)

theorem route_unmapped {slots : List (Slot δ)} (h : ∀ slot ∈ slots, address ∉ slot.range) :
    route address access y accesses slots log =
      ((.error (.unmappedAddress address), ⟨slots, accesses⟩), log) := by
  induction slots with
  | nil => rfl
  | cons slot rest ih =>
    have hslot : slot.range.contains address = false :=
      Bool.eq_false_iff.2 (h slot List.mem_cons_self)
    rw [route, hslot, ih fun s hs => h s (List.mem_cons_of_mem _ hs)]
    rfl

/-- The first device that answers the address carries out the access. -/
theorem route_append {before after : List (Slot δ)} {slot : Slot δ}
    (hb : ∀ s ∈ before, address ∉ s.range) (hs : address ∈ slot.range) :
    route address access y accesses (before ++ slot :: after) log =
      ((y.result slot.device log,
        ⟨before ++ { slot with device := y.final slot.device log } :: after,
          accesses.push (slot.range, access)⟩), y.logged slot.device log) := by
  induction before with
  | nil =>
    have hs : slot.range.contains address = true := hs
    rw [List.nil_append, route, if_pos hs]
    rfl
  | cons s before ih =>
    have hout : s.range.contains address = false :=
      Bool.eq_false_iff.2 (hb s List.mem_cons_self)
    rw [List.cons_append, route, hout, ih fun s hs => hb s (List.mem_cons_of_mem _ hs)]
    rfl

end

section
variable {access : Access} {address : Word} {x : Exec (Registry δ) α} {y : Exec δ α}
  (h : AddressRange.Apart registry.ranges)
  (hx : ∀ registry log, x.run registry log =
    route address access y registry.accesses registry.slots log)
include hx

theorem unmapped_of_route (hout : ∀ slot ∈ registry.slots, address ∉ slot.range) :
    registry.Unmapped x address := by
  intro log
  rw [result, final, hx, route_unmapped access y address _ log hout]
  exact ⟨rfl, rfl⟩

include h

theorem routes_of_route {slot : Slot δ} (hm : slot ∈ registry.slots) (ha : address ∈ slot.range) :
    registry.Routes slot access x y := by
  obtain ⟨before, after, hslots⟩ := List.append_of_mem hm
  have hdisjoint := h.disjoint
  rw [ranges, hslots, List.map_append, List.map_cons, List.pairwise_append] at hdisjoint
  have hbefore : ∀ s ∈ before, address ∉ s.range := fun s hs haddress =>
    hdisjoint.2.2 s.range (List.mem_map_of_mem hs) slot.range List.mem_cons_self
      ⟨address, haddress, ha⟩
  refine ⟨hm, fun log => ?_, fun log => ?_, before, after, hslots, fun log => ?_⟩
  · rw [result, hx, hslots, route_append access y address _ log hbefore ha]
  · rw [logged, hx, hslots, route_append access y address _ log hbefore ha]
  · rw [final, hx, hslots, route_append access y address _ log hbefore ha]

end

section
variable [Device δ] {address : Word}

/-- The device in a slot carries out the loads and the stores at an address. -/
structure Serves (registry : Registry δ) (address : Word) (slot : Slot δ) : Prop where
  mem_range : address ∈ slot.range
  load : registry.Routes slot (.load address) (load address) (Device.load address)
  store : ∀ value, registry.Routes slot (.store address value) (store address value)
    (Device.store address value)

/-- Neither loads nor stores at an address have a device to go to. -/
structure Deserts (registry : Registry δ) (address : Word) : Prop where
  load : registry.Unmapped (load address) address
  store : ∀ value, registry.Unmapped (store address value) address

theorem serves_of_mem {slot : Slot δ} (h : AddressRange.Apart registry.ranges)
    (hm : slot ∈ registry.slots) (ha : address ∈ slot.range) : registry.Serves address slot where
  mem_range := ha
  load := routes_of_route h (fun _ _ => rfl) hm ha
  store _ := routes_of_route h (fun _ _ => rfl) hm ha

theorem deserts_of_forall (hout : ∀ slot ∈ registry.slots, address ∉ slot.range) :
    registry.Deserts address where
  load := unmapped_of_route (fun _ _ => rfl) hout
  store _ := unmapped_of_route (fun _ _ => rfl) hout

end

/-! ## Devices in another order -/

/-- Two registries hold the same devices, maybe in another order. -/
structure Reordered (registry registry' : Registry δ) : Prop where
  apart : AddressRange.Apart registry.ranges
  perm : registry.slots.Perm registry'.slots

namespace Reordered
variable {registry' : Registry δ} (h : registry.Reordered registry')
include h

theorem apart' : AddressRange.Apart registry'.ranges :=
  h.apart.perm (h.perm.map Slot.range)

section
variable {access : Access} {address : Word} {x : Exec (Registry δ) α} {y : Exec δ α}
  (hx : ∀ registry log, x.run registry log =
    route address access y registry.accesses registry.slots log)
include hx

theorem route_cases :
    (∃ slot, address ∈ slot.range ∧ registry.Routes slot access x y ∧
      registry'.Routes slot access x y) ∨
    (registry.Unmapped x address ∧ registry'.Unmapped x address) := by
  by_cases hslot : ∃ slot ∈ registry.slots, address ∈ slot.range
  · obtain ⟨slot, hm, ha⟩ := hslot
    exact .inl ⟨slot, ha, routes_of_route h.apart hx hm ha,
      routes_of_route h.apart' hx (h.perm.mem_iff.1 hm) ha⟩
  · push Not at hslot
    exact .inr ⟨unmapped_of_route hx hslot,
      unmapped_of_route hx fun slot hm => hslot slot (h.perm.mem_iff.2 hm)⟩

/-- An access leaves the same devices in both. -/
theorem route (log : Log) : (x.final registry log).Reordered (x.final registry' log) := by
  rcases h.route_cases hx with ⟨slot, ha, hr, hr'⟩ | ⟨hu, hu'⟩
  · obtain ⟨before, after, hslots, hfinal⟩ := hr.final_eq
    obtain ⟨before', after', hslots', hfinal'⟩ := hr'.final_eq
    have hperm := h.perm
    rw [hslots, hslots'] at hperm
    have hapart := h.apart
    rw [ranges, hslots] at hapart
    rw [hfinal, hfinal']
    refine ⟨?_, ?_⟩
    · simpa [ranges] using hapart
    · refine (List.perm_middle.trans (List.Perm.cons _ ?_)).trans List.perm_middle.symm
      exact ((List.perm_middle.symm.trans hperm).trans List.perm_middle).cons_inv
  · rw [hu.final_eq log, hu'.final_eq log]
    exact h

end

/-- The accesses at an address go to the same device in both, or nowhere. -/
theorem serves_or_deserts [Device δ] (address : Word) :
    (∃ slot, registry.Serves address slot ∧ registry'.Serves address slot) ∨
      registry.Deserts address ∧ registry'.Deserts address := by
  by_cases hslot : ∃ slot ∈ registry.slots, address ∈ slot.range
  · obtain ⟨slot, hm, ha⟩ := hslot
    exact .inl ⟨slot, serves_of_mem h.apart hm ha,
      serves_of_mem h.apart' (h.perm.mem_iff.1 hm) ha⟩
  · push Not at hslot
    exact .inr ⟨deserts_of_forall hslot,
      deserts_of_forall fun slot hm => hslot slot (h.perm.mem_iff.2 hm)⟩

end Reordered

/-- What two registries come to by the same loads and stores, whatever becomes of them. -/
inductive UsedAlike [Device δ] (start start' : Registry δ) : Registry δ → Registry δ → Prop
  | start : UsedAlike start start' start start'
  | load {registry registry' : Registry δ} (h : UsedAlike start start' registry registry')
      (address : Word) (log : Log) :
      UsedAlike start start' ((load address).final registry log)
        ((load address).final registry' log)
  | store {registry registry' : Registry δ} (h : UsedAlike start start' registry registry')
      (address value : Word) (log : Log) :
      UsedAlike start start' ((store address value).final registry log)
        ((store address value).final registry' log)

theorem UsedAlike.reordered [Device δ] {start start' registry registry' : Registry δ}
    (h : UsedAlike start start' registry registry') (hstart : start.Reordered start') :
    registry.Reordered registry' := by
  induction h with
  | start => exact hstart
  | load _ address log ih => exact ih.route (fun _ _ => rfl) log
  | store _ address value log ih => exact ih.route (fun _ _ => rfl) log

end Registry

/-! ## Cores with devices -/

namespace Core
variable {δ : Type} [Device δ] {profile : Profile}

open Registry

variable {floor : ℕ} {claimed : List AddressRange} {device : δ} {devices : List δ}

/-- Devices can be added to those that have claimed some ranges already, in a machine whose plain
memory ends below `floor`. -/
structure Placed (floor : ℕ) (claimed : List AddressRange) (devices : List δ) : Prop where
  apart : AddressRange.Apart (claimed ++ devices.map Device.range)
  floor_le : ∀ device ∈ devices, floor ≤ (Device.range device).first.toNat

theorem placed_cons_iff : Placed floor claimed (device :: devices) ↔
    floor ≤ (Device.range device).first.toNat ∧
      Placed floor (claimed ++ [Device.range device]) devices := by
  constructor
  · rintro ⟨hapart, hfloor⟩
    rw [List.map_cons, List.append_cons] at hapart
    exact ⟨hfloor device List.mem_cons_self, hapart,
      fun d hd => hfloor d (List.mem_cons_of_mem _ hd)⟩
  · rintro ⟨hdevice, hapart, hfloor⟩
    refine ⟨by rwa [List.map_cons, List.append_cons], fun d hd => ?_⟩
    rcases List.mem_cons.1 hd with rfl | hd
    exacts [hdevice, hfloor d hd]

theorem Placed.perm {devices' : List δ} (h : Placed floor [] devices)
    (hp : devices.Perm devices') : Placed floor [] devices' where
  apart := h.apart.perm (hp.map _)
  floor_le device hd := h.floor_le device (hp.mem_iff.2 hd)

/-- Devices are attached just if they can be added to those that are there. -/
theorem ensures_attach (floor : ℕ) (devices : List δ) {registry : Registry δ}
    (h : AddressRange.Apart registry.ranges) :
    Ensures registry (attach floor devices) fun o registry' =>
      (Placed floor registry.ranges devices ∧ o = .ok () ∧ registry' = registry.extend devices) ∨
      (¬Placed floor registry.ranges devices ∧ ∃ fault, o = .error fault) := by
  induction devices generalizing registry with
  | nil =>
    refine (gives_pure registry ()).ensures (.inl ⟨⟨?_, by simp⟩, rfl, ?_⟩)
    · simpa using h
    · simp [extend]
  | cons device rest ih =>
    rw [placed_cons_iff]
    refine Ensures.ite (fun hlow => ?_) fun hfloor => ?_
    · exact (gives_throw registry _).ensures (.inr ⟨by omega, _, rfl⟩)
    by_cases hacc : registry.accepts (Device.range device) = true
    · have hapart : AddressRange.Apart (registry.extend [device]).ranges := by
        rw [ranges_extend]
        exact AddressRange.Apart.concat_iff.2 ⟨h, (accepts_iff h _).1 hacc⟩
      refine (gives_register hacc).bind ((ih hapart).mono fun o registry' hrest => ?_)
      rw [ranges_extend, extend_extend] at hrest
      rcases hrest with ⟨hp, ho⟩ | ⟨hp, hfault⟩
      · exact .inl ⟨⟨Nat.not_lt.1 hfloor, hp⟩, ho⟩
      · exact .inr ⟨fun hp' => hp hp'.2, hfault⟩
    · refine (gives_register_refused hacc).bind_error (.inr ⟨fun hp => hacc ?_, _, rfl⟩)
      exact (accepts_iff h _).2 (AddressRange.Apart.concat_iff.1 hp.2.apart.of_append).2

theorem result_build (profile : Profile) (devices : List δ) (output : Sink) (log : Log) :
    (build profile devices output log).1 =
      ((attach profile.dataCapacity devices).result .empty log).map fun _ =>
        powerOn profile ((attach profile.dataCapacity devices).final .empty log) output := by
  unfold build result final run
  rcases attach profile.dataCapacity devices .empty log with ⟨⟨_ | _, _⟩, _⟩ <;> rfl

/-- A core can be built just with devices that lie above its plain memory and apart. -/
theorem build_cases (profile : Profile) (devices : List δ) (output : Sink) (log : Log) :
    (Placed profile.dataCapacity [] devices ∧ (build profile devices output log).1 =
      .ok (powerOn profile (Registry.empty.extend devices) output)) ∨
    (¬Placed profile.dataCapacity [] devices ∧
      ∃ fault, (build profile devices output log).1 = .error fault) := by
  rw [result_build]
  have hempty : AddressRange.Apart (Registry.empty : Registry δ).ranges := .nil
  rcases ensures_attach profile.dataCapacity devices hempty log with
    ⟨hp, hresult, hfinal⟩ | ⟨hp, fault, hresult⟩
  · rw [hresult, hfinal]
    exact .inl ⟨hp, rfl⟩
  · rw [hresult]
    exact .inr ⟨hp, fault, rfl⟩

theorem build_isOk_iff {output : Sink} {log : Log} :
    (∃ core, (build profile devices output log).1 = .ok core) ↔
      Placed profile.dataCapacity [] devices := by
  rcases build_cases profile devices output log with ⟨hp, h⟩ | ⟨hp, fault, h⟩ <;> simp [h, hp]

theorem devices_of_build {core : Core δ} {output : Sink} {log : Log}
    (h : (build profile devices output log).1 = .ok core) :
    core.devices = Registry.empty.extend devices := by
  rcases build_cases profile devices output log with ⟨_, h'⟩ | ⟨_, fault, h'⟩
  · rw [h'] at h
    cases h
    rfl
  · rw [h'] at h
    cases h

/-- Cores that have been built with the same devices. -/
theorem reordered_of_build {devices' : List δ} (hp : devices.Perm devices') {core core' : Core δ}
    {output output' : Sink} {log log' : Log}
    (h : (build profile devices output log).1 = .ok core)
    (h' : (build profile devices' output' log').1 = .ok core') :
    core.devices.Reordered core'.devices := by
  rw [devices_of_build h, devices_of_build h']
  refine ⟨?_, (hp.map _).append_left _⟩
  rw [ranges_extend]
  exact (build_isOk_iff.1 ⟨core, h⟩).apart

/-- **Devices do not get in each other's way, whatever their order.** Whichever devices are offered
to a registry, those it takes have addresses and share none; it refuses a device just if the device
has no addresses or shares one with a device that was taken before, and is not changed then. A core
can be built just with devices that lie above its plain memory and do not meet, in any order; and
however such cores are used, the accesses at an address go to the same device in both, or nowhere
in both. -/
theorem devices_apart (devices : List δ) :
    (∀ (device : δ) (log : Log),
      let registry := (registerAll devices).final .empty log
      let range := Device.range device
      AddressRange.Apart registry.ranges ∧
      (registry.Refuses range → Gives registry (Registry.register device)
        (.error (.overlappingDevice range.first range.last)) registry) ∧
      (¬registry.Refuses range → Gives registry (Registry.register device) (.ok ())
        (registry.extend [device]))) ∧
    ∀ (profile : Profile) (devices' : List δ) (output output' : Sink) (log log' : Log),
      devices.Perm devices' →
      ((∃ core, (build profile devices' output' log').1 = .ok core) ↔
        Placed profile.dataCapacity [] devices) ∧
      ∀ core core', (build profile devices output log).1 = .ok core →
        (build profile devices' output' log').1 = .ok core' →
        ∀ registry registry', UsedAlike core.devices core'.devices registry registry' →
        ∀ address,
          (∃ slot, registry.Serves address slot ∧ registry'.Serves address slot) ∨
            registry.Deserts address ∧ registry'.Deserts address := by
  refine ⟨fun device log => ?_, fun profile devices' output output' log log' hp => ⟨?_, ?_⟩⟩
  · have hapart : AddressRange.Apart ((registerAll devices).final .empty log).ranges :=
      keeps_registerAll devices .empty log .nil
    refine ⟨hapart, fun h => gives_register_refused ?_, fun h => gives_register ?_⟩
    · rwa [refuses_iff hapart] at h
    · rwa [refuses_iff hapart, not_not] at h
  · exact build_isOk_iff.trans ⟨fun h => h.perm hp.symm, fun h => h.perm hp⟩
  · intro core core' h h' registry registry' hused address
    exact (hused.reordered (reordered_of_build hp h h')).serves_or_deserts address

/-- A device with the addresses from `first` to `last`. -/
def probing (first last : Word) : Probe := ⟨⟨first, last⟩, none, []⟩

/-- Devices that touch, up to the last address there is, in both orders. A third one that meets the
first is refused. -/
theorem devices_apart_touching :
    let devices := [probing 4 9, probing 10 (-1)]
    let registry := Registry.empty.extend devices
    let registry' := Registry.empty.extend devices.reverse
    Gives registry (Registry.register (probing 9 9)) (.error (.overlappingDevice 9 9)) registry ∧
      (∃ slot, registry.Serves 9 slot ∧ registry'.Serves 9 slot) := by
  intro devices registry registry'
  have hregistry : (registerAll devices).final .empty (.ofLevel none) = registry := rfl
  obtain ⟨hregister, hbuild⟩ := devices_apart devices
  obtain ⟨_, hrefused, _⟩ := hregister (probing 9 9) (.ofLevel none)
  obtain ⟨_, hroutes⟩ := hbuild .small devices.reverse default default (.ofLevel none)
    (.ofLevel none) devices.reverse_perm.symm
  refine ⟨hrefused (.inr ⟨⟨⟨4, 9⟩, probing 4 9⟩, List.mem_cons_self, 9, rfl, rfl⟩), ?_⟩
  rcases hroutes (powerOn .small registry default) (powerOn .small registry' default) rfl rfl
    registry registry' .start 9 with hslot | ⟨hdeserts, _⟩
  · exact hslot
  · cases hdeserts.load.result_eq (.ofLevel none)

end Core

end RegisterMachine
