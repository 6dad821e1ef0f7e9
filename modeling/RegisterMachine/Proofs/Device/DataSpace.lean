import RegisterMachine.Device.MappedMemory
import RegisterMachine.Proofs.Core.Actions
import RegisterMachine.Proofs.Device.Registry

/-!
# Data addresses are one memory

A data address passes a test against the capacity of plain memory, a search for the first window
that has it, and a subtraction. None of this shows: with mapped memory for devices, an address that
is mapped answers the word last stored there, whatever is stored elsewhere, and an address that is
not mapped is refused without a trace.

* `MappedMemory.look`, `MappedMemory.look_put`: a window as words at addresses.
* `MappedMemory.offset_lt`: positions in a window are within its cells.
* `DataAccess`, `DataAccess.latest`: loads and stores, and the word last stored at an address.
* `Core.Remembers`: the words that a core keeps at data addresses.
* `Core.ensures_access`, `Core.ensures_accessAll`: one access, and any number of them.
* `Core.data_space_is_one_memory`: what this says of a core that has been built.
-/

namespace RegisterMachine

open Exec

/-! ## Windows -/

namespace MappedMemory

variable {window : MappedMemory} {address : Word}

/-- The word that a window holds at an address. -/
def look (window : MappedMemory) (address : Word) : Word :=
  window.cells.getD (address - window.first).toNat 0

theorem mem_range_iff : address ∈ window.range ↔ window.first.toNat ≤ address.toNat ∧
    address.toNat < window.first.toNat + window.cells.size := by
  have hpos := window.cells_pos
  have hfits := window.fits
  have hfirst : window.range.first = window.first := rfl
  have hlast : window.range.last.toNat = window.first.toNat + (window.cells.size - 1) := by
    rw [range, UInt64.toNat_add, UInt64.toNat_ofNat_of_lt' (by omega), Nat.mod_eq_of_lt hfits]
  rw [AddressRange.mem_iff, UInt64.le_iff_toNat_le, UInt64.le_iff_toNat_le, hfirst, hlast]
  omega

theorem toNat_sub_first (h : address ∈ window.range) :
    (address - window.first).toNat = address.toNat - window.first.toNat :=
  UInt64.toNat_sub_of_le _ _ (UInt64.le_iff_toNat_le.2 (mem_range_iff.1 h).1)

theorem offset_of_mem (h : address ∈ window.range) :
    window.offset address = .ok (address - window.first).toNat :=
  if_pos h

/-- The position of an address is that of a cell. -/
theorem offset_lt {offset : ℕ} (h : window.offset address = .ok offset) :
    offset < window.cells.size := by
  rw [MappedMemory.offset] at h
  split_ifs at h with hr
  cases h
  have hmem := mem_range_iff.1 hr
  rw [toNat_sub_first hr]
  omega

theorem range_put (offset : ℕ) (value : Word) : (window.put offset value).range = window.range := by
  simp [range, put]

theorem look_put_self (h : address ∈ window.range) (value : Word) :
    (window.put (address - window.first).toNat value).look address = value := by
  have hlt := offset_lt (offset_of_mem h)
  rw [look, put, Array.getD_eq_getD_getElem?, Array.getElem?_setIfInBounds_self_of_lt hlt,
    Option.getD_some]

theorem look_put_of_ne {other : Word} (h : other ≠ address) (value : Word) :
    (window.put (address - window.first).toNat value).look other = window.look other := by
  have hne : (address - window.first).toNat ≠ (other - window.first).toNat := by
    intro e
    rw [UInt64.toNat_inj, UInt64.sub_left_inj] at e
    exact h e.symm
  rw [look, look, put, Array.getD_eq_getD_getElem?, Array.getD_eq_getD_getElem?,
    Array.getElem?_setIfInBounds_ne hne]

theorem gives_load (h : address ∈ window.range) :
    Gives window (Device.load address) (.ok (window.look address)) window := by
  refine (gives_get window).bind ((gives_lift_of window (offset_of_mem h)).bind ?_)
  exact gives_pure window _

theorem gives_store (h : address ∈ window.range) (value : Word) :
    Gives window (Device.store address value) (.ok ())
      (window.put (address - window.first).toNat value) := by
  refine (gives_get window).bind ((gives_lift_of window (offset_of_mem h)).bind ?_)
  exact gives_modify window _

/-- A new window has the cells that are asked for, one at least, and they are zero. -/
theorem eq_of_ofLength {first : Word} {length : ℕ} (h : ofLength first length = .ok window) :
    window.first = first ∧ window.cells = Array.replicate (max length 1) 0 := by
  rw [ofLength] at h
  split_ifs at h
  cases h
  exact ⟨rfl, rfl⟩

end MappedMemory

/-! ## Accesses -/

/-- A load from a data address or a store there. -/
inductive DataAccess where
  | load (address : Word)
  | store (address value : Word)

namespace DataAccess

/-- The word that an access stores at an address, if it does. -/
def storedAt (address : Word) : DataAccess → Option Word
  | load _ => none
  | store other value => if other = address then some value else none

/-- The word last stored at an address, if there is one. -/
def latest (accesses : List DataAccess) (address : Word) : Option Word :=
  (accesses.filterMap (storedAt address)).getLast?

/-- The words at data addresses after an access. -/
def onto (content : Word → Word) (access : DataAccess) (address : Word) : Word :=
  (access.storedAt address).getD (content address)

theorem onto_store_self (content : Word → Word) (address value : Word) :
    (store address value).onto content address = value := by
  rw [onto, storedAt, if_pos rfl, Option.getD_some]

theorem onto_store_of_ne (content : Word → Word) {address other : Word} (h : address ≠ other)
    (value : Word) : (store address value).onto content other = content other := by
  rw [onto, storedAt, if_neg h, Option.getD_none]

theorem getD_latest_cons (access : DataAccess) (accesses : List DataAccess) (address : Word)
    (content : Word → Word) :
    (latest (access :: accesses) address).getD (content address) =
      (latest accesses address).getD (access.onto content address) := by
  rw [latest, latest, onto, List.filterMap_cons]
  cases access.storedAt address with
  | none => rfl
  | some value => simp [List.getLast?_cons]

end DataAccess

namespace Core

/-- Carries out an access, whatever comes of it. -/
def access {δ : Type} [Device δ] : DataAccess → Exec (Core δ) Unit
  | .load address => do
    let _ ← attempt (loadData address)
  | .store address value => do
    let _ ← attempt (storeData address value)

/-- Carries out accesses one after another, whatever comes of them. -/
def accessAll {δ : Type} [Device δ] (accesses : List DataAccess) : Exec (Core δ) Unit :=
  accesses.forM access

/-! ## What a core remembers -/

/-- An address in plain memory or in the window of a device. -/
def Mapped (profile : Profile) (devices : List MappedMemory) (address : Word) : Prop :=
  address.toNat < profile.dataCapacity ∨ ∃ device ∈ devices, address ∈ Device.range device

/-- A core with given devices keeps given words, cut down to its word width, at data addresses. -/
structure Remembers (profile : Profile) (devices : List MappedMemory) (content : Word → Word)
    (core : Core MappedMemory) : Prop where
  profile_eq : core.profile = profile
  capacity_eq : core.memory.data.capacity = profile.dataCapacity
  ranges_eq : core.devices.ranges = devices.map Device.range
  range_eq : ∀ slot ∈ core.devices.slots, slot.range = slot.device.range
  data_eq : ∀ address : Word, address.toNat < profile.dataCapacity →
    core.memory.data.load address = .ok (profile.mask (content address))
  device_eq : ∀ slot ∈ core.devices.slots, ∀ address ∈ slot.range,
    profile.mask (slot.device.look address) = profile.mask (content address)

variable {profile : Profile} {devices : List MappedMemory} {content : Word → Word}
  {core : Core MappedMemory} {address : Word}

namespace Remembers

/-- What is said of addresses that are not mapped does not count. -/
theorem of_content_eq {content' : Word → Word} (h : Remembers profile devices content core)
    (hc : ∀ address, Mapped profile devices address → content' address = content address) :
    Remembers profile devices content' core where
  profile_eq := h.profile_eq
  capacity_eq := h.capacity_eq
  ranges_eq := h.ranges_eq
  range_eq := h.range_eq
  data_eq address ha := by
    rw [hc address (.inl ha)]
    exact h.data_eq address ha
  device_eq slot hs address ha := by
    have hmem : slot.range ∈ core.devices.ranges := List.mem_map_of_mem hs
    rw [h.ranges_eq] at hmem
    obtain ⟨device, hd, hrange⟩ := List.mem_map.1 hmem
    rw [hc address (.inr ⟨device, hd, hrange ▸ ha⟩)]
    exact h.device_eq slot hs address ha

section
variable (h : Remembers profile devices content core)
include h

theorem inMemory_iff : core.inMemory address = true ↔ address.toNat < profile.dataCapacity := by
  rw [Core.inMemory_iff, h.capacity_eq]

theorem exists_slot_iff (address : Word) : (∃ slot ∈ core.devices.slots, address ∈ slot.range) ↔
    ∃ device ∈ devices, address ∈ Device.range device := by
  have hranges : (∃ range ∈ core.devices.ranges, address ∈ range) ↔
      ∃ range ∈ devices.map Device.range, address ∈ range := by rw [h.ranges_eq]
  simpa only [Registry.ranges, List.mem_map, exists_exists_and_eq_and] using hranges

variable (hp : Placed profile.dataCapacity [] devices)
include hp

theorem apart : AddressRange.Apart core.devices.ranges := by
  rw [h.ranges_eq]
  exact hp.apart

/-- Windows lie above plain memory. -/
theorem capacity_le {slot : Slot MappedMemory} (hs : slot ∈ core.devices.slots)
    (ha : address ∈ slot.range) : profile.dataCapacity ≤ address.toNat := by
  have hmem : slot.range ∈ core.devices.ranges := List.mem_map_of_mem hs
  rw [h.ranges_eq] at hmem
  obtain ⟨device, hd, hrange⟩ := List.mem_map.1 hmem
  have hfirst := (AddressRange.mem_iff.1 ha).1
  rw [← hrange, UInt64.le_iff_toNat_le] at hfirst
  exact (hp.floor_le device hd).trans hfirst

/-- Another word in a cell of plain memory is another word at its address only. -/
theorem setData (ha : address.toNat < profile.dataCapacity) (value : Word) :
    Remembers profile devices ((DataAccess.store address value).onto content)
      (core.fill (core.profile.mask value) (.data address)) where
  profile_eq := h.profile_eq
  capacity_eq := (Segment.capacity_put _ _ _).trans h.capacity_eq
  ranges_eq := h.ranges_eq
  range_eq := h.range_eq
  data_eq other ho := by
    by_cases he : address = other
    · subst he
      rw [DataAccess.onto_store_self, h.profile_eq]
      exact Segment.load_put_self (h.capacity_eq ▸ ha) _
    · rw [DataAccess.onto_store_of_ne content he, ← h.data_eq other ho]
      exact Segment.load_put_of_ne (Ne.symm he) _
  device_eq slot hs other ho := by
    have hne : address ≠ other := by
      rintro rfl
      exact absurd (h.capacity_le hp hs ho) (Nat.not_le.2 ha)
    rw [DataAccess.onto_store_of_ne content hne]
    exact h.device_eq slot hs other ho

/-- Other words in the window of a device are other words in its range only. -/
theorem setDevice {content' : Word → Word} {slot : Slot MappedMemory} {device : MappedMemory}
    {before after : List (Slot MappedMemory)} (accesses : Array (AddressRange × Access))
    (hslots : core.devices.slots = before ++ slot :: after)
    (hrange : device.range = slot.device.range)
    (hin : ∀ address ∈ slot.range,
      profile.mask (device.look address) = profile.mask (content' address))
    (hout : ∀ address, address ∉ slot.range → content' address = content address) :
    Remembers profile devices content'
      (devicesPart.set ⟨before ++ { slot with device } :: after, accesses⟩ core) := by
  have hslot : slot ∈ core.devices.slots := by
    rw [hslots]
    exact List.mem_append_right _ List.mem_cons_self
  -- no other window has an address of this one
  have hother : ∀ s ∈ before ++ after, s ∈ core.devices.slots ∧ s.range.Disjoint slot.range := by
    have hperm := (h.apart hp).perm (hslots ▸ List.perm_middle.map Slot.range)
    intro s hs
    refine ⟨?_, (List.rel_of_pairwise_cons hperm.disjoint (List.mem_map_of_mem hs)).symm⟩
    rw [hslots]
    exact List.perm_middle.mem_iff.2 (List.mem_cons_of_mem _ hs)
  have hcases : ∀ s ∈ before ++ { slot with device } :: after,
      s = { slot with device } ∨ s ∈ before ++ after := fun s hs =>
    List.mem_cons.1 (List.perm_middle.mem_iff.1 hs)
  refine ⟨h.profile_eq, h.capacity_eq, ?_, fun s hs => ?_, fun address ha => ?_, fun s hs => ?_⟩
  · rw [← h.ranges_eq]
    simp [Registry.ranges, devicesPart, hslots]
  · rcases hcases s hs with rfl | hs
    · exact (h.range_eq slot hslot).trans hrange.symm
    · exact h.range_eq s (hother s hs).1
  · have hnot : address ∉ slot.range := fun hmem =>
      absurd (h.capacity_le hp hslot hmem) (Nat.not_le.2 ha)
    rw [hout address hnot]
    exact h.data_eq address ha
  · rcases hcases s hs with rfl | hs
    · exact hin
    · intro address ha
      have hnot : address ∉ slot.range := fun hmem => (hother s hs).2 ⟨address, ha, hmem⟩
      rw [hout address hnot]
      exact h.device_eq s (hother s hs).1 address ha

end

end Remembers

/-! ## Accesses to a core -/

section
variable (h : Remembers profile devices content core) (hp : Placed profile.dataCapacity [] devices)
include h hp

theorem ensures_loadData_mapped (ha : Mapped profile devices address) :
    Ensures core (loadData address) fun o core' =>
      o = .ok (profile.mask (content address)) ∧ Remembers profile devices content core' := by
  by_cases hm : address.toNat < profile.dataCapacity
  · exact (gives_loadData (h.data_eq address hm)).ensures ⟨rfl, h⟩
  obtain ⟨slot, hs, hr⟩ := (h.exists_slot_iff address).2 (ha.resolve_left hm)
  have hserves := Registry.serves_of_mem (h.apart hp) hs hr
  have hload : Gives slot.device (Device.load address) (.ok (slot.device.look address))
      slot.device := MappedMemory.gives_load (h.range_eq slot hs ▸ hr)
  obtain ⟨before, after, hslots, hx⟩ := hserves.load.gives hload
  refine (gives_get core).bind ?_
  rw [if_neg (mt h.inMemory_iff.1 hm)]
  refine hx.onPart.bind ((gives_get _).bind ((gives_pure _ _).ensures ⟨?_, ?_⟩))
  · rw [← h.device_eq slot hs address hr, ← h.profile_eq]
    rfl
  · exact h.setDevice hp _ hslots rfl (h.device_eq slot hs) fun _ _ => rfl

theorem ensures_storeData_mapped (ha : Mapped profile devices address) (value : Word) :
    Ensures core (storeData address value) fun o core' => o = .ok () ∧
      Remembers profile devices ((DataAccess.store address value).onto content) core' := by
  by_cases hm : address.toNat < profile.dataCapacity
  · exact (gives_storeData (h.inMemory_iff.2 hm) value).ensures ⟨rfl, h.setData hp hm value⟩
  obtain ⟨slot, hs, hr⟩ := (h.exists_slot_iff address).2 (ha.resolve_left hm)
  have hr' : address ∈ slot.device.range := h.range_eq slot hs ▸ hr
  have hserves := Registry.serves_of_mem (h.apart hp) hs hr
  obtain ⟨before, after, hslots, hx⟩ := (hserves.store (core.profile.mask value)).gives
    (MappedMemory.gives_store hr' (core.profile.mask value))
  refine (gives_get core).bind ((gives_get core).bind ?_)
  rw [if_neg (mt h.inMemory_iff.1 hm)]
  refine hx.onPart.ensures ⟨rfl, h.setDevice hp _ hslots (MappedMemory.range_put _ _) ?_ ?_⟩
  · intro other ho
    by_cases he : address = other
    · subst he
      rw [MappedMemory.look_put_self hr', DataAccess.onto_store_self, h.profile_eq,
        Profile.mask_mask]
    · rw [MappedMemory.look_put_of_ne (Ne.symm he), DataAccess.onto_store_of_ne content he]
      exact h.device_eq slot hs other ho
  · intro other ho
    have he : address ≠ other := by
      rintro rfl
      exact ho hr
    exact DataAccess.onto_store_of_ne content he value

omit hp in
theorem deserts_of_not_mapped (ha : ¬Mapped profile devices address) :
    ¬core.inMemory address = true ∧ core.devices.Deserts address := by
  rw [Mapped, not_or, ← h.exists_slot_iff] at ha
  push Not at ha
  exact ⟨mt h.inMemory_iff.1 (Nat.not_lt.2 ha.1), Registry.deserts_of_forall ha.2⟩

omit hp in
theorem gives_loadData_unmapped (ha : ¬Mapped profile devices address) :
    Gives core (loadData address) (.error (.unmappedAddress address)) core := by
  obtain ⟨hm, hdeserts⟩ := deserts_of_not_mapped h ha
  have hload : Gives (devicesPart.get core) (Registry.load address)
      (.error (.unmappedAddress address)) core.devices := hdeserts.load
  refine (gives_get core).bind ?_
  rw [if_neg hm]
  exact hload.onPart.bind_error ⟨rfl, rfl⟩

omit hp in
theorem gives_storeData_unmapped (ha : ¬Mapped profile devices address) (value : Word) :
    Gives core (storeData address value) (.error (.unmappedAddress address)) core := by
  obtain ⟨hm, hdeserts⟩ := deserts_of_not_mapped h ha
  refine (gives_get core).bind ((gives_get core).bind ?_)
  rw [if_neg hm]
  exact Gives.onPart (hdeserts.store _)

/-- What an access stores is remembered, and the rest as well. -/
theorem ensures_access (access : DataAccess) :
    Ensures core (Core.access access) fun o core' =>
      o = .ok () ∧ Remembers profile devices (access.onto content) core' := by
  cases access with
  | load address =>
    refine Ensures.attempt ?_
    by_cases ha : Mapped profile devices address
    · exact (ensures_loadData_mapped h hp ha).mono fun _ _ h' => h'.2
    · exact (gives_loadData_unmapped h ha).ensures h
  | store address value =>
    refine Ensures.attempt ?_
    by_cases ha : Mapped profile devices address
    · exact (ensures_storeData_mapped h hp ha value).mono fun _ _ h' => h'.2
    · refine (gives_storeData_unmapped h ha value).ensures (h.of_content_eq fun other ho => ?_)
      have he : address ≠ other := by
        rintro rfl
        exact ha ho
      exact DataAccess.onto_store_of_ne content he value

end

theorem ensures_accessAll (hp : Placed profile.dataCapacity [] devices)
    (accesses : List DataAccess) (h : Remembers profile devices content core) :
    Ensures core (accessAll accesses) fun _ core' =>
      Remembers profile devices
        (fun address => (DataAccess.latest accesses address).getD (content address)) core' := by
  induction accesses generalizing core content with
  | nil => exact (gives_pure core _).ensures h
  | cons access rest ih =>
    refine (ensures_access h hp access).bind (fun _ core' h' => ?_) fun _ _ h' => by cases h'.1
    refine (ih h'.2).mono fun _ core'' h'' => ?_
    simpa only [DataAccess.getD_latest_cons] using h''

/-! ## Cores that have been built -/

/-- What is asked of a window: where it starts, and its length. -/
structure Window where
  first : Word
  length : ℕ

/-- The addresses of a window. One that is to be empty has one. -/
def Window.Has (window : Window) (address : Word) : Prop :=
  window.first.toNat ≤ address.toNat ∧
    address.toNat < window.first.toNat + max window.length 1

/-- Mapped memory that has been set up for windows. -/
def Opened (windows : List Window) (devices : List MappedMemory) : Prop :=
  List.Forall₂ (fun window device =>
    MappedMemory.ofLength window.first window.length = .ok device) windows devices

/-- A data address that is in plain memory or in a window. -/
def InSpace (profile : Profile) (windows : List Window) (address : Word) : Prop :=
  address.toNat < profile.dataCapacity ∨ ∃ window ∈ windows, window.Has address

theorem Opened.mapped_iff {windows : List Window} (h : Opened windows devices) :
    Mapped profile devices address ↔ InSpace profile windows address := by
  refine or_congr_right ?_
  induction h with
  | nil => simp
  | @cons window device windows devices hd _ ih =>
    obtain ⟨hfirst, hcells⟩ := MappedMemory.eq_of_ofLength hd
    have hhas : address ∈ Device.range device ↔ window.Has address := by
      have hrange : address ∈ Device.range device ↔ _ := MappedMemory.mem_range_iff
      rw [hrange, hfirst, hcells, Array.size_replicate]
      rfl
    rw [List.exists_mem_cons_iff, List.exists_mem_cons_iff, hhas, ih]

theorem Opened.look_eq {windows : List Window} (h : Opened windows devices) :
    ∀ device ∈ devices, device.look address = 0 := by
  induction h with
  | nil => simp
  | cons hd _ ih =>
    refine List.forall_mem_cons.2 ⟨?_, ih⟩
    rw [MappedMemory.look, (MappedMemory.eq_of_ofLength hd).2, Array.getD_eq_getD_getElem?,
      Array.getElem?_replicate]
    split_ifs <;> rfl

/-- A core that has just been built remembers zeros. -/
theorem remembers_powerOn {windows : List Window} (h : Opened windows devices) (output : Sink) :
    Remembers profile devices (fun _ => 0)
      (powerOn profile (Registry.empty.extend devices) output) where
  profile_eq := rfl
  capacity_eq := (Memory.laidOut_zeroed profile).data.capacity_eq
  ranges_eq := by
    rw [powerOn, Registry.ranges_extend]
    rfl
  range_eq slot hs := by
    obtain ⟨device, -, rfl⟩ := List.mem_map.1 hs
    rfl
  data_eq address ha := by
    have hcell : (Array.replicate profile.dataCapacity (0 : Word))[address.toNat]? = some 0 := by
      rw [Array.getElem?_replicate, if_pos ha]
    rw [Segment.load_eq_ok_iff, Profile.mask_of_le UInt64.zero_le]
    exact hcell
  device_eq slot hs address ha := by
    obtain ⟨device, hd, rfl⟩ := List.mem_map.1 hs
    rw [h.look_eq device hd]

/-- **Data addresses are one memory.** Build a core with any windows of mapped memory and use its
data addresses in any way: an address outside plain memory and the windows is refused, and nothing
changes then; any other can be stored to, and answers the word that was last stored there, cut down
to the word width, or zero if there is none. The cells of a window are never missed. -/
theorem data_space_is_one_memory (profile : Profile) (windows : List Window)
    (devices : List MappedMemory) (hopen : Opened windows devices) (output : Sink) (log log' : Log)
    (hbuild : (build profile devices output log).1 = .ok core) (accesses : List DataAccess)
    (address : Word) :
    let core' := (accessAll accesses).final core log'
    (¬InSpace profile windows address →
      Gives core' (loadData address) (.error (.unmappedAddress address)) core' ∧
      ∀ value, Gives core' (storeData address value) (.error (.unmappedAddress address)) core') ∧
    (InSpace profile windows address → ∀ log,
      (loadData address).result core' log =
        .ok (profile.mask ((DataAccess.latest accesses address).getD 0)) ∧
      ∀ value, (storeData address value).result core' log = .ok ()) ∧
    ∀ slot ∈ core'.devices.slots, ∀ offset, slot.device.offset address = .ok offset →
      offset < slot.device.cells.size := by
  intro core'
  have hp : Placed profile.dataCapacity [] devices := build_isOk_iff.1 ⟨core, hbuild⟩
  have hstart : Remembers profile devices (fun _ => 0) core := by
    rcases build_cases profile devices output log with ⟨_, hcore⟩ | ⟨hnot, _⟩
    · rw [hbuild] at hcore
      cases hcore
      exact remembers_powerOn hopen output
    · exact absurd hp hnot
  have h := ensures_accessAll hp accesses hstart log'
  rw [← hopen.mapped_iff]
  refine ⟨fun hnot => ?_, fun hmapped log => ⟨?_, fun value => ?_⟩, fun slot _ offset ho => ?_⟩
  · exact ⟨gives_loadData_unmapped h hnot, fun value => gives_storeData_unmapped h hnot value⟩
  · exact (ensures_loadData_mapped h hp hmapped log).1
  · exact (ensures_storeData_mapped h hp hmapped value log).1
  · exact MappedMemory.offset_lt ho

/-- A window that ends with the address space and one that is to be empty, at the end of plain
memory. -/
theorem data_space_is_one_memory_edges :
    let windows : List Window := [⟨-2, 2⟩, ⟨4, 0⟩]
    let devices := [(⟨-2, #[0, 0], by decide, by decide⟩ : MappedMemory),
      ⟨4, #[0], by decide, by decide⟩]
    let accesses := [.store 3 1, .store 4 0x10002, .store 5 3, .store (-1) 4, .store 3 6, .load 5]
    let core : Core MappedMemory :=
      (accessAll accesses).final (powerOn .small (Registry.empty.extend devices) default)
        (.ofLevel none)
    Opened windows devices ∧ (loadData 3).result core (.ofLevel none) = .ok 6 ∧
      (loadData 4).result core (.ofLevel none) = .ok 2 ∧
      (loadData (-1)).result core (.ofLevel none) = .ok 4 ∧
      (loadData (-2)).result core (.ofLevel none) = .ok 0 ∧
      Gives core (loadData 5) (.error (.unmappedAddress 5)) core := by
  intro windows devices accesses core
  have hopen : Opened windows devices := .cons rfl (.cons rfl .nil)
  have hbuild : (build .small devices default (.ofLevel none)).1 =
      .ok (powerOn .small (Registry.empty.extend devices) default) := rfl
  have h := data_space_is_one_memory .small windows devices hopen default (.ofLevel none)
    (.ofLevel none) hbuild accesses
  have hin {address value : Word} (ha : InSpace .small windows address)
      (hv : Profile.small.mask ((DataAccess.latest accesses address).getD 0) = value) :
      (loadData address).result core (.ofLevel none) = .ok value :=
    hv ▸ ((h address).2.1 ha (.ofLevel none)).1
  have hbelow : InSpace .small windows 3 := .inl (by decide)
  have hempty : InSpace .small windows 4 :=
    .inr ⟨⟨4, 0⟩, by simp [windows], by decide, by decide⟩
  have hlast : InSpace .small windows (-1) :=
    .inr ⟨⟨-2, 2⟩, by simp [windows], by decide, by decide⟩
  have hfirst : InSpace .small windows (-2) :=
    .inr ⟨⟨-2, 2⟩, by simp [windows], by decide, by decide⟩
  refine ⟨hopen, hin hbelow (by decide), hin hempty (by decide), hin hlast (by decide),
    hin hfirst (by decide), ((h 5).1 ?_).1⟩
  rintro (hlt | ⟨window, hmem, hhas⟩)
  · exact absurd hlt (by decide)
  · simp only [windows, List.mem_cons, List.not_mem_nil, or_false] at hmem
    rcases hmem with rfl | rfl
    · exact absurd hhas.1 (by decide)
    · exact absurd hhas.2 (by decide)

end Core

end RegisterMachine
