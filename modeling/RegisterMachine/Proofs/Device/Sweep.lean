import RegisterMachine.Proofs.Device.Registry

/-!
# Starting devices, using them and shutting them down

A sweep visits one device after another and ends at the first that fails. Loads and stores leave
the devices where they are, and add to the record of accesses.

* `Registry.Swept`: what comes of a sweep.
* `Registry.ensures_startupAll`, `Registry.ensures_shutdownAll`: the two sweeps of a run.
* `Registry.Used`: what becomes of a registry by loads and stores.
-/

namespace RegisterMachine

open Exec

/-- Whether an access is a load or a store. -/
def Access.isUse : Access → Bool
  | load _ | store _ _ => true
  | startup | shutdown => false

variable {δ : Type}

/-- A hook has been run on the device in a slot: what it answers, and the slot afterwards. -/
def Slot.Hooked (hook : Exec δ Unit) (o : Except Fault Unit) (slot slot' : Slot δ) : Prop :=
  ∃ log, hook.result slot.device log = o ∧
    slot' = { slot with device := hook.final slot.device log }

namespace Registry

/-- The record of an access to each of some devices. -/
def visits (access : Access) (slots : List (Slot δ)) : Array (AddressRange × Access) :=
  (slots.map fun slot => (slot.range, access)).toArray

/-- What comes of a hook for all devices. -/
inductive Swept (access : Access) (hook : Exec δ Unit) (registry : Registry δ) :
    Except Fault Unit → Registry δ → Prop
  /-- Every device has been visited, in order. -/
  | throughout {slots : List (Slot δ)}
      (h : List.Forall₂ (Slot.Hooked hook (.ok ())) registry.slots slots) :
      Swept access hook registry (.ok ()) ⟨slots, registry.accesses ++ visits access registry.slots⟩
  /-- The devices have been visited in order up to one that fails. -/
  | cut {before after before' : List (Slot δ)} {slot slot' : Slot δ} {fault : Fault}
      (hslots : registry.slots = before ++ slot :: after)
      (hbefore : List.Forall₂ (Slot.Hooked hook (.ok ())) before before')
      (hslot : slot.Hooked hook (.error fault) slot') :
      Swept access hook registry (.error fault)
        ⟨before' ++ slot' :: after, registry.accesses ++ visits access (before ++ [slot])⟩

/-- A registry has changed by loads and stores only. -/
structure Used (registry registry' : Registry δ) : Prop where
  ranges_eq : registry'.ranges = registry.ranges
  accesses_eq : ∃ uses : List (AddressRange × Access),
    registry'.accesses = registry.accesses ++ uses.toArray ∧ ∀ use ∈ uses, use.2.isUse = true

variable {access : Access} {hook : Exec δ Unit} {registry registry' registry'' : Registry δ}

/-! ## Sweeps -/

theorem push_append_visits (access : Access) (slot : Slot δ) (slots : List (Slot δ))
    (accesses : Array (AddressRange × Access)) :
    accesses.push (slot.range, access) ++ visits access slots =
      accesses ++ visits access (slot :: slots) :=
  Array.ext' (by simp [visits])

section
variable (verb : String) (slot : Slot δ) (rest : List (Slot δ))
  (accesses : Array (AddressRange × Access)) (log : Log)

/-- The log in which a sweep has announced that it visits a device. -/
def visiting : Log :=
  log.note .debug fun _ => verb ++ " IO device at " ++ slot.range.text

theorem sweep_cons_of_error {fault : Fault}
    (h : hook.result slot.device (visiting verb slot log) = .error fault) :
    (sweep verb access hook accesses (slot :: rest) log).1 =
      (.error fault, ⟨{ slot with device := hook.final slot.device (visiting verb slot log) } :: rest,
        accesses.push (slot.range, access)⟩) := by
  unfold result at h
  unfold final
  unfold run visiting at *
  rw [sweep]
  unfold onSlot
  dsimp only
  generalize hook slot.device _ = ran at h ⊢
  obtain ⟨⟨_, device⟩, log'⟩ := ran
  cases h
  rfl

theorem sweep_cons_of_ok (h : hook.result slot.device (visiting verb slot log) = .ok ()) :
    let swept := (sweep verb access hook (accesses.push (slot.range, access)) rest
      (hook.logged slot.device (visiting verb slot log))).1
    (sweep verb access hook accesses (slot :: rest) log).1 =
      (swept.1, { swept.2 with
        slots := { slot with device := hook.final slot.device (visiting verb slot log) } ::
          swept.2.slots }) := by
  unfold result at h
  unfold final logged
  unfold run visiting at *
  rw [sweep]
  unfold onSlot
  dsimp only
  generalize hook slot.device _ = ran at h ⊢
  obtain ⟨⟨_, device⟩, log'⟩ := ran
  cases h
  rfl

end

/-- A device that does not fail is visited first, and the others as if it were not there. -/
theorem Swept.cons {slot slot' : Slot δ} {rest : List (Slot δ)}
    {accesses : Array (AddressRange × Access)} {o : Except Fault Unit}
    (hslot : slot.Hooked hook (.ok ()) slot')
    (h : Swept access hook ⟨rest, accesses.push (slot.range, access)⟩ o registry') :
    Swept access hook ⟨slot :: rest, accesses⟩ o
      { registry' with slots := slot' :: registry'.slots } := by
  cases h with
  | throughout h =>
    rw [push_append_visits]
    exact .throughout (.cons hslot h)
  | @cut before after _ _ _ _ hslots hbefore hfails =>
    rw [push_append_visits]
    have hslots : slot :: rest = (slot :: before) ++ _ :: after := congrArg (slot :: ·) hslots
    exact .cut hslots (.cons hslot hbefore) hfails

theorem swept_sweep (verb : String) (access : Access) (hook : Exec δ Unit) (slots : List (Slot δ))
    (accesses : Array (AddressRange × Access)) (log : Log) :
    Swept access hook ⟨slots, accesses⟩ (sweep verb access hook accesses slots log).1.1
      (sweep verb access hook accesses slots log).1.2 := by
  induction slots generalizing accesses log with
  | nil => exact .throughout .nil
  | cons slot rest ih =>
    cases ho : hook.result slot.device (visiting verb slot log) with
    | ok =>
      rw [sweep_cons_of_ok verb slot rest accesses log ho]
      exact .cons ⟨_, ho, rfl⟩ (ih _ _)
    | error fault =>
      rw [sweep_cons_of_error verb slot rest accesses log ho]
      exact .cut (List.nil_append (slot :: rest)).symm .nil ⟨_, ho, rfl⟩

theorem map_range_of_hooked {o : Except Fault Unit} {slots slots' : List (Slot δ)}
    (h : List.Forall₂ (Slot.Hooked hook o) slots slots') :
    slots'.map Slot.range = slots.map Slot.range := by
  induction h with
  | nil => rfl
  | cons hslot _ ih =>
    obtain ⟨_, -, rfl⟩ := hslot
    rw [List.map_cons, List.map_cons, ih]

/-- A sweep leaves the devices where they are. -/
theorem Swept.ranges_eq {o : Except Fault Unit} (h : Swept access hook registry o registry') :
    registry'.ranges = registry.ranges := by
  cases h with
  | throughout h => exact map_range_of_hooked h
  | cut hslots hbefore hslot =>
    obtain ⟨_, -, rfl⟩ := hslot
    simp only [ranges, hslots, List.map_append, List.map_cons, map_range_of_hooked hbefore]

/-- A sweep visits the first devices that there are, in the order in which they are. -/
theorem Swept.accesses_eq {o : Except Fault Unit} (h : Swept access hook registry o registry') :
    ∃ visited : List (AddressRange × Access),
      registry'.accesses = registry.accesses ++ visited.toArray ∧
      visited <+: registry.ranges.map fun range => (range, access) := by
  rw [ranges, List.map_map]
  cases h with
  | throughout h => exact ⟨_, rfl, List.prefix_rfl⟩
  | @cut before after _ slot _ _ hslots hbefore hslot =>
    refine ⟨_, rfl, ?_⟩
    rw [hslots, List.append_cons before slot after]
    exact (List.prefix_append _ _).map _

section
variable [Device δ] (registry : Registry δ)

theorem ensures_startupAll :
    Ensures registry startupAll (registry.Swept .startup Device.startup) :=
  swept_sweep "starting" .startup Device.startup registry.slots registry.accesses

theorem ensures_shutdownAll :
    Ensures registry shutdownAll (registry.Swept .shutdown Device.shutdown) :=
  swept_sweep "shutting down" .shutdown Device.shutdown registry.slots registry.accesses

end

/-! ## Loads and stores -/

theorem Used.refl (registry : Registry δ) : registry.Used registry :=
  ⟨rfl, [], by simp, by simp⟩

theorem Used.trans (h : registry.Used registry') (h' : registry'.Used registry'') :
    registry.Used registry'' := by
  obtain ⟨hranges, uses, haccesses, huses⟩ := h
  obtain ⟨hranges', uses', haccesses', huses'⟩ := h'
  refine ⟨hranges'.trans hranges, uses ++ uses', ?_, ?_⟩
  · exact Array.ext' (by simp [haccesses', haccesses])
  · intro use huse
    rcases List.mem_append.1 huse with huse | huse
    exacts [huses use huse, huses' use huse]

/-- An access goes to one device or to none. -/
theorem used_route {α : Type} (hu : access.isUse = true) (address : Word) (x : Exec δ α)
    (slots : List (Slot δ)) (accesses : Array (AddressRange × Access)) (log : Log) :
    Used ⟨slots, accesses⟩ (route address access x accesses slots log).1.2 := by
  induction slots generalizing log with
  | nil => exact .refl _
  | cons slot rest ih =>
    rw [route]
    split_ifs
    · exact ⟨rfl, [(slot.range, access)], by simp, by simpa using hu⟩
    · obtain ⟨hranges, uses, haccesses, huses⟩ := ih log
      exact ⟨congrArg (slot.range :: ·) hranges, uses, haccesses, huses⟩

theorem keeps_used_load [Device δ] (registry : Registry δ) (address : Word) :
    Keeps registry.Used (load address) :=
  fun registry' log h => h.trans (used_route rfl address _ registry'.slots registry'.accesses log)

theorem keeps_used_store [Device δ] (registry : Registry δ) (address value : Word) :
    Keeps registry.Used (store address value) :=
  fun registry' log h => h.trans (used_route rfl address _ registry'.slots registry'.accesses log)

end Registry

end RegisterMachine
