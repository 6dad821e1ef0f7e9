import RegisterMachine.Proofs.Core.Actions

/-!
# Installing programs and data

Values are installed one after another, and the first that does not fit ends the work. What has been
written by then stays. Addresses are counted as numbers here: they do not wrap, so that nothing is
ever written below the first address.

* `Segment.Overlaid`: a segment with some values in successive cells.
* `Segment.Stored`: what comes of storing values from an address on.
* `Core.Installs`: the same of a core, of which only one segment changes.
* `Core.install_exact`: programs and data are installed like that.
-/

namespace RegisterMachine

open Exec

namespace Segment
variable {α : Type} {before after : Segment α} {start next : Word} {value : α} {values : List α}

/-! ## What is written -/

/-- A segment has some values in the cells from `start` on, and its other cells as before. -/
structure Overlaid (before : Segment α) (start : ℕ) (values : List α) (after : Segment α) :
    Prop where
  region_eq : after.region = before.region
  capacity_eq : after.capacity = before.capacity
  below : ∀ k < start, after.cells[k]? = before.cells[k]?
  written : ∀ k (hk : k < values.length), after.cells[start + k]? = some values[k]
  above : ∀ k, start + values.length ≤ k → after.cells[k]? = before.cells[k]?

theorem Overlaid.nil (segment : Segment α) (start : ℕ) : segment.Overlaid start [] segment :=
  ⟨rfl, rfl, fun _ _ => rfl, fun _ hk => absurd hk (Nat.not_lt_zero _), fun _ _ => rfl⟩

/-- Values are stored one by one. -/
theorem Overlaid.cons (hlt : start.toNat < before.capacity)
    (h : (before.put start value).Overlaid (start.toNat + 1) values after) :
    before.Overlaid start.toNat (value :: values) after where
  region_eq := h.region_eq
  capacity_eq := h.capacity_eq.trans (before.capacity_put start value)
  below k hk := by
    rw [h.below k (by omega)]
    exact Array.getElem?_setIfInBounds_ne (by omega)
  written k hk := by
    cases k with
    | zero =>
      rw [Nat.add_zero, h.below _ (Nat.lt_succ_self _)]
      exact Array.getElem?_setIfInBounds_self_of_lt hlt
    | succ k =>
      rw [← Nat.add_assoc, Nat.add_right_comm, h.written k (by simpa using hk)]
      rfl
  above k hk := by
    rw [List.length_cons] at hk
    rw [h.above k (by omega)]
    exact Array.getElem?_setIfInBounds_ne (by omega)

/-! ## What comes of it -/

/-- What comes of storing values from an address on: all of them fit, or those that do not are left
out and the first address that there is no cell for is reported. -/
inductive Stored (before : Segment α) (start : Word) (values : List α) :
    Except Fault Unit → Segment α → Prop
  | all {after : Segment α} (hfit : values = [] ∨ start.toNat + values.length ≤ before.capacity)
      (hafter : before.Overlaid start.toNat values after) :
      Stored before start values (.ok ()) after
  | leading {after : Segment α} (hne : values ≠ [])
      (hover : before.capacity < start.toNat + values.length)
      (hafter : before.Overlaid start.toNat
        (values.take (before.capacity - start.toNat)) after) :
      Stored before start values (.error (.addressOutOfRange before.region
        (UInt64.ofNat (max start.toNat before.capacity)) before.capacity)) after

theorem Stored.cons {o : Except Fault Unit} (hlt : start.toNat < before.capacity)
    (hnext : next.toNat = start.toNat + 1) (h : (before.put start value).Stored next values o after) :
    before.Stored start (value :: values) o after := by
  have hcap := before.capacity_put start value
  cases h with
  | all hfit hafter =>
    rw [hnext] at hafter
    refine .all (.inr ?_) (.cons hlt hafter)
    rw [hcap, hnext] at hfit
    rw [List.length_cons]
    rcases hfit with rfl | hfit
    · exact hlt
    · omega
  | leading hne hover hafter =>
    rw [hcap, hnext] at hover hafter ⊢
    have hmax : max (start.toNat + 1) before.capacity = max start.toNat before.capacity := by omega
    have htake : before.capacity - start.toNat = before.capacity - (start.toNat + 1) + 1 := by omega
    rw [hmax]
    refine .leading (List.cons_ne_nil _ _) (by rw [List.length_cons]; omega) ?_
    rw [htake, List.take_succ_cons]
    exact .cons hlt hafter

/-- An address that there is no cell for takes no value. -/
theorem stored_outside (h : ¬start.toNat < before.capacity) (value : α) (values : List α) :
    before.Stored start (value :: values) (.error (before.outside start)) before := by
  have hmax : UInt64.ofNat (max start.toNat before.capacity) = start := by
    rw [max_eq_left (Nat.not_lt.1 h), UInt64.ofNat_toNat]
  have htake : before.capacity - start.toNat = 0 := by omega
  have hover : before.capacity < start.toNat + (value :: values).length := by
    rw [List.length_cons]
    omega
  have hafter : before.Overlaid start.toNat
      ((value :: values).take (before.capacity - start.toNat)) before := by
    rw [htake]
    exact .nil before _
  have hstored := Stored.leading (List.cons_ne_nil value values) hover hafter
  rwa [hmax] at hstored

/-- **Values are stored up to the first that does not fit.** -/
theorem ensures_storeAll {segment : Segment α} (hcap : segment.capacity < UInt64.size)
    (start : Word) (values : List α) {offset : ℕ} (hoffset : start.toNat + offset < UInt64.size) :
    Ensures segment (storeAll start values offset)
      (segment.Stored (start + UInt64.ofNat offset) values) := by
  induction values generalizing segment offset with
  | nil => exact (gives_pure segment ()).ensures (.all (.inl rfl) (.nil segment _))
  | cons value rest ih =>
    have haddress (k : ℕ) (hk : start.toNat + k < UInt64.size) :
        (start + UInt64.ofNat k).toNat = start.toNat + k := by
      rw [UInt64.toNat_add, UInt64.toNat_ofNat_of_lt' (by omega), Nat.mod_eq_of_lt hk]
    rw [storeAll, if_pos hoffset]
    by_cases hlt : (start + UInt64.ofNat offset).toNat < segment.capacity
    · have hnext : start.toNat + (offset + 1) < UInt64.size := by
        rw [haddress offset hoffset] at hlt
        omega
      refine (gives_store hlt value).bind ((ih ?_ hnext).mono fun o after h => ?_)
      · rwa [capacity_put]
      · refine .cons hlt ?_ h
        rw [haddress _ hnext, haddress _ hoffset, Nat.add_assoc]
    · exact (gives_store_outside hlt value).bind_error (stored_outside hlt value rest)

end Segment

namespace Core

variable {δ α : Type} {core : Core δ}

/-! ## Cores -/

/-- What comes of installing values in a segment of a core, from an address on. -/
structure Installs (part : Part (Core δ) (Segment α)) (core : Core δ) (start : Word)
    (values : List α) (o : Except Fault Unit) (core' : Core δ) : Prop where
  ok_iff : o = .ok () ↔ values = [] ∨ start.toNat + values.length ≤ (part.get core).capacity
  of_ok : o = .ok () → ∃ after, core' = part.set after core ∧
    (part.get core).Overlaid start.toNat values after
  /-- The address is the first one outside, and what fits before it has been written. -/
  of_error : ∀ fault, o = .error fault →
    fault = .addressOutOfRange (part.get core).region
      (UInt64.ofNat (max start.toNat (part.get core).capacity)) (part.get core).capacity ∧
    ∃ after, core' = part.set after core ∧ (part.get core).Overlaid start.toNat
      (values.take ((part.get core).capacity - start.toNat)) after

theorem installs_of_stored {part : Part (Core δ) (Segment α)} {start : Word} {values : List α}
    {o : Except Fault Unit} {after : Segment α} (h : (part.get core).Stored start values o after) :
    Installs part core start values o (part.set after core) := by
  cases h with
  | all hfit hafter =>
    exact ⟨iff_of_true rfl hfit, fun _ => ⟨after, rfl, hafter⟩, by rintro _ ⟨⟩⟩
  | leading hne hover hafter =>
    refine ⟨iff_of_false nofun ?_, nofun, ?_⟩
    · rintro (hnil | hfit)
      · exact hne hnil
      · omega
    · rintro _ ⟨⟩
      exact ⟨rfl, after, rfl, hafter⟩

theorem ensures_install (part : Part (Core δ) (Segment α)) (start : Word) (values : List α)
    (hcap : (part.get core).capacity < UInt64.size) :
    Ensures core (Exec.onPart part (Segment.storeAll start values 0))
      (Installs part core start values) := by
  have hstart : start.toNat + 0 < UInt64.size := UInt64.toNat_lt start
  have hstored := Segment.ensures_storeAll hcap start values hstart
  have hzero : start + UInt64.ofNat 0 = start := UInt64.add_zero start
  rw [hzero] at hstored
  exact Ensures.onPart (hstored.mono fun _ _ h => installs_of_stored h)

/-- **Programs and data are installed up to the first address outside**, and nothing else changes.
    A program starts at address 0, and data are cut down to the word width. -/
theorem install_exact (hcode : core.memory.code.capacity < UInt64.size)
    (hdata : core.memory.data.capacity < UInt64.size) :
    (∀ program, Ensures core (installWords program) (Installs codePart core 0 program)) ∧
    (∀ program, Ensures core (installProgram program)
      (Installs codePart core 0 (program.map Instruction.encode))) ∧
    ∀ start words, Ensures core (installData start words)
      (Installs dataPart core start (words.map core.profile.mask)) := by
  refine ⟨fun program => ?_, fun program => ?_, fun start words => ?_⟩
  · exact ensures_install codePart 0 program hcode
  · exact ensures_install codePart 0 _ hcode
  · exact (gives_get core).bind (ensures_install dataPart start _ hdata)

/-- Two of three words fit, and the first is cut down. From the last address of all, the second word
would come to address 0; it does not. -/
theorem install_exact_overrunning :
    let core : Core Empty := powerOn .small .empty default
    let log := Log.ofLevel none
    let filled := (installData 2 [0x10007, 8, 9]).final core log
    let high : Word := 0xffffffffffffffff
    (installData 2 [0x10007, 8, 9]).result core log = .error (.addressOutOfRange .data 4 4) ∧
      filled.memory.data.cells[1]? = some 0 ∧ filled.memory.data.cells[2]? = some 7 ∧
      filled.memory.data.cells[3]? = some 8 ∧
      (installData high [1, 2]).result core log = .error (.addressOutOfRange .data high 4) ∧
      ((installData high [1, 2]).final core log).memory.data.cells[0]? = some 0 := by
  intro core log filled high
  have hcode : core.memory.code.capacity < UInt64.size := by decide
  have hdata : core.memory.data.capacity < UInt64.size := by decide
  obtain ⟨-, -, hinstalls⟩ := install_exact hcode hdata
  have hlow := hinstalls 2 [0x10007, 8, 9] log
  have hhigh := hinstalls high [1, 2] log
  cases ho : (installData 2 [0x10007, 8, 9]).result core log with
  | ok => exact absurd (hlow.ok_iff.1 ho) (by decide)
  | error fault =>
    cases ho' : (installData high [1, 2]).result core log with
    | ok => exact absurd (hhigh.ok_iff.1 ho') (by decide)
    | error fault' =>
      obtain ⟨rfl, after, hafter, hlow⟩ := hlow.of_error fault ho
      obtain ⟨rfl, after', hafter', hhigh⟩ := hhigh.of_error fault' ho'
      have hfilled : filled.memory.data = after := congrArg (·.memory.data) hafter
      have hfit : ([0x10007, 8, 9].map core.profile.mask).take
          ((dataPart.get core).capacity - (2 : Word).toNat) = [7, 8] := by decide +kernel
      rw [hfit] at hlow
      rw [hfilled, hafter']
      exact ⟨rfl, hlow.below 1 (by decide), hlow.written 0 (by decide), hlow.written 1 (by decide),
        rfl, hhigh.below 0 (by decide)⟩

end Core

end RegisterMachine
