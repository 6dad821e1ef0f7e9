import RegisterMachine.Proofs.Core.Calls

/-!
# The data stack is a bounded list

The words on the data stack form a list, the latest last. Pushes add to it and pops take from it,
whether the user of a core asks for them or a program does, and no other instruction has a part in
it, as long as none writes the stack pointer itself. The list has room for as many words as the
stack has cells.

* `StackUse.outcome`, `StackUse.wordsAfter`: what the list answers, and what becomes of it.
* `Core.Stacked`: the stack and the stack pointer of a core hold a list.
* `Core.Action`: what is done to a core.
* `Core.Fulfils`: a use of the stack is one of the list. `Core.fulfils_push`,
  `Core.fulfils_execute` and others say so of the actions.
* `Core.sameStack_perform`: the other actions leave the stack alone.
* `Core.data_stack_refines_list`: what this says of every core that comes of such actions.
-/

namespace RegisterMachine

/-- What an action asks of the data stack. -/
inductive StackUse where
  | push (value : Word)
  /-- The last word is answered, or written to a register, and it is taken off if `pops`. -/
  | deliver (pops : Bool) (dest : Option UInt8)
  deriving DecidableEq, Repr

namespace StackUse

/-- What comes of a use of a list that has room for the cells of a stack. -/
def outcome (profile : Profile) (words : List Word) : StackUse → Except Fault (Option Word)
  | push _ =>
    if words.length = profile.stackCapacity then
      .error (.addressOutOfRange .stack (UInt64.ofNat profile.stackCapacity) profile.stackCapacity)
    else .ok none
  | deliver _ dest =>
    match words.getLast?, dest with
    | none, _ => .error (.addressOutOfRange .stack profile.stackEmpty profile.stackCapacity)
    | some word, none => .ok (some word)
    | some _, some r => if r ≤ 1 then .error (.writeProtected r) else .ok none

/-- The list after a use. A fault leaves it as it is. -/
def wordsAfter (words : List Word) (use : StackUse) : Except Fault (Option Word) → List Word
  | .ok _ =>
    match use with
    | push value => words ++ [value]
    | deliver pops _ => if pops then words.dropLast else words
  | .error _ => words

end StackUse

namespace Core

open Exec

variable {δ : Type} {core core' core'' : Core δ} {words : List Word}

/-! ## Actions -/

/-- What an operation asks of the data stack. -/
def stackUse? (core : Core δ) (i : Instruction) : Operation → Option StackUse
  | .move .push => some (.push (core.profile.mask (core.register i.dest)))
  | .move .pushImmediate => some (.push (core.profile.mask i.immediate.toUInt64))
  | .move .pop => some (.deliver true (some i.dest))
  | .move .peek => some (.deliver false (some i.dest))
  | _ => none

/-- What is done to a core: its user uses the stack or has an instruction executed, or the core
makes a step. -/
inductive Action where
  | pushData (value : Word)
  | popData
  | peekData
  | execute (i : Instruction)
  | step

namespace Action

/-- An action, which answers a word if it is a pop or a peek of the user. -/
def perform [Device δ] : Action → Exec (Core δ) (Option Word)
  | pushData value => do
    Core.pushData value
    return none
  | popData => do
    let word ← Core.popData
    return some word
  | peekData => do
    let word ← (← get).peekData
    return some word
  | execute i => do
    Core.execute .standard i
    return none
  | step => do
    Core.step .standard
    return none

/-- The operation that an action carries out. -/
def operation? (core : Core δ) : Action → Option (Instruction × Operation)
  | execute i => i.operation.toOption.map (i, ·)
  | step => core.upcoming?
  | _ => none

theorem operation_eq {action : Action} {i : Instruction} {op : Operation}
    (hop : action.operation? core = some (i, op)) : i.operation = .ok op := by
  cases action with
  | execute i' =>
    obtain ⟨_, hop', hi⟩ := Option.map_eq_some_iff.1 hop
    cases hi
    cases hi' : i.operation with
    | ok op' =>
      rw [hi'] at hop'
      cases hop'
      rfl
    | error fault =>
      rw [hi'] at hop'
      cases hop'
  | step => exact (upcoming?_eq_some_iff.1 hop).2.2
  | pushData _ | popData | peekData => cases hop

/-- What an action asks of the data stack. -/
def use? (core : Core δ) : Action → Option StackUse
  | pushData value => some (.push (core.profile.mask value))
  | popData => some (.deliver true none)
  | peekData => some (.deliver false none)
  | action => (action.operation? core).bind fun (i, op) => core.stackUse? i op

theorem use?_eq {action : Action} {i : Instruction} {op : Operation}
    (hop : action.operation? core = some (i, op)) : action.use? core = core.stackUse? i op := by
  cases action with
  | execute _ | step => exact congrArg (Option.bind · fun (i, op) => core.stackUse? i op) hop
  | pushData _ | popData | peekData => cases hop

end Action

/-- The words on the stack after an action. -/
def wordsAfter (core : Core δ) (words : List Word) (action : Action)
    (o : Except Fault (Option Word)) : List Word :=
  match action.use? core with
  | some use => use.wordsAfter words o
  | none => words

theorem wordsAfter_error (core : Core δ) (words : List Word) (action : Action) (fault : Fault) :
    core.wordsAfter words action (.error fault) = words := by
  rw [wordsAfter]
  split <;> rfl

/-- The action does not interfere with the pointers of the machine: it pops and peeks into other
registers, and unless it uses the stack it does not write the stack pointer. What a fault has kept
it from writing does not count. -/
structure Permitted [Device δ] (core : Core δ) (log : Log) (action : Action) : Prop where
  dest : ∀ pops r, action.use? core = some (.deliver pops (some r)) →
    r ≠ core.profile.registers.instructionPointer ∧ r ≠ core.profile.registers.stackPointer ∧
      r ≠ core.profile.registers.callPointer
  other : ∀ i op, action.operation? core = some (i, op) → action.use? core = none →
    ∀ answer, action.perform.result core log = .ok answer →
      core.profile.registers.stackPointer ∉ op.writes core.profile.registers i

/-! ## What the run loop leaves alone -/

/-- The core but for the instruction pointer and what the run loop counts and flags. -/
structure Settles (core core' : Core δ) : Prop where
  profile_eq : core'.profile = core.profile
  memory_eq : core'.memory = core.memory
  register_eq : ∀ r, r ≠ core.profile.registers.instructionPointer →
    core'.register r = core.register r

namespace Settles

theorem refl (core : Core δ) : core.Settles core := ⟨rfl, rfl, fun _ _ => rfl⟩

theorem faulted (core : Core δ) : core.Settles core.faulted := ⟨rfl, rfl, fun _ _ => rfl⟩

theorem retired (core : Core δ) (address : Word) : core.Settles (core.retired address) :=
  ⟨retired_profile address, retired_memory address, fun _ hr => register_retired_of_ne hr address⟩

section
variable (h : core.Settles core') (hw : core.profile.WellFormed)
include h hw

theorem stackPointer_eq : core'.stackPointer = core.stackPointer := by
  rw [stackPointer, h.profile_eq]
  exact h.register_eq _ hw.stackPointer_ne_instructionPointer

theorem sameCalls : core.SameCalls core' := by
  refine ⟨h.profile_eq, ?_, congrArg Memory.callStack h.memory_eq⟩
  rw [callPointer, h.profile_eq]
  exact h.register_eq _ hw.callPointer_ne_instructionPointer

end

end Settles

section
variable [Device δ] {action : Action} {i : Instruction} {op : Operation}

/-- An action that carries out an operation does what the instruction does, and then what the run
loop does if the action is a step. -/
theorem ensures_perform (hs : core.Sound) (hw : core.profile.Writable)
    (hop : action.operation? core = some (i, op)) {Q : Except Fault Unit → Core δ → Prop}
    (hx : Ensures core (Core.execute .standard i) Q) :
    Ensures core action.perform fun o core' =>
      ∃ o' core'', Q o' core'' ∧ core''.Settles core' ∧ o = o'.map fun _ => none := by
  cases action with
  | execute i' =>
    obtain ⟨_, -, hi⟩ := Option.map_eq_some_iff.1 hop
    cases hi
    refine hx.bind (fun a core' hq => ?_) fun fault core' hq => ?_
    · exact (gives_pure core' none).ensures ⟨.ok a, core', hq, .refl core', rfl⟩
    · exact ⟨.error fault, core', hq, .refl core', rfl⟩
  | step =>
    obtain ⟨hrunning, hnext, -⟩ := upcoming?_eq_some_iff.1 hop
    have hstep : Ensures core (Core.step .standard) fun o core' =>
        ∃ core'', Q o core'' ∧ core''.Settles core' := by
      refine (stepped hs hw).mono fun o core' hstep => ?_
      cases hstep with
      | stopped h => exact absurd hrunning h
      | unfetched _ h => cases hnext.symm.trans h
      | @failed fault i' log _ hi' hx' =>
        cases hnext.symm.trans hi'
        exact ⟨_, hx' ▸ hx log, .faulted _⟩
      | @retired i' log _ hi' hx' =>
        cases hnext.symm.trans hi'
        exact ⟨_, hx' ▸ hx log, .retired _ _⟩
    refine hstep.bind (fun a core' ⟨core'', hq, hc⟩ => ?_) fun fault core' ⟨core'', hq, hc⟩ => ?_
    · exact (gives_pure core' none).ensures ⟨.ok a, core'', hq, hc, rfl⟩
    · exact ⟨.error fault, core'', hq, hc, rfl⟩
  | pushData _ | popData | peekData => cases hop

/-- An action that neither carries out an operation nor uses the stack. -/
theorem settles_perform (hs : core.Sound) (hw : core.profile.Writable)
    (hop : action.operation? core = none) (huse : action.use? core = none) :
    Ensures core action.perform fun _ core' => core.Settles core' := by
  have hinvalid {i : Instruction} (hi : i.operation.toOption = none) :
      ∃ fault, Gives core (Core.execute .standard i) (.error fault) core := by
    cases hi' : i.operation with
    | error fault => exact ⟨fault, gives_execute_error core hi'⟩
    | ok op =>
      rw [hi'] at hi
      cases hi
  cases action with
  | execute i =>
    obtain ⟨fault, hx⟩ := hinvalid (Option.map_eq_none_iff.1 hop)
    exact hx.bind_error (.refl core)
  | step =>
    have hinvalid' {i : Instruction} (hr : core.status = .running)
        (hi : core.nextInstruction = .ok i) :
        ∃ fault, Gives core (Core.execute .standard i) (.error fault) core := by
      refine hinvalid ?_
      cases hi' : i.operation with
      | error fault => rfl
      | ok op => cases hop.symm.trans (upcoming?_eq_some_iff.2 ⟨hr, hi, hi'⟩)
    have hstep : Ensures core (Core.step .standard) fun _ core' => core.Settles core' := by
      refine (stepped hs hw).mono fun o core' hstep => ?_
      cases hstep with
      | stopped _ => exact .refl core
      | unfetched _ _ => exact .faulted core
      | @failed fault i log hr hi hx =>
        obtain ⟨fault', hx'⟩ := hinvalid' hr hi
        rw [hx'.final_eq log]
        exact .faulted core
      | @retired i log hr hi hx =>
        obtain ⟨fault', hx'⟩ := hinvalid' hr hi
        cases hx.symm.trans (hx'.result_eq log)
    exact hstep.bind (fun a core' h => (gives_pure core' none).ensures h) fun fault core' h => h
  | pushData _ | popData | peekData => cases huse

end

/-! ## The list on the stack -/

/-- The data stack and its pointer hold a list of words. -/
structure Stacked (core : Core δ) (words : List Word) : Prop where
  stack : core.memory.stack.Stacks core.profile core.stackPointer words
  le_wordMask : ∀ word ∈ words, word ≤ core.profile.wordMask

theorem SameCalls.trans (h : core.SameCalls core') (h' : core'.SameCalls core'') :
    core.SameCalls core'' :=
  ⟨h'.1.trans h.1, h'.2.1.trans h.2.1, h'.2.2.trans h.2.2⟩

/-- An action that has nothing to do with the data stack leaves it and its pointer alone. -/
def SameStack (core core' : Core δ) : Prop :=
  core'.profile = core.profile ∧ core'.stackPointer = core.stackPointer ∧
    core'.memory.stack = core.memory.stack

theorem Settles.sameStack (h : core.Settles core') (hw : core.profile.WellFormed) :
    core.SameStack core' :=
  ⟨h.profile_eq, h.stackPointer_eq hw, congrArg Memory.stack h.memory_eq⟩

theorem SameStack.trans (h : core.SameStack core') (h' : core'.SameStack core'') :
    core.SameStack core'' :=
  ⟨h'.1.trans h.1, h'.2.1.trans h.2.1, h'.2.2.trans h.2.2⟩

theorem Undone.sameStack (h : core.Undone core') : core.SameStack core' := by
  rw [h.eq]
  exact ⟨rfl, rfl, rfl⟩

theorem lasting_sameStack (core : Core δ) :
    Lasting core.profile (· ≠ core.profile.registers.stackPointer)
      fun core' => core'.Sound ∧ core.SameStack core' where
  profile_eq _ h := h.2.1
  sound _ h := h.1
  put core' _ value hr h₁ h := by
    obtain ⟨hs, hp, hsp, hstack⟩ := h
    refine ⟨hp ▸ hs.put h₁ value, hp, ?_, hstack⟩
    rw [← hsp, stackPointer, stackPointer]
    exact register_put_of_ne (hp ▸ hr.symm) _
  data _ _ _ h := h
  microcode _ _ _ h := h
  stack _ _ _ hsp _ := absurd rfl hsp
  devices _ _ h := h
  output _ _ h := h
  status _ _ h := h
  callStack _ _ _ h := h
  flags _ _ _ _ h := h

namespace Stacked

theorem of_sameStack (h : core.Stacked words) (hsame : core.SameStack core') :
    core'.Stacked words := by
  obtain ⟨hp, hsp, hstack⟩ := hsame
  constructor
  · rw [hp, hsp, hstack]
    exact h.stack
  · rw [hp]
    exact h.le_wordMask

theorem push {value : Word} (h : core.Stacked words)
    (hcap : core.memory.stack.capacity ≤ core.profile.wordMask.toNat)
    (hroom : words.length < core.memory.stack.capacity) :
    (core.pushed value).Stacked (words ++ [core.profile.mask value]) where
  stack := by
    have hsp : (core.pushed value).stackPointer = core.stackSlot := register_put_self _ _ _
    rw [hsp]
    exact h.stack.push hcap hroom (core.profile.mask value)
  le_wordMask := by
    intro word hword
    rcases List.mem_append.1 hword with hword | hword
    · exact h.le_wordMask word hword
    · rw [List.mem_singleton.1 hword]
      exact core.profile.mask_le value

theorem pop {word : Word} (h : core.Stacked (words ++ [word])) :
    (core.put core.profile.registers.stackPointer
      (core.profile.mask (core.stackPointer - 1))).Stacked words where
  stack := by
    have hsp : (core.put core.profile.registers.stackPointer
        (core.profile.mask (core.stackPointer - 1))).stackPointer =
          core.profile.mask (core.stackPointer - 1) := register_put_self _ _ _
    rw [hsp]
    exact h.stack.pop
  le_wordMask word hword := h.le_wordMask word (List.mem_append_left _ hword)

end Stacked

/-- A use of the stack comes to what the same use of the list comes to. -/
structure Fulfils (core : Core δ) (words : List Word) (use : StackUse)
    (o : Except Fault (Option Word)) (core' : Core δ) : Prop where
  outcome_eq : o = use.outcome core.profile words
  profile_eq : core'.profile = core.profile
  stacked : core'.Stacked (use.wordsAfter words o)
  delivered : ∀ pops r word, use = .deliver pops (some r) → 1 < r → words.getLast? = some word →
    core'.register r = word

/-- The run loop does not get in the way. -/
theorem Fulfils.settle {use : StackUse} {o : Except Fault (Option Word)}
    (h : core.Fulfils words use o core') (hset : core'.Settles core'')
    (hw : core.profile.WellFormed) (hdest : ∀ pops r, use = .deliver pops (some r) →
      r ≠ core.profile.registers.instructionPointer) : core.Fulfils words use o core'' where
  outcome_eq := h.outcome_eq
  profile_eq := hset.profile_eq.trans h.profile_eq
  stacked := h.stacked.of_sameStack (hset.sameStack (h.profile_eq.symm ▸ hw))
  delivered pops r word huse hr hword := by
    have hne := hdest pops r huse
    rw [← h.profile_eq] at hne
    rw [hset.register_eq r hne]
    exact h.delivered pops r word huse hr hword

/-- The data stack has the cells of the profile, and words can count them. -/
structure Addressable (core : Core δ) : Prop where
  spans : core.memory.stack.Spans .stack core.profile.stackCapacity
  le_wordMask : core.profile.stackCapacity ≤ core.profile.wordMask.toNat

namespace Addressable
variable (ha : core.Addressable)
include ha

theorem capacity_le : core.memory.stack.capacity ≤ core.profile.wordMask.toNat := by
  rw [ha.spans.capacity_eq]
  exact ha.le_wordMask

theorem outside_eq (address : Word) : core.memory.stack.outside address =
    .addressOutOfRange .stack address core.profile.stackCapacity := by
  rw [Segment.outside, ha.spans.region_eq, ha.spans.capacity_eq]

end Addressable

section
variable (ha : core.Addressable)
include ha

theorem Stacked.length_le (h : core.Stacked words) :
    words.length ≤ core.profile.stackCapacity :=
  h.stack.length_le.trans_eq ha.spans.capacity_eq

/-- The address after the last word. -/
theorem Stacked.stackSlot_eq (h : core.Stacked words) :
    core.stackSlot = UInt64.ofNat words.length :=
  h.stack.slot_eq ha.capacity_le

theorem peekData_nil (h : core.Stacked []) : core.peekData =
    .error (.addressOutOfRange .stack core.profile.stackEmpty core.profile.stackCapacity) := by
  have hempty : core.stackPointer = core.profile.stackEmpty :=
    h.stack.pointer_eq.trans (Segment.Stacks.nil core.memory.stack core.profile).pointer_eq.symm
  rw [← hempty, ← ha.outside_eq]
  exact h.stack.load_nil ha.capacity_le

theorem peekData_concat {word : Word} (h : core.Stacked (words ++ [word])) :
    core.peekData = .ok word :=
  h.stack.load_concat ha.capacity_le

variable (hs : core.Sound) (hw : core.profile.Writable) (h : core.Stacked words)
include hs hw h

theorem fulfils_push (value : Word) :
    Ensures core (pushData value) fun o core' =>
      core.Fulfils words (.push (core.profile.mask value)) (o.map fun _ => none) core' := by
  have hslot : core.stackSlot.toNat = words.length := h.stack.toNat_slot ha.capacity_le
  rcases (h.length_le ha).lt_or_eq with hroom | hfull
  · have hroom' : words.length < core.memory.stack.capacity := by
      rwa [ha.spans.capacity_eq]
    have hpush := gives_pushData hs.mask_eq hw (by rwa [hslot]) value
    refine hpush.ensures ⟨?_, rfl, ?_, by rintro _ _ _ ⟨⟩⟩
    · rw [StackUse.outcome, if_neg hroom.ne]
      rfl
    · exact h.push ha.capacity_le hroom'
  · have hfull' : ¬core.stackSlot.toNat < core.memory.stack.capacity := by
      rw [hslot, ha.spans.capacity_eq]
      exact hfull.not_lt
    refine (gives_pushData_full hfull' value).ensures ⟨?_, rfl, h, by rintro _ _ _ ⟨⟩⟩
    rw [StackUse.outcome, if_pos hfull, ha.outside_eq, h.stackSlot_eq ha, hfull]
    rfl

theorem fulfils_popData :
    Ensures core popData fun o core' =>
      core.Fulfils words (.deliver true none) (o.map some) core' := by
  rcases List.eq_nil_or_concat' words with rfl | ⟨rest, word, rfl⟩
  · exact (gives_popData_error (peekData_nil ha h)).ensures ⟨rfl, rfl, h, by rintro _ _ _ ⟨⟩⟩
  · have hpop := gives_popData hs.mask_eq hw (peekData_concat ha h)
    refine hpop.ensures ⟨?_, rfl, ?_, by rintro _ _ _ ⟨⟩⟩
    · simp [StackUse.outcome, Except.map]
    · simpa [StackUse.wordsAfter, Except.map] using h.pop

omit hs hw in
theorem fulfils_peekData :
    Ensures core (do (← get).peekData : Exec (Core δ) Word) fun o core' =>
      core.Fulfils words (.deliver false none) (o.map some) core' := by
  refine (gives_get core).bind ((gives_lift core _).ensures ?_)
  rcases List.eq_nil_or_concat' words with rfl | ⟨rest, word, rfl⟩
  · rw [peekData_nil ha h]
    exact ⟨rfl, rfl, h, by rintro _ _ _ ⟨⟩⟩
  · rw [peekData_concat ha h]
    refine ⟨?_, rfl, h, by rintro _ _ _ ⟨⟩⟩
    simp [StackUse.outcome, Except.map]

omit hs hw in
/-- An instruction that goes on with the last word to write it to a register. -/
theorem fulfils_deliver {pops : Bool} {r : UInt8} {k : Word → Exec (Core δ) Unit}
    (hprotected : r ≤ 1 → ∀ word, Gives core (k word) (.error (.writeProtected r)) core)
    (hok : 1 < r → ∀ rest word, words = rest ++ [word] → ∃ core',
      Gives core (k word) (.ok ()) core' ∧ core'.profile = core.profile ∧
        core'.register r = word ∧ core'.Stacked (if pops then rest else words)) :
    Ensures core (do k (← (← get).peekData)) fun o core' =>
      core.Fulfils words (.deliver pops (some r)) (o.map fun _ => none) core' := by
  refine (gives_get core).bind ?_
  rcases List.eq_nil_or_concat' words with rfl | ⟨rest, word, rfl⟩
  · refine (gives_lift_of core (peekData_nil ha h)).bind_error ⟨rfl, rfl, h, ?_⟩
    rintro _ _ _ _ _ ⟨⟩
  refine (gives_lift_of core (peekData_concat ha h)).bind ?_
  by_cases hr : r ≤ 1
  · refine (hprotected hr word).ensures ⟨?_, rfl, h, ?_⟩
    · simp [StackUse.outcome, hr, Except.map]
    · rintro _ _ _ ⟨⟩ hr'
      exact absurd hr (UInt8.not_le.2 hr')
  · obtain ⟨core', hk, hprofile, hregister, hstacked⟩ := hok (UInt8.not_le.1 hr) rest word rfl
    refine hk.ensures ⟨?_, hprofile, ?_, ?_⟩
    · simp [StackUse.outcome, hr, Except.map]
    · simpa [StackUse.wordsAfter, Except.map] using hstacked
    · rintro _ _ _ ⟨⟩ _ hlast
      rw [hregister]
      simpa using hlast

theorem fulfils_executePop [Device δ] {r : UInt8}
    (hr : r ≠ core.profile.registers.stackPointer) :
    Ensures core (executeTransfer (.pop (.register r))) fun o core' =>
      core.Fulfils words (.deliver true (some r)) (o.map fun _ => none) core' := by
  refine fulfils_deliver ha h (fun hr₁ word => ?_) fun hr₁ rest word hwords => ?_
  · exact (gives_setRegister_protected hr₁ word).bind_error ⟨rfl, rfl⟩
  · subst hwords
    have hle : word ≤ core.profile.wordMask :=
      h.le_wordMask word (List.mem_append_right _ List.mem_cons_self)
    have hput := gives_setRegister hs.mask_eq hr₁ word
    have hs' := hs.put hr₁ word
    rw [Profile.mask_of_le hle] at hput hs'
    set written := core.put r word with hwritten
    have ha' : written.Addressable := ⟨ha.spans, ha.le_wordMask⟩
    have hsp : written.stackPointer = core.stackPointer := register_put_of_ne hr.symm word
    have hstacked : written.Stacked (rest ++ [word]) := h.of_sameStack ⟨rfl, hsp, rfl⟩
    have hpop := gives_popData hs'.mask_eq hw (peekData_concat ha' hstacked)
    refine ⟨_, hput.bind (hpop.bind (gives_pure _ ())), rfl, ?_, hstacked.pop⟩
    exact (register_put_of_ne hr _).trans (register_put_self core r word)

omit hw in
theorem fulfils_executePeek [Device δ] {r : UInt8}
    (hr : r ≠ core.profile.registers.stackPointer) :
    Ensures core (executeTransfer (.peek (.register r))) fun o core' =>
      core.Fulfils words (.deliver false (some r)) (o.map fun _ => none) core' := by
  refine fulfils_deliver ha h (fun hr₁ word => ?_) fun hr₁ rest word hwords => ?_
  · exact gives_setRegister_protected hr₁ word
  · have hle : word ≤ core.profile.wordMask :=
      h.le_wordMask word (hwords ▸ List.mem_append_right _ List.mem_cons_self)
    have hput := gives_setRegister hs.mask_eq hr₁ word
    rw [Profile.mask_of_le hle] at hput
    refine ⟨_, hput, rfl, register_put_self core r word, h.of_sameStack ⟨rfl, ?_, rfl⟩⟩
    exact register_put_of_ne hr.symm word

/-- An instruction that uses the stack. -/
theorem fulfils_execute [Device δ] {i : Instruction} {op : Operation} {use : StackUse}
    (hi : i.operation = .ok op) (huse : core.stackUse? i op = some use)
    (hdest : ∀ pops r, use = .deliver pops (some r) → r ≠ core.profile.registers.stackPointer) :
    Ensures core (Core.execute .standard i) fun o core' =>
      core.Fulfils words use (o.map fun _ => none) core' := by
  rw [execute_eq hi]
  cases op with
  | move op =>
    cases op with
    | push =>
      cases huse
      have hread : Gives core (readOperand (Place.register i.dest)) (.ok (core.register i.dest))
          core := (gives_get core).bind (gives_pure core _)
      exact hread.bind (fulfils_push ha hs hw h _)
    | pushImmediate =>
      cases huse
      exact (gives_pure core _).bind (fulfils_push ha hs hw h _)
    | pop =>
      cases huse
      exact fulfils_executePop ha hs hw h (hdest _ _ rfl)
    | peek =>
      cases huse
      exact fulfils_executePeek ha hs h (hdest _ _ rfl)
    | _ => cases huse
  | _ => cases huse

end

/-! ## What an action comes to -/

section
variable [Device δ] {action : Action} {use : StackUse} {log : Log} (hs : core.Sound)
  (hw : core.profile.WellFormed)
include hs hw

/-- An action that uses the stack. -/
theorem fulfils_perform (ha : core.Addressable) (h : core.Stacked words)
    (huse : action.use? core = some use) (hp : core.Permitted log action) :
    core.Fulfils words use (action.perform.result core log) (action.perform.final core log) := by
  suffices hx : Ensures core action.perform (core.Fulfils words use) from hx log
  have hinstruction {i : Instruction} {op : Operation}
      (hop : action.operation? core = some (i, op)) (hu : core.stackUse? i op = some use) :
      Ensures core action.perform (core.Fulfils words use) := by
    have hdest (pops : Bool) (r : UInt8) (hr : use = .deliver pops (some r)) :=
      hp.dest pops r (huse.trans (congrArg some hr))
    have hx := fulfils_execute ha hs hw.writable h (Action.operation_eq hop) hu
      fun pops r hr => (hdest pops r hr).2.1
    refine (ensures_perform hs hw.writable hop hx).mono ?_
    rintro _ core' ⟨o, core'', hf, hset, rfl⟩
    exact hf.settle hset hw fun pops r hr => (hdest pops r hr).1
  cases action with
  | pushData value =>
    cases huse
    refine (fulfils_push ha hs hw.writable h value).bind (fun _ core' hf => ?_) fun _ _ hf => hf
    exact (gives_pure core' none).ensures hf
  | popData =>
    cases huse
    refine (fulfils_popData ha hs hw.writable h).bind (fun _ core' hf => ?_) fun _ _ hf => hf
    exact (gives_pure core' _).ensures hf
  | peekData =>
    cases huse
    refine (fulfils_peekData ha h).bind (fun _ core' hf => ?_) fun _ _ hf => hf
    exact (gives_pure core' _).ensures hf
  | execute _ | step =>
    obtain ⟨⟨i, op⟩, hop, hu⟩ := Option.bind_eq_some_iff.1 huse
    exact hinstruction hop hu

/-- A permitted action that does not use the stack leaves it alone. -/
theorem sameStack_perform (huse : action.use? core = none) (hp : core.Permitted log action) :
    core.SameStack (action.perform.final core log) := by
  cases hop : action.operation? core with
  | none => exact (settles_perform hs hw.writable hop huse log).sameStack hw
  | some io =>
    obtain ⟨i, op⟩ := io
    by_cases hsp : core.profile.registers.stackPointer ∈ op.writes core.profile.registers i
    · -- The write has not come about, since the action would have been one that is not permitted.
      have hpop (hi : i.operation = .ok (.move .pop)) :
          i.dest ≠ core.profile.registers.stackPointer := by
        cases hi.symm.trans (Action.operation_eq hop)
        cases huse.symm.trans (Action.use?_eq hop)
      have hx := reverts_execute hs hw.writable hpop
      obtain ⟨o, core', hundone, hset, ho⟩ := ensures_perform hs hw.writable hop hx log
      cases o with
      | ok a => exact absurd hsp (hp.other i op hop huse none ho)
      | error fault =>
        have hsame := (hundone fault rfl).sameStack
        exact hsame.trans (hset.sameStack (hsame.1 ▸ hw))
    · have hx : Ensures core (Core.execute .standard i) fun _ core' =>
          core'.Sound ∧ core.SameStack core' := fun log =>
        (lasting_sameStack core).keeps_execute hw.writable (Action.operation_eq hop)
          (fun r hr => ne_of_mem_of_not_mem hr hsp) core log ⟨hs, rfl, rfl, rfl⟩
      obtain ⟨o, core', ⟨-, hsame⟩, hset, -⟩ := ensures_perform hs hw.writable hop hx log
      exact hsame.trans (hset.sameStack (hsame.1 ▸ hw))

/-- An action that uses the stack leaves the call stack alone. -/
theorem sameCalls_perform (huse : action.use? core = some use) (hp : core.Permitted log action) :
    core.SameCalls (action.perform.final core log) := by
  have hcsp := hw.callPointer_ne_stackPointer
  have hapi {α : Type} {x : Exec (Core δ) α} (f : α → Option Word)
      (hx : Keeps (fun core' => core'.Sound ∧ core.SameCalls core') x) :
      core.SameCalls ((do let a ← x; return f a : Exec (Core δ) (Option Word)).final core log) :=
    (hx.bind (fun a => Keeps.pure (f a)) core log ⟨hs, rfl, rfl, rfl⟩).2
  have hstable := stable_sameCalls core
  have hinstruction {i : Instruction} {op : Operation}
      (hop : action.operation? core = some (i, op)) :
      core.SameCalls (action.perform.final core log) := by
    have hu := (Action.use?_eq hop).symm.trans huse
    have hdest (pops : Bool) (r : UInt8) (hr : use = .deliver pops (some r)) :=
      hp.dest pops r (huse.trans (congrArg some hr))
    have hwrites : op.group ≠ .jump ∧
        core.profile.registers.callPointer ∉ op.writes core.profile.registers i := by
      cases op with
      | move op =>
        refine ⟨by rintro ⟨⟩, ?_⟩
        cases op with
        | push | pushImmediate =>
          simpa [Operation.writes, Transfer.ofMove, Transfer.writes] using hcsp
        | pop | peek =>
          cases hu
          have hne := (hdest _ _ rfl).2.2.symm
          simp [Operation.writes, Transfer.ofMove, Transfer.writes, Place.registers, hcsp, hne]
        | _ => cases hu
      | _ => cases hu
    have hx : Ensures core (Core.execute .standard i) fun _ core' => core.SameCalls core' :=
      sameCalls_execute hs hw (Action.operation_eq hop) hwrites.1 hwrites.2
    obtain ⟨o, core', hsame, hset, -⟩ := ensures_perform hs hw.writable hop hx log
    exact hsame.trans (hset.sameCalls (hsame.1 ▸ hw))
  cases action with
  | pushData value =>
    exact hapi (fun _ => none) (hstable.keeps_pushData hw.writable hcsp.symm value)
  | popData => exact hapi some (hstable.keeps_popData hw.writable hcsp.symm)
  | peekData => exact hapi some (Keeps.get_bind fun _ _ => Keeps.lift _)
  | execute _ | step =>
    obtain ⟨⟨i, op⟩, hop, -⟩ := Option.bind_eq_some_iff.1 huse
    exact hinstruction hop

end

/-! ## Any number of actions -/

theorem invariant_spans (profile : Profile) :
    Invariant profile fun core : Core δ => core.profile = profile ∧ core.Sound ∧
      core.memory.stack.Spans .stack profile.stackCapacity where
  profile_eq _ h := h.1
  sound _ h := h.2.1
  put _ _ value _ hr h := ⟨h.1, h.1 ▸ h.2.1.put hr value, h.2.2⟩
  data _ _ _ h := h
  microcode _ _ _ h := h
  stack _ _ _ _ h := ⟨h.1, h.2.1, h.2.2.region_eq, by simpa [stackPart] using h.2.2.capacity_eq⟩
  devices _ _ h := h
  output _ _ h := h
  status _ _ h := h
  callStack _ _ _ h := h
  flags _ _ _ _ h := h

section
variable [Device δ]

theorem Invariant.keeps_action {profile : Profile} {I : Core δ → Prop} (h : Invariant profile I)
    (hw : profile.Writable) (action : Action) : Keeps I action.perform := by
  cases action with
  | pushData value => exact (h.keeps_pushData hw trivial value).bind fun _ => Keeps.pure _
  | popData => exact (h.keeps_popData hw trivial).bind fun _ => Keeps.pure _
  | peekData => exact Keeps.get_bind fun _ _ => (Keeps.lift _).bind fun _ => Keeps.pure _
  | execute i => exact (h.keeps_execute hw i).bind fun _ => Keeps.pure _
  | step => exact (h.keeps_step hw).bind fun _ => Keeps.pure _

/-- **A permitted action keeps the stack in agreement with the list.** -/
theorem Stacked.perform {action : Action} {log : Log} (h : core.Stacked words) (hs : core.Sound)
    (hw : core.profile.WellFormed) (ha : core.Addressable) (hp : core.Permitted log action) :
    (action.perform.final core log).Stacked
      (core.wordsAfter words action (action.perform.result core log)) := by
  rw [wordsAfter]
  cases huse : action.use? core with
  | some use => exact (fulfils_perform hs hw ha h huse hp).stacked
  | none => exact h.of_sameStack (sameStack_perform hs hw huse hp)

/-- The cores that come of a core by permitted actions after a reset, and the words that should be
on their stacks. -/
inductive Uses (start : Core δ) : Core δ → List Word → Prop
  | reset : Uses start start.reset []
  | action {core : Core δ} {words : List Word} (h : Uses start core words) (action : Action)
      (log : Log) (hp : core.Permitted log action) :
      Uses start (action.perform.final core log)
        (core.wordsAfter words action (action.perform.result core log))

/-- The data stack of a core is a list with as much room as the stack has cells. -/
structure RefinesList (core : Core δ) (words : List Word) : Prop where
  stackPointer_eq : core.stackPointer = core.profile.mask (UInt64.ofNat words.length - 1)
  cells_eq : core.memory.stack.cells.toList.take words.length = words
  /-- Pushes, pops and peeks come to what they come to on the list. -/
  outcome_eq : ∀ action use log, action.use? core = some use → core.Permitted log action →
    action.perform.result core log = use.outcome core.profile words
  delivered : ∀ action pops r word log, action.use? core = some (.deliver pops (some r)) →
    core.Permitted log action → 1 < r → words.getLast? = some word →
    (action.perform.final core log).register r = word
  /-- An action that faults leaves the stack pointer and the words. -/
  fault : ∀ action fault log, core.Permitted log action →
    action.perform.result core log = .error fault →
    (action.perform.final core log).stackPointer = core.stackPointer ∧
      (action.perform.final core log).memory.stack.cells.toList.take words.length = words
  /-- Pushes, pops and peeks have no part in calls. -/
  calls : ∀ action use log, action.use? core = some use → core.Permitted log action →
    core.SameCalls (action.perform.final core log)

variable {start : Core δ} (hw : start.profile.WellFormed)
  (hm : start.memory.LaidOut start.profile)
include hw hm

theorem Uses.spans (h : start.Uses core words) :
    core.profile = start.profile ∧ core.Sound ∧
      core.memory.stack.Spans .stack start.profile.stackCapacity := by
  induction h with
  | reset => exact ⟨rfl, RegisterFile.sound_powerOn hw.writable, hm.stack⟩
  | action _ action log _ ih =>
    exact (invariant_spans start.profile).keeps_action hw.writable action _ log ih

variable (hcap : start.profile.stackCapacity ≤ start.profile.wordMask.toNat)
include hcap

theorem Uses.addressable (h : start.Uses core words) : core.Addressable := by
  obtain ⟨hp, -, hspans⟩ := h.spans hw hm
  constructor <;> rwa [hp]

theorem Uses.stacked (h : start.Uses core words) : core.Stacked words := by
  induction h with
  | reset =>
    refine ⟨?_, by rintro _ ⟨⟩⟩
    have hsp : start.reset.stackPointer = start.profile.stackEmpty :=
      (RegisterFile.get_put_of_ne _ hw.callPointer_ne_stackPointer.symm _).trans
        (RegisterFile.get_put_self _ _ _)
    have hnil := Segment.Stacks.nil start.memory.stack start.profile
    rwa [← hsp] at hnil
  | action h action log hp ih =>
    obtain ⟨hprofile, hs, -⟩ := h.spans hw hm
    exact ih.perform hs (hprofile ▸ hw) (h.addressable hw hm hcap) hp

/-- **The data stack is a bounded list.** Whatever permitted actions are done to a core after a
    reset, its stack is the list of the words that have been pushed and not popped, and every push,
    pop and peek comes to what it comes to on the list. -/
theorem data_stack_refines_list (h : start.Uses core words) :
    core.profile = start.profile ∧ core.RefinesList words := by
  obtain ⟨hprofile, hs, -⟩ := h.spans hw hm
  have hstacked := h.stacked hw hm hcap
  have ha := h.addressable hw hm hcap
  have hw' : core.profile.WellFormed := hprofile ▸ hw
  refine ⟨hprofile, hstacked.stack.pointer_eq, hstacked.stack.take_eq, ?_, ?_, ?_, ?_⟩
  · exact fun action use log huse hp => (fulfils_perform hs hw' ha hstacked huse hp).outcome_eq
  · exact fun action pops r word log huse hp hr hword =>
      (fulfils_perform hs hw' ha hstacked huse hp).delivered pops r word rfl hr hword
  · intro action fault log hp hfault
    have hafter := h.action action log hp
    rw [hfault, wordsAfter_error] at hafter
    have hstacked' := (hafter.stacked hw hm hcap).stack
    refine ⟨?_, hstacked'.take_eq⟩
    rw [hstacked'.pointer_eq, hstacked.stack.pointer_eq, (hafter.spans hw hm).1, hprofile]
  · exact fun action use log huse hp => sameCalls_perform hs hw' huse hp

end

/-- A core with a program that pushes 7, and a stack with two cells. -/
def stacking : Core Empty :=
  codePart.set ⟨.code, #[(Instruction.moveImmediate .pushImmediate 0 7).encode, 0, 0, 0]⟩
    (powerOn .small .empty default)

theorem data_stack_refines_list_filled :
    let log := Log.ofLevel none
    let core := (Action.pushData 0x12345).perform.final
      (Action.step.perform.final stacking.reset log) log
    stacking.Uses core [7, 0x2345] ∧ core.RefinesList [7, 0x2345] ∧
      (Action.pushData 1).perform.result core log = .error (.addressOutOfRange .stack 2 2) := by
  intro log core
  have permitted {core : Core Empty} {action : Action} {value : Word}
      (h : action.use? core = some (.push value)) : core.Permitted log action :=
    ⟨fun pops r hr => (nomatch h.symm.trans hr), fun i op _ hnone => (nomatch h.symm.trans hnone)⟩
  have hstep : Action.step.use? stacking.reset = some (.push 7) := by decide +kernel
  have huses := Uses.action (.action .reset .step log (permitted hstep)) (.pushData 0x12345) log
    (permitted rfl)
  have hwords : wordsAfter (Action.step.perform.final stacking.reset log)
      (stacking.reset.wordsAfter [] .step (Action.step.perform.result stacking.reset log))
      (.pushData 0x12345) ((Action.pushData 0x12345).perform.result
        (Action.step.perform.final stacking.reset log) log) = [7, 0x2345] := by decide +kernel
  rw [hwords] at huses
  have hz := Memory.laidOut_zeroed .small
  obtain ⟨hprofile, hrefines⟩ := data_stack_refines_list (by decide)
    ⟨⟨rfl, rfl⟩, hz.data, hz.stack, hz.callStack, hz.microcode⟩ (by decide) huses
  have hfull := hrefines.outcome_eq (.pushData 1) _ log rfl (permitted rfl)
  rw [hprofile] at hfull
  exact ⟨huses, hrefines, hfull⟩

end Core

end RegisterMachine
