import RegisterMachine.Proofs.Coding
import RegisterMachine.Proofs.Core.Actions

/-!
# Chains of compares

Compares build up a condition in the predicate, one after the other. The opposite condition is
built up by the complementary relations, with `and` and `or` exchanged. An exclusive or stays as it
is: it passes on that the predicate before it is the opposite one.

* `CompareOp.eval_inverse`: one compare, on a predicate and on its opposite.
* `Core.verdict`: the predicate that a chain leads to. `Core.gives_chain`: a chain leaves the core
  with that predicate and changes nothing else.
* `Core.gives_branchIf`: the branches that follow a chain.
* `Core.chain_inverted`: a chain and its inverse have the same meaning, up to the branch.
-/

namespace RegisterMachine

/-! ## Operations -/

/-- The relation that holds where another does not. -/
def Relation.complement : Relation → Relation
  | equal => notEqual
  | notEqual => equal
  | lessThan => greaterThanOrEqual
  | greaterThan => lessThanOrEqual
  | lessThanOrEqual => greaterThan
  | greaterThanOrEqual => lessThan

/-- The combinator that does to opposites what another does. -/
def Combinator.dual : Combinator → Combinator
  | overwrite => overwrite
  | and => or
  | or => and
  | xor => xor

/-- The compare that makes of the opposite predicate the opposite of what another makes of it. -/
def CompareOp.inverse (op : CompareOp) : CompareOp :=
  if op.combinator = .xor then op else ⟨op.relation.complement, op.combinator.dual⟩

theorem Relation.holds_complement (relation : Relation) (a b : Word) :
    relation.complement.holds a b = !relation.holds a b := by
  cases relation with
  | equal => rfl
  | notEqual => exact (Bool.not_not _).symm
  | lessThan | greaterThan | lessThanOrEqual | greaterThanOrEqual =>
    simp only [complement, holds, ← decide_not, UInt64.not_lt, UInt64.not_le]

theorem Combinator.combine_dual {combinator : Combinator} (h : combinator ≠ xor)
    (old new : Bool) : combinator.dual.combine (!old) (!new) = !combinator.combine old new := by
  cases combinator with
  | overwrite => rfl
  | and => exact (Bool.not_and old new).symm
  | or => exact (Bool.not_or old new).symm
  | xor => exact absurd rfl h

theorem CompareOp.eval_inverse (op : CompareOp) (predicate : Bool) (a b : Word) :
    op.inverse.eval (!predicate) a b = !op.eval predicate a b := by
  obtain ⟨relation, combinator⟩ := op
  unfold inverse
  split_ifs with h
  · cases h
    exact Bool.not_xor _ _
  · rw [eval, eval, Relation.holds_complement]
    exact Combinator.combine_dual h _ _

/-- The branch to an immediate that is taken if the predicate is `polarity`. -/
def JumpOp.branchIf (polarity : Bool) : JumpOp :=
  if polarity then branchIfTrue else branchIfFalse

/-! ## Instructions -/

namespace Instruction
variable {i : Instruction} {op : CompareOp} {predicate : UInt8}

/-- The compare instruction on the same registers with the inverse operation. Other instructions
stay as they are. -/
def inverse (i : Instruction) : Instruction :=
  match i.operation with
  | .ok (.compare op) => { i with code := ⟨_, (Operation.compare op.inverse).code_lt⟩ }
  | _ => i

/-- An instruction compares two registers, and `predicate` is none of the two. -/
structure Compares (i : Instruction) (predicate : UInt8) : Prop where
  exists_operation : ∃ op, i.operation = .ok (.compare op)
  src0_ne : i.src0 ≠ predicate
  src1_ne : i.src1 ≠ predicate

theorem inverse_eq (h : i.operation = .ok (.compare op)) :
    i.inverse = { i with code := ⟨_, (Operation.compare op.inverse).code_lt⟩ } := by
  rw [inverse, h]

theorem operation_inverse (h : i.operation = .ok (.compare op)) :
    i.inverse.operation = .ok (.compare op.inverse) := by
  rw [inverse_eq h, operation_eq_ok_iff]
  exact ⟨(operation_eq_ok_iff.1 h).1, rfl⟩

theorem Compares.inverse (h : i.Compares predicate) : i.inverse.Compares predicate := by
  obtain ⟨⟨op, hop⟩, h₀, h₁⟩ := h
  refine ⟨⟨op.inverse, operation_inverse hop⟩, ?_, ?_⟩
  · rwa [inverse_eq hop]
  · rwa [inverse_eq hop]

end Instruction

/-- A machine can keep the outcome of a compare and can branch on it: the predicate and the
instruction pointer are registers of their own that can be written, and there is a bit in a word. -/
structure Profile.Branches (profile : Profile) : Prop where
  wordBits : 1 ≤ profile.wordBits
  predicate : 1 < profile.registers.predicate
  instructionPointer : 1 < profile.registers.instructionPointer
  ne : profile.registers.instructionPointer ≠ profile.registers.predicate

namespace Core

open Exec

variable {δ : Type} {core : Core δ} {chain : List Instruction} {i : Instruction}

/-! ## Verdicts -/

/-- The core with a predicate. -/
def withPredicate (core : Core δ) (value : Bool) : Core δ :=
  core.put core.profile.registers.predicate (if value then 1 else 0)

/-- The predicate after an instruction that compares registers of a core. -/
def judge (core : Core δ) (predicate : Bool) (i : Instruction) : Bool :=
  match i.operation with
  | .ok (.compare op) => op.eval predicate (core.register i.src0) (core.register i.src1)
  | _ => predicate

/-- The predicate after a chain of instructions that compare registers of a core. -/
def verdict (core : Core δ) (predicate : Bool) (chain : List Instruction) : Bool :=
  chain.foldl core.judge predicate

@[simp] theorem predicate_withPredicate (core : Core δ) (value : Bool) :
    (core.withPredicate value).predicate = value := by
  have hregister := register_put_self core core.profile.registers.predicate (if value then 1 else 0)
  change ((core.withPredicate value).register _ != 0) = value
  rw [withPredicate, put_profile, hregister]
  cases value <;> rfl

@[simp] theorem withPredicate_put (core : Core δ) (word : Word) (value : Bool) :
    (core.put core.profile.registers.predicate word).withPredicate value =
      core.withPredicate value :=
  put_put_self core _ _ _

@[simp] theorem withPredicate_withPredicate (core : Core δ) (value value' : Bool) :
    (core.withPredicate value).withPredicate value' = core.withPredicate value' :=
  withPredicate_put core _ _

/-- What a chain comes to does not depend on what the predicate register holds, but only on the
predicate it is taken to start with. -/
theorem judge_put (h : i.Compares core.profile.registers.predicate) (word : Word)
    (predicate : Bool) :
    (core.put core.profile.registers.predicate word).judge predicate i =
      core.judge predicate i := by
  rw [judge, judge, register_put_of_ne h.src0_ne, register_put_of_ne h.src1_ne]

theorem verdict_put (h : ∀ i ∈ chain, i.Compares core.profile.registers.predicate) (word : Word)
    (predicate : Bool) :
    (core.put core.profile.registers.predicate word).verdict predicate chain =
      core.verdict predicate chain := by
  induction chain generalizing predicate with
  | nil => rfl
  | cons i chain ih =>
    rw [List.forall_mem_cons] at h
    rw [verdict, List.foldl_cons, judge_put h.1]
    exact ih h.2 _

theorem judge_inverse (core : Core δ) (predicate : Bool) (i : Instruction) :
    core.judge (!predicate) i.inverse = !core.judge predicate i := by
  by_cases h : ∃ op, i.operation = .ok (.compare op)
  · obtain ⟨op, hop⟩ := h
    rw [judge, Instruction.operation_inverse hop, judge, hop, Instruction.inverse_eq hop]
    exact op.eval_inverse _ _ _
  · have hinverse : i.inverse = i := by
      unfold Instruction.inverse
      split
      · next op hop => exact absurd ⟨op, hop⟩ h
      · rfl
    have hjudge (predicate : Bool) : core.judge predicate i = predicate := by
      unfold judge
      split
      · next op hop => exact absurd ⟨op, hop⟩ h
      · rfl
    rw [hinverse, hjudge, hjudge]

/-- The opposite predicate goes along with the inverse of a chain. -/
theorem verdict_inverse (core : Core δ) (predicate : Bool) (chain : List Instruction) :
    core.verdict (!predicate) (chain.map Instruction.inverse) = !core.verdict predicate chain := by
  induction chain generalizing predicate with
  | nil => rfl
  | cons i chain ih =>
    rw [verdict, List.map_cons, List.foldl_cons, judge_inverse]
    exact ih _

/-! ## Running a chain -/

section
variable (core) (hmask : core.registers.mask = core.profile.wordMask) (hp : core.profile.Branches)
include hmask hp

theorem gives_setPredicate_bit (value : Bool) :
    Gives core (setPredicate value) (.ok ()) (core.withPredicate value) := by
  have hbit : core.profile.mask (if value then 1 else 0) = if value then 1 else 0 := by
    refine Profile.mask_of_le ?_
    cases value
    · exact UInt64.zero_le
    · exact Profile.one_le_wordMask hp.wordBits
  have hset := gives_setRegister hmask hp.predicate (if value then 1 else 0)
  rw [hbit] at hset
  exact (gives_get core).bind hset

variable [Device δ] (calls : SystemCallTable δ)

theorem gives_compare (hi : i.Compares core.profile.registers.predicate) :
    Gives core (execute calls i) (.ok ()) (core.withPredicate (core.judge core.predicate i)) := by
  obtain ⟨op, hop⟩ := hi.exists_operation
  rw [execute_eq hop, judge, hop]
  exact (gives_get core).bind (gives_setPredicate_bit core hmask hp _)

/-- Once there is an outcome in the predicate, the rest of a chain goes on with it. -/
theorem gives_rest (h : ∀ i ∈ chain, i.Compares core.profile.registers.predicate)
    (value : Bool) :
    Gives (core.withPredicate value) (chain.forM (execute calls)) (.ok ())
      (core.withPredicate (core.verdict value chain)) := by
  induction chain generalizing value with
  | nil => exact gives_pure _ _
  | cons i chain ih =>
    rw [List.forall_mem_cons] at h
    have hi := gives_compare (core.withPredicate value) hmask hp calls h.1
    have hjudge : (core.withPredicate value).judge value i = core.judge value i :=
      judge_put h.1 _ _
    rw [predicate_withPredicate, hjudge, withPredicate_withPredicate] at hi
    exact hi.bind (ih h.2 _)

/-- A chain leaves its verdict in the predicate and changes nothing else. -/
theorem gives_chain (hne : chain ≠ [])
    (h : ∀ i ∈ chain, i.Compares core.profile.registers.predicate) :
    Gives core (chain.forM (execute calls)) (.ok ())
      (core.withPredicate (core.verdict core.predicate chain)) := by
  cases chain with
  | nil => exact absurd rfl hne
  | cons i chain =>
    rw [List.forall_mem_cons] at h
    exact (gives_compare core hmask hp calls h.1).bind (gives_rest core hmask hp calls h.2 _)

/-! ## Branching -/

theorem gives_branchIf {polarity : Bool}
    (hi : i.operation = .ok (.jump (.branchIf polarity))) :
    Gives core (execute calls i) (.ok ()) (core.jumped
      (if core.predicate = polarity then i.immediate.toUInt64 else core.nextAddress)) := by
  have hjumpTo := gives_jumpTo hmask hp.instructionPointer
  have hflow : core.flow (.branchIf polarity) i =
      if core.predicate = polarity then .goto i.immediate.toUInt64 else .next := by
    cases polarity <;> rfl
  rw [execute_eq hi]
  refine ensures_executeJump ?_
  rw [hflow]
  split_ifs
  · exact hjumpTo _
  · exact (gives_get core).bind (hjumpTo _)

end

/-! ## Inverting a chain -/

/-- **A chain of compares can be inverted.** From a core with the opposite predicate, the inverse of
    a chain leaves the opposite predicate, and neither changes anything else. A branch after the
    one goes where the branch on the opposite predicate goes after the other. -/
theorem chain_inverted [Device δ] (calls : SystemCallTable δ) (core : Core δ) (word : Word)
    (hmask : core.registers.mask = core.profile.wordMask) (hp : core.profile.Branches)
    (hne : chain ≠ []) (h : ∀ i ∈ chain, i.Compares core.profile.registers.predicate)
    (hword : (word != 0) = !core.predicate) :
    let other := core.put core.profile.registers.predicate word
    let verdict := core.verdict core.predicate chain
    Gives core (chain.forM (execute calls)) (.ok ()) (core.withPredicate verdict) ∧
    Gives other ((chain.map Instruction.inverse).forM (execute calls)) (.ok ())
      (core.withPredicate !verdict) ∧
    ∀ (polarity : Bool) (branch branch' : Instruction),
      branch.operation = .ok (.jump (.branchIf polarity)) →
      branch'.operation = .ok (.jump (.branchIf !polarity)) →
      branch'.immediate = branch.immediate →
      ∃ address,
        Gives (core.withPredicate verdict) (execute calls branch) (.ok ())
          ((core.withPredicate verdict).jumped address) ∧
        Gives (core.withPredicate !verdict) (execute calls branch') (.ok ())
          ((core.withPredicate !verdict).jumped address) := by
  intro other verdict
  have hpredicate : other.predicate = !core.predicate := by
    rw [← hword]
    exact congrArg (· != 0) (register_put_self core _ word)
  have hinverse : ∀ i ∈ chain.map Instruction.inverse,
      i.Compares core.profile.registers.predicate := by
    intro _ hmem
    obtain ⟨i, hi, rfl⟩ := List.mem_map.1 hmem
    exact (h i hi).inverse
  have hverdict : other.verdict other.predicate (chain.map Instruction.inverse) = !verdict := by
    rw [hpredicate, verdict_put hinverse, verdict_inverse]
  refine ⟨gives_chain core hmask hp calls hne h, ?_, fun polarity branch branch' hb hb' himm => ?_⟩
  · have hother := gives_chain other hmask hp calls (by simpa using hne) hinverse
    rwa [hverdict, withPredicate_put] at hother
  · have hx := gives_branchIf (core.withPredicate verdict) hmask hp calls hb
    have hx' := gives_branchIf (core.withPredicate !verdict) hmask hp calls hb'
    have hnext (value : Bool) : (core.withPredicate value).nextAddress = core.nextAddress := by
      rw [nextAddress, nextAddress, instructionPointer, withPredicate, put_profile,
        register_put_of_ne hp.ne]
      rfl
    have hcond : (!verdict) = (!polarity) ↔ verdict = polarity := Bool.not_inj_iff
    simp only [predicate_withPredicate, hnext, himm, hcond] at hx hx'
    exact ⟨_, hx, hx'⟩

/-- A core with two numbers to compare. Its predicate is true without being 1. -/
def comparing : Core Empty :=
  (((powerOn .small .empty default).put 8 3).put 9 7).put 4 5

/-- The second compare looks at the outcome of the first, which is negated for the inverse. -/
theorem chain_inverted_comparing :
    let chain := [Instruction.compare ⟨.greaterThanOrEqual, .and⟩ 9 8,
      Instruction.compare ⟨.lessThan, .xor⟩ 9 8]
    let inverse := [Instruction.compare ⟨.lessThan, .or⟩ 9 8,
      Instruction.compare ⟨.lessThan, .xor⟩ 9 8]
    Gives comparing (chain.forM (execute .standard)) (.ok ()) (comparing.put 4 1) ∧
    Gives (comparing.put 4 0) (inverse.forM (execute .standard)) (.ok ()) (comparing.put 4 0) ∧
    ∃ address,
      Gives (comparing.put 4 1) (execute .standard (Instruction.jumpImmediate .branchIfTrue 2))
        (.ok ()) ((comparing.put 4 1).jumped address) ∧
      Gives (comparing.put 4 0) (execute .standard (Instruction.jumpImmediate .branchIfFalse 2))
        (.ok ()) ((comparing.put 4 0).jumped address) := by
  intro chain inverse
  have hp : comparing.profile.Branches := ⟨by decide, by decide, by decide, by decide⟩
  have hchain : ∀ i ∈ chain, i.Compares comparing.profile.registers.predicate := by
    simp only [chain, List.forall_mem_cons, List.not_mem_nil, false_imp_iff, implies_true, and_true]
    exact ⟨⟨⟨_, rfl⟩, by decide, by decide⟩, ⟨⟨_, rfl⟩, by decide, by decide⟩⟩
  have hinverse : chain.map Instruction.inverse = inverse := by decide
  have hverdict : comparing.verdict comparing.predicate chain = true := by decide +kernel
  obtain ⟨hx, hx', hbranch⟩ := chain_inverted .standard comparing 0 rfl hp
    (List.cons_ne_nil _ _) hchain (by decide +kernel)
  rw [hverdict] at hx hx' hbranch
  rw [hinverse] at hx'
  exact ⟨hx, hx', hbranch true _ _ rfl rfl (by decide)⟩

end Core

end RegisterMachine
