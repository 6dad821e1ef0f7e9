import RegisterMachine.FunctionalUnit.Arithmetic
import RegisterMachine.FunctionalUnit.Branch
import RegisterMachine.FunctionalUnit.Comparator
import RegisterMachine.FunctionalUnit.Decoder
import RegisterMachine.FunctionalUnit.Memory
import RegisterMachine.FunctionalUnit.Registers
import RegisterMachine.Proofs.Actor
import RegisterMachine.Proofs.FunctionalUnit.Session
import RegisterMachine.Proofs.Segment

/-!
# The operands of a unit

Three things have to agree for every operation of a unit: the ports that it has, the number of
operands that it asks for, and the positions at which it reads them.

* `Fault.OfProtocol`: what talking to a unit in a wrong way comes to.
* `Exec.Obeys`: an action never ends in such a fault. There is one rule for every way of building
  actions.
* `FunctionalUnit.Exact`: the ports suffice for the operands, and the operands are as many as are
  read. `decoderUnit_exact`, ..., `memoryUnit_exact`: the six units are like that.
* `FunctionalUnit.Exact.length_operands`, `FunctionalUnit.Exact.proper_outcomes`: what the loop of an
  actor makes of such a unit.
-/

namespace RegisterMachine

/-- The faults that come of talking to a unit in a wrong way: it is not running, it is given another
number of operands than it asks for, or it is lost because it read an operand that it did not have. -/
def Fault.OfProtocol : Fault → Prop
  | unitNotRunning _ | unitDisconnected _ | indexOutOfRange .operandCount _ _ => True
  | _ => False

namespace Exec

variable {σ τ α β : Type}

/-! ## Actions without such faults -/

/-- An outcome is a result or a fault that has nothing to do with the protocol. -/
def Proper (o : Except Fault α) : Prop :=
  ∀ fault, o = .error fault → ¬fault.OfProtocol

theorem proper_ok (a : α) : Proper (.ok a) :=
  fun _ h => by cases h

theorem proper_error_iff {fault : Fault} :
    Proper (.error fault : Except Fault α) ↔ ¬fault.OfProtocol := by
  constructor
  · intro h
    exact h fault rfl
  · rintro h _ ⟨⟩
    exact h

/-- `x` never ends in a fault of the protocol. -/
def Obeys (x : Exec σ α) : Prop :=
  ∀ s, Ensures s x fun o _ => Proper o

namespace Obeys
variable {x : Exec σ α} {f : α → Exec σ β}

theorem pure (a : α) : Obeys (Pure.pure a : Exec σ α) := fun _ _ => proper_ok a

theorem get : Obeys (get : Exec σ σ) := fun s _ => proper_ok s

theorem modify (g : σ → σ) : Obeys (modify g : Exec σ Unit) := fun _ _ => proper_ok ()

theorem note (level : Level) (text : Unit → String) : Obeys (Exec.note level text : Exec σ Unit) :=
  fun _ _ => proper_ok ()

theorem throw {fault : Fault} (h : ¬fault.OfProtocol) :
    Obeys (MonadExcept.throw fault : Exec σ α) :=
  fun _ _ => proper_error_iff.2 h

theorem lift {o : Except Fault α} (h : Proper o) : Obeys (liftM o : Exec σ α) :=
  fun s => (gives_lift s o).ensures h

theorem bind (hx : Obeys x) (hf : ∀ a, Obeys (f a)) : Obeys (x >>= f) := by
  intro s
  refine (hx s).bind (fun a t _ => hf a t) fun fault _ h => ?_
  exact proper_error_iff.2 (proper_error_iff.1 h)

theorem ite {c : Prop} [Decidable c] {y : Exec σ α} (hx : Obeys x) (hy : Obeys y) :
    Obeys (if c then x else y) := by
  split_ifs
  exacts [hx, hy]

theorem onPart [Inhabited τ] {part : Part σ τ} {y : Exec τ α} (hy : Obeys y) :
    Obeys (Exec.onPart part y) :=
  fun s => Ensures.onPart (hy (part.get s))

end Obeys

end Exec

open Exec

/-! ## What units are made of -/

theorem Segment.proper_load {α : Type} (segment : Segment α) (address : Word) :
    Proper (segment.load address) := by
  rw [load]
  split
  · exact proper_ok _
  · exact proper_error_iff.2 not_false

theorem Segment.obeys_store {α : Type} (address : Word) (value : α) :
    Obeys (Segment.store address value) :=
  .bind .get fun _ => .ite (.modify _) (.bind .get fun _ => .throw not_false)

theorem Segment.obeys_push (pointer value mask : Word) : Obeys (Segment.push pointer value mask) :=
  .bind (obeys_store _ _) fun _ => .pure _

theorem Segment.proper_pop (segment : Segment Word) (pointer mask : Word) :
    Proper (segment.pop pointer mask) := by
  have hload := segment.proper_load pointer
  rw [pop_eq]
  cases hvalue : segment.load pointer with
  | ok value => exact proper_ok _
  | error fault => exact proper_error_iff.2 (hload fault hvalue)

theorem RegisterFile.obeys_set (r : UInt8) (value : Word) : Obeys (RegisterFile.set r value) :=
  .ite (.throw not_false) (.modify _)

theorem ArithmeticOp.proper_eval (op : ArithmeticOp) (a b : Word) : Proper (op.eval a b) := by
  have hzero (o : Except Fault Word) (ho : Proper o) :
      Proper (if b = 0 then .error .divideByZero else o) := by
    split_ifs
    · exact proper_error_iff.2 not_false
    · exact ho
  cases op
  case div | divImmediate | rem | remImmediate => exact hzero _ (proper_ok _)
  all_goals exact proper_ok _

theorem BranchUnit.obeys_follow (ip csp : Word) (flow : Flow) : Obeys (follow ip csp flow) := by
  cases flow with
  | next | goto address => exact .bind .get fun _ => .pure _
  | call address =>
    refine .bind .get fun _ => ?_
    exact .bind (.onPart (Segment.obeys_push _ _ _)) fun _ => .pure _
  | ret =>
    refine .bind .get fun _ => ?_
    exact .bind (.lift (Segment.proper_pop _ _ _)) fun _ => .pure _

namespace FunctionalUnit

variable {σ ω ρ α : Type} {unit : FunctionalUnit σ ω ρ} {name : String} {operands : List Word}
  {position : ℕ}

/-! ## Reading operands -/

theorem obeys_operand (h : position < operands.length) :
    Obeys (operand name operands position : Exec σ Word) :=
  fun s => (gives_operand s name (List.getElem?_eq_getElem h)).ensures (proper_ok _)

/-- A unit that goes on to be lost whenever it has an operand is lost in any case. -/
theorem gives_operand_bind {state : σ} {f : Word → Exec σ α}
    (hf : position < operands.length → ∀ value,
      Gives state (f value) (.error (.unitDisconnected name)) state) :
    Gives state (operand name operands position >>= f) (.error (.unitDisconnected name)) state := by
  by_cases h : position < operands.length
  · exact (gives_operand state name (List.getElem?_eq_getElem h)).bind (hf h _)
  · have hmissing : Gives state (operand name operands position) (.error (.unitDisconnected name))
        state := by
      rw [operand, List.getElem?_eq_none (Nat.not_lt.1 h)]
      exact gives_throw state _
    exact hmissing.bind_error ⟨rfl, rfl⟩

/-! ## The units -/

/-- A unit has a port for every operand that an operation asks for, and asks for just as many as it
reads: with fewer it is lost, with as many it is not. -/
structure Exact (unit : FunctionalUnit σ ω ρ) : Prop where
  ports : ∀ op, unit.operandCount op ≤ unit.ports
  short : ∀ op operands state, operands.length < unit.operandCount op →
    Gives state (unit.execute op operands) (.error (.unitDisconnected unit.name)) state
  enough : ∀ op operands, unit.operandCount op ≤ operands.length →
    Obeys (unit.execute op operands)

end FunctionalUnit

open FunctionalUnit

theorem decoderUnit_exact : decoderUnit.Exact where
  ports _ := Nat.le_refl 1
  short _ operands _ h := by
    refine gives_operand_bind fun h₀ => ?_
    exact absurd h (Nat.not_lt.2 h₀)
  enough _ operands h :=
    .bind (obeys_operand h) fun _ => .ite (.pure _) (.throw not_false)

theorem registerUnit_exact : registerUnit.Exact where
  ports op := by
    cases op with
    | read r => exact Nat.zero_le 1
    | write r => exact Nat.le_refl 1
  short op operands state h := by
    cases op with
    | read r => exact absurd h (Nat.not_lt_zero _)
    | write r =>
      refine gives_operand_bind fun h₀ => ?_
      exact absurd h (Nat.not_lt.2 h₀)
  enough op operands h := by
    cases op with
    | read r => exact .bind .get fun _ => .pure _
    | write r =>
      refine .bind (obeys_operand h) fun _ => .bind (RegisterFile.obeys_set _ _) fun _ => ?_
      exact .bind .get fun _ => .pure _

theorem arithmeticUnit_exact : arithmeticUnit.Exact where
  ports _ := Nat.le_refl 2
  short _ operands state h := by
    refine (gives_get state).bind ?_
    refine gives_operand_bind fun _ _ => gives_operand_bind fun h₁ => ?_
    exact absurd h (Nat.not_lt.2 h₁)
  enough op operands h := by
    have h : 1 < operands.length := h
    refine .bind .get fun _ => .bind (obeys_operand (by omega)) fun _ => ?_
    refine .bind (obeys_operand h) fun _ => .bind (.lift (op.proper_eval _ _)) fun _ => ?_
    exact .pure _

theorem compareUnit_exact : compareUnit.Exact where
  ports _ := Nat.le_refl 3
  short _ operands state h := by
    refine gives_operand_bind fun _ _ => gives_operand_bind fun _ _ => gives_operand_bind fun h₂ => ?_
    exact absurd h (Nat.not_lt.2 h₂)
  enough _ operands h := by
    have h : 2 < operands.length := h
    refine .bind (obeys_operand (by omega)) fun _ => .bind (obeys_operand (by omega)) fun _ => ?_
    exact .bind (obeys_operand h) fun _ => .pure _

theorem branchUnit_exact : branchUnit.Exact where
  ports _ := Nat.le_refl 3
  short _ operands state h := by
    refine gives_operand_bind fun _ _ => gives_operand_bind fun _ _ => gives_operand_bind fun h₂ => ?_
    exact absurd h (Nat.not_lt.2 h₂)
  enough _ operands h := by
    have h : 2 < operands.length := h
    refine .bind (obeys_operand (by omega)) fun _ => .bind (obeys_operand (by omega)) fun _ => ?_
    exact .bind (obeys_operand h) fun _ => BranchUnit.obeys_follow _ _ _

namespace MemoryUnit
variable {operands : List Word} (part : Part MemoryUnit (Segment Word))

theorem gives_storeOperand_short (state : MemoryUnit) (h : operands.length < 2) :
    Gives state (storeOperand part operands) (.error (.unitDisconnected "memory controller"))
      state := by
  refine gives_operand_bind fun _ _ => gives_operand_bind fun h₁ => ?_
  exact absurd h (Nat.not_lt.2 h₁)

theorem obeys_storeOperand (h : 2 ≤ operands.length) : Obeys (storeOperand part operands) := by
  refine .bind (obeys_operand (by omega)) fun _ => .bind (obeys_operand h) fun _ => ?_
  exact .bind .get fun _ => .bind (.onPart (Segment.obeys_store _ _)) fun _ => .pure _

end MemoryUnit

theorem memoryUnit_exact : memoryUnit.Exact where
  ports op := by cases op <;> decide
  short op operands state h := by
    cases op with
    | load | loadMicrocode | pop | peek =>
      refine gives_operand_bind fun h₀ => ?_
      exact absurd h (Nat.not_lt.2 h₀)
    | store | storeMicrocode => exact MemoryUnit.gives_storeOperand_short _ state h
    | push =>
      refine gives_operand_bind fun _ _ => gives_operand_bind fun h₁ => ?_
      exact absurd h (Nat.not_lt.2 h₁)
  enough op operands h := by
    cases op with
    | load | loadMicrocode | peek =>
      exact .bind (obeys_operand h) fun _ => .bind .get fun _ => .lift (Segment.proper_load _ _)
    | store | storeMicrocode => exact MemoryUnit.obeys_storeOperand _ h
    | push =>
      have h : 1 < operands.length := h
      refine .bind (obeys_operand (by omega)) fun _ => .bind (obeys_operand h) fun _ => ?_
      exact .bind .get fun _ => .onPart (Segment.obeys_push _ _ _)
    | pop =>
      refine .bind (obeys_operand h) fun _ => .bind .get fun _ => ?_
      exact .bind (.lift (Segment.proper_pop _ _ _)) fun _ => .pure _

/-! ## The loop -/

namespace FunctionalUnit.Exact

variable {σ ω ρ : Type} {unit : FunctionalUnit σ ω ρ} (h : unit.Exact)
include h

theorem obeys_perform {op : ω} {operands : List Word}
    (hlen : unit.operandCount op ≤ operands.length) : Obeys (unit.perform op operands) :=
  .bind (.note _ _) fun _ => h.enough op operands hlen

/-- The loop executes an operation with as many operands as it asks for. -/
theorem length_operands {start : σ} {events : List (Session.Event ω ρ)} {s : Session σ ω ρ}
    (hs : Session.Reaches unit start events s) :
    ∀ job ∈ Session.jobs events, job.operands.length = unit.operandCount job.op := by
  intro job hjob
  exact (hs.ledger.length_operands job hjob).trans (min_eq_left (h.ports job.op))

/-- Operations that are executed with enough operands do not lose the unit. -/
theorem proper_outcomes {jobs : List (Job ω)}
    (hjobs : ∀ job ∈ jobs, unit.operandCount job.op ≤ job.operands.length) (state : σ) :
    ∀ o ∈ Session.outcomes unit state jobs, Proper o := by
  induction jobs generalizing state with
  | nil => exact fun _ ho => absurd ho List.not_mem_nil
  | cons job jobs ih =>
    rw [List.forall_mem_cons] at hjobs
    rw [Session.outcomes, List.forall_mem_cons]
    exact ⟨h.obeys_perform hjobs.1 state job.log, ih hjobs.2 _⟩

end FunctionalUnit.Exact

end RegisterMachine
