import RegisterMachine.FunctionalUnit.Registers
import RegisterMachine.Proofs.FunctionalUnit.Contacts

/-!
# The loop of an actor serves in order

Whatever happens around it, the loop of an actor executes the operations in the order in which it
has received them, each with the operands that are next at its ports, and hands out one message for
each. A stop makes it lose at most the operation in work.

* `Session.Ledger.executed_eq`, `Session.Ledger.operand_eq`: what has been executed, and with what.
* `Session.Serves`: what a run comes to.
* `Session.serves_in_order`: every run does.
-/

namespace RegisterMachine

open Exec

namespace Session

variable {σ ω ρ : Type} {unit : FunctionalUnit σ ω ρ} {start : σ} {events : List (Event ω ρ)}
  {s : Session σ ω ρ}

/-! ## What a run comes to -/

/-- The operation that a loop had in work when it left has not had its operands. -/
theorem Reaches.short_of_left (h : Reaches unit start events s) (hl : s.left = true) {op : ω}
    {operands : List Word} (hp : s.phase = some (.gathering op operands)) :
    operands.length < needed unit op := by
  induction h with
  | nil => cases hl
  | step _ hs ih =>
    cases hs with
    | around hs => cases hs <;> exact ih hl hp
    | turn hl' hs =>
      cases hs with
      | leave hm =>
        have hp : _ = some (Phase.gathering op operands) := hp
        rw [MayLeave, hp] at hm
        exact hm.1
      | _ => cases hl'.symm.trans hl

/-- What a loop has done by some point of a run, and what it has kept of it. -/
structure Serves (unit : FunctionalUnit σ ω ρ) (start : σ) (events : List (Event ω ρ))
    (s : Session σ ω ρ) : Prop where
  /-- What senders come with is received in order, or waits. -/
  operations_fifo : offeredOperations events = received events ++ s.operations
  operands_fifo : ∀ port, offeredOperands events port = taken events port ++ s.operands port
  /-- The operations are executed in the order in which they have been received. -/
  executed_eq : ∀ (k : ℕ) (job : Job ω), (jobs events)[k]? = some job →
    (received events)[k]? = some job.op
  length_received_le : (received events).length ≤ (jobs events).length + 1
  length_operands : ∀ job ∈ jobs events, job.operands.length = unit.operandCount job.op
  /-- An operand is the first at its port that no earlier operation has consumed. -/
  operand_eq : ∀ (k : ℕ) (job : Job ω), (jobs events)[k]? = some job →
    ∀ port < unit.operandCount job.op,
    job.operands[port]? = (taken events port)[consumed unit port ((jobs events).take k)]?
  length_taken_le : ∀ port, (taken events port).length ≤ consumed unit port (jobs events) + 1
  /-- The messages are the outcomes, in order, and at most one has not been taken. -/
  delivered_eq : delivered events =
    (outcomes unit start (jobs events)).take (delivered events).length
  length_delivered_le : (delivered events).length ≤ (jobs events).length
  length_jobs_le : (jobs events).length ≤ (delivered events).length + 1
  state_eq : s.state = stateAfter unit start (jobs events)
  /-- A loop that has left has executed what it has received, unless operands were missing. -/
  abandoned : s.left = true → (jobs events).length < (received events).length →
    ∃ op operands, s.phase = some (.gathering op operands) ∧
      (received events)[(jobs events).length]? = some op ∧
      operands.length < unit.operandCount op
  /-- The actor comes to the same, and hands the unit back when it is stopped. -/
  handedBack : ∀ log, ∃ actor,
    Actor.Contacts unit ((Actor.start unit).final (.ofState start) log) (delivered events) actor ∧
      ((Actor.stop unit).final actor log).state? = some s.state

theorem length_current_le (phase : Option (Phase ω ρ)) : (current phase).length ≤ 1 := by
  unfold current
  split <;> simp

theorem length_pending_le (phase : Option (Phase ω ρ)) : (pending phase).length ≤ 1 := by
  unfold pending
  split <;> simp

theorem getElem?_filterMap_length {α β : Type} (f : α → Option β) {l : List α} {k : ℕ} {a : α}
    {b : β} (ha : l[k]? = some a) (hb : f a = some b) :
    (l.filterMap f)[((l.take k).filterMap f).length]? = some b := by
  obtain ⟨hk, rfl⟩ := List.getElem?_eq_some_iff.1 ha
  have hsplit : l.filterMap f =
      (l.take k).filterMap f ++ b :: (l.drop (k + 1)).filterMap f := by
    rw [← List.filterMap_cons_some hb, ← List.filterMap_append, ← List.drop_eq_getElem_cons hk,
      List.take_append_drop]
  rw [hsplit, List.getElem?_append_right (Nat.le_refl _), Nat.sub_self]
  rfl

namespace Ledger
variable (h : Ledger unit start events s) (hports : ∀ op, unit.operandCount op ≤ unit.ports)
include h

theorem executed_eq {k : ℕ} {job : Job ω} (hjob : (jobs events)[k]? = some job) :
    (received events)[k]? = some job.op := by
  have hk := (List.getElem?_eq_some_iff.1 hjob).1
  rw [h.received_eq, List.getElem?_append_left (by simpa using hk), List.getElem?_map, hjob]
  rfl

theorem delivered_eq : delivered events =
    (outcomes unit start (jobs events)).take (delivered events).length := by
  rw [h.outcomes_eq, List.take_left]

theorem length_jobs : (jobs events).length = (delivered events).length + (pending s.phase).length := by
  rw [← length_outcomes unit start (jobs events), h.outcomes_eq, List.length_append]

theorem taken_eq_append (port : ℕ) : taken events port =
    (jobs events).filterMap (·.operands[port]?) ++ (current s.phase).filterMap (·.2[port]?) := by
  rw [h.taken_eq, List.filterMap_append, List.filterMap_map, List.filterMap_map]
  rfl

include hports

theorem length_operands_eq {job : Job ω} (hjob : job ∈ jobs events) :
    job.operands.length = unit.operandCount job.op :=
  (h.length_operands job hjob).trans (min_eq_left (hports job.op))

theorem length_filterMap_operands {jobs' : List (Job ω)} (hsub : ∀ job ∈ jobs', job ∈ jobs events)
    (port : ℕ) : (jobs'.filterMap (·.operands[port]?)).length = consumed unit port jobs' := by
  rw [List.length_filterMap_eq_countP]
  refine List.countP_congr fun job hjob => ?_
  simp [h.length_operands_eq hports (hsub job hjob)]

/-- An operand is found behind those of the earlier operations. -/
theorem operand_eq {k : ℕ} {job : Job ω} (hjob : (jobs events)[k]? = some job) {port : ℕ}
    (hport : port < unit.operandCount job.op) :
    job.operands[port]? = (taken events port)[consumed unit port ((jobs events).take k)]? := by
  rw [← h.length_operands_eq hports (List.mem_of_getElem? hjob)] at hport
  have hvalue := getElem?_filterMap_length (·.operands[port]?) hjob
    (List.getElem?_eq_getElem hport)
  rw [h.length_filterMap_operands hports fun job => List.mem_of_mem_take] at hvalue
  rw [h.taken_eq_append, List.getElem?_append_left (List.getElem?_eq_some_iff.1 hvalue).1, hvalue]
  exact List.getElem?_eq_getElem hport

theorem length_taken_le (port : ℕ) :
    (taken events port).length ≤ consumed unit port (jobs events) + 1 := by
  have hcurrent : ((current s.phase).filterMap (·.2[port]?)).length ≤ 1 :=
    (List.length_filterMap_le _ _).trans (length_current_le s.phase)
  rw [h.taken_eq_append, List.length_append, h.length_filterMap_operands hports fun _ => id]
  omega

end Ledger

theorem Reaches.queued (h : Reaches unit start events s) : Queued events s := by
  induction h with
  | nil => constructor <;> simp [offeredOperations, offeredOperands, received, taken, begun]
  | step _ hs ih => exact ih.step hs

/-- **The loop of an actor serves in order.** Whatever happens around it and in whatever order, it
    executes the operations in the order in which it has received them, each with the operands that
    are next at its ports, and hands out one message for each, in order. The unit that a stop hands
    back has executed the operations whose messages were taken, and at most one more. -/
theorem serves_in_order (hports : ∀ op, unit.operandCount op ≤ unit.ports)
    (h : Reaches unit start events s) : Serves unit start events s where
  operations_fifo := h.queued.operations_eq
  operands_fifo := h.queued.operands_eq
  executed_eq _ _ hjob := h.ledger.executed_eq hjob
  length_received_le := by
    have hcurrent := length_current_le s.phase
    rw [h.ledger.received_eq, List.length_append, List.length_map, List.length_map]
    omega
  length_operands _ hjob := h.ledger.length_operands_eq hports hjob
  operand_eq _ _ hjob _ hport := h.ledger.operand_eq hports hjob hport
  length_taken_le := h.ledger.length_taken_le hports
  delivered_eq := h.ledger.delivered_eq
  length_delivered_le := by
    have hjobs := h.ledger.length_jobs
    omega
  length_jobs_le := by
    have hjobs := h.ledger.length_jobs
    have hpending := length_pending_le s.phase
    omega
  state_eq := h.ledger.state_eq
  abandoned hl hlt := by
    have hreceived := h.ledger.received_eq
    rcases hp : s.phase with _ | _ | ⟨op, operands⟩ | outcome
    case some.gathering =>
      have hshort := h.short_of_left hl hp
      rw [needed, min_eq_left (hports op)] at hshort
      refine ⟨op, operands, rfl, ?_, hshort⟩
      simp [hreceived, hp, current]
    all_goals simp [hreceived, hp, current] at hlt
  handedBack log := by
    obtain ⟨actor, hmirrors, hcontacts⟩ := h.mirrored hports log
    have hrunning : actor.isRunning = true := by
      rw [Actor.isRunning, hmirrors.phase_eq]
      rfl
    refine ⟨actor, hcontacts, ?_⟩
    rw [(Actor.gives_stop unit hrunning).final_eq log, ← hmirrors.state_eq]
    rfl

/-- A register unit has written one register and handed out the answer; a stop comes before it has
the operand for the next. -/
theorem serves_in_order_stopped :
    ∃ events s, Reaches registerUnit (.powerOn .compact16) events s ∧ s.left = true ∧
      received events = [.write 9, .write 10] ∧ delivered events = [.ok 7] ∧
      s.state.get 9 = 7 ∧ s.state.get 10 = 0 ∧
      Serves registerUnit (.powerOn .compact16) events s := by
  have hports (op : RegisterOp) : registerUnit.operandCount op ≤ registerUnit.ports := by
    cases op with
    | read r => exact Nat.zero_le 1
    | write r => exact Nat.le_refl 1
  have hbegun : Reaches registerUnit (.powerOn .compact16) _ _ := .nil
  have htaken := ((hbegun.step (.around (.offerOperation (.write 9)))).step
    (.turn rfl (.look rfl rfl))).step (.turn rfl (.takeOperation rfl rfl))
  have hexecuted := ((htaken.step (.around (.offerOperand 7 Nat.one_pos))).step
    (.turn rfl (.takeOperand rfl Nat.one_pos rfl))).step
    (.turn rfl (.execute rfl rfl (.ofLevel none)))
  have hdelivered := (hexecuted.step (.around .askResult)).step (.turn rfl (.deliverResult rfl rfl))
  have htaken' := ((hdelivered.step (.turn rfl (.look rfl rfl))).step
    (.around (.offerOperation (.write 10)))).step (.turn rfl (.takeOperation rfl rfl))
  have hleft := (((htaken'.step (.around (.stop rfl))).step (.around (.clear rfl))).step
    (.around (.close rfl))).step (.turn rfl (.leave ⟨Nat.one_pos, .inl rfl⟩))
  exact ⟨_, _, hleft, rfl, rfl, rfl, rfl, rfl, serves_in_order hports hleft⟩

end Session

end RegisterMachine
