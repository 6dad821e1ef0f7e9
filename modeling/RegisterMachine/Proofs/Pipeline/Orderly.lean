import RegisterMachine.Proofs.FunctionalUnit.Operands
import RegisterMachine.Proofs.Pipeline.Lockstep

/-!
# A pipeline keeps to its units

All that a pipeline asks of its units, it asks with as many operands as the operation takes. So no
unit is ever lost or finds its operands to be too many or too few, whatever the program is.

* `Pipeline.Station`: the units of a pipeline, each with its place.
* `Pipeline.Attended`: all of them are running.
* `Pipeline.Orderly`: an action is made of submissions with the right number of operands, and of
  what concerns no unit. `Pipeline.orderly_step`: a step is.
* `Pipeline.Orderly.ensures`: what an orderly action comes to.
* `Pipeline.operand_protocol`: the units, their loops and the steps together.
-/

namespace RegisterMachine

open Exec

theorem Sink.obeys_write (bytes : List UInt8) : Obeys (Sink.write bytes) := by
  induction bytes with
  | nil => exact .pure _
  | cons byte rest ih =>
    exact .bind .get fun _ => .ite (.bind (.modify _) fun _ => ih) (.throw not_false)

namespace Pipeline

variable {σ ω ρ α : Type} {unit : FunctionalUnit σ ω ρ} {part : Part Pipeline (Actor σ ω ρ)}
  {pipeline : Pipeline}

/-! ## Units and their places -/

/-- The units of a pipeline. -/
inductive Station :
    {σ ω ρ : Type} → FunctionalUnit σ ω ρ → Part Pipeline (Actor σ ω ρ) → Prop
  | decoder : Station decoderUnit decoderPart
  | registers : Station registerUnit registersPart
  | arithmetic : Station arithmeticUnit arithmeticPart
  | comparator : Station compareUnit comparatorPart
  | branch : Station branchUnit branchPart
  | memory : Station memoryUnit memoryPart

theorem Station.exact (h : Station unit part) : unit.Exact := by
  cases h with
  | decoder => exact decoderUnit_exact
  | registers => exact registerUnit_exact
  | arithmetic => exact arithmeticUnit_exact
  | comparator => exact compareUnit_exact
  | branch => exact branchUnit_exact
  | memory => exact memoryUnit_exact

/-- All units of a pipeline are running. -/
structure Attended (pipeline : Pipeline) : Prop where
  decoder : pipeline.decoder.isRunning = true
  registers : pipeline.registers.isRunning = true
  arithmetic : pipeline.arithmetic.isRunning = true
  comparator : pipeline.comparator.isRunning = true
  branch : pipeline.branch.isRunning = true
  memory : pipeline.memory.isRunning = true

namespace Attended
variable (h : pipeline.Attended)
include h

theorem isRunning (hs : Station unit part) : (part.get pipeline).isRunning = true := by
  cases hs with
  | decoder => exact h.decoder
  | registers => exact h.registers
  | arithmetic => exact h.arithmetic
  | comparator => exact h.comparator
  | branch => exact h.branch
  | memory => exact h.memory

theorem set (hs : Station unit part) {actor : Actor σ ω ρ} (hactor : actor.isRunning = true) :
    (part.set actor pipeline).Attended := by
  cases hs with
  | decoder => exact { h with decoder := hactor }
  | registers => exact { h with registers := hactor }
  | arithmetic => exact { h with arithmetic := hactor }
  | comparator => exact { h with comparator := hactor }
  | branch => exact { h with branch := hactor }
  | memory => exact { h with memory := hactor }

theorem of_units_eq {status : Status} {steps : ℕ} {pipeline' : Pipeline}
    (heq : { pipeline' with status, steps } = pipeline) : pipeline'.Attended := by
  subst heq
  exact { h with }

theorem ensures_submit [Inhabited σ] (hs : Station unit part) {op : ω} {operands : List Word}
    (hlen : operands.length = unit.operandCount op) :
    Ensures pipeline (Exec.onPart part (Actor.submit unit op operands)) fun o pipeline' =>
      Proper o ∧ pipeline'.Attended := by
  have hrun := h.isRunning hs
  refine Ensures.onPart (Actor.ensures_submit unit hrun hlen ?_)
  refine (hs.exact.enough op operands hlen.ge _).mono fun o state ho => ⟨ho, ?_⟩
  exact h.set hs hrun

end Attended

/-- A pipeline made from a core is attended. -/
theorem attended_ofCore {δ : Type} {core : Core δ} {output : Sink} {log log' : Log}
    (h : ofCore core output log = (.ok pipeline, log')) : pipeline.Attended := by
  let core' : Core δ := { core with status := .running, steps := 0 }
  have hs : core'.status = .running := rfl
  obtain ⟨log'', hx⟩ := exists_ofCore hs rfl output log
  cases h.symm.trans hx
  constructor <;> rfl

theorem attended_ofProgram {profile : Profile} {program : List UInt32} {output : Sink}
    {log log' : Log} (h : ofProgram profile program output log = (.ok pipeline, log')) :
    pipeline.Attended := by
  unfold ofProgram at h
  dsimp only at h
  split at h
  · exact attended_ofCore h
  · cases h

/-! ## Orderly actions -/

/-- An action is made of submissions to units with as many operands as they ask for, and of what
concerns neither units nor the protocol. A fault that is caught may be any but one of the
protocol. -/
inductive Orderly : {α : Type} → Exec Pipeline α → Prop
  | submit {σ ω ρ : Type} [Inhabited σ] {unit : FunctionalUnit σ ω ρ}
      {part : Part Pipeline (Actor σ ω ρ)} {op : ω} {operands : List Word}
      (hs : Station unit part) (hlen : operands.length = unit.operandCount op) :
      Orderly (Exec.onPart part (Actor.submit unit op operands))
  | pure {α : Type} (a : α) : Orderly (Pure.pure a)
  | bind {α β : Type} {x : Exec Pipeline α} {f : α → Exec Pipeline β} (hx : Orderly x)
      (hf : ∀ a, Orderly (f a)) : Orderly (x >>= f)
  | throw {α : Type} {fault : Fault} (h : ¬fault.OfProtocol) :
      Orderly (MonadExcept.throw fault : Exec Pipeline α)
  | tryCatch {α : Type} {x : Exec Pipeline α} {handle : Fault → Exec Pipeline α} (hx : Orderly x)
      (hh : ∀ fault, ¬fault.OfProtocol → Orderly (handle fault)) :
      Orderly (MonadExcept.tryCatch x handle)
  | lift {α : Type} {o : Except Fault α} (h : Proper o) : Orderly (liftM o)
  | get : Orderly MonadState.get
  /-- The status and the steps may change. -/
  | modify {g : Pipeline → Pipeline}
      (h : ∀ pipeline, { g pipeline with
        status := pipeline.status, steps := pipeline.steps } = pipeline) :
      Orderly (modify g)
  | note (level : Level) (text : Unit → String) : Orderly (Exec.note level text)
  | print (bytes : List UInt8) : Orderly (Exec.onPart outputPart (Sink.write bytes))

/-- **An orderly action keeps the units running**, and no fault that it ends in is one of the
    protocol. -/
theorem Orderly.ensures {x : Exec Pipeline α} (hx : Orderly x) (h : pipeline.Attended) :
    Ensures pipeline x fun o pipeline' => Proper o ∧ pipeline'.Attended := by
  induction hx generalizing pipeline with
  | submit hs hlen => exact h.ensures_submit hs hlen
  | pure a => exact (gives_pure pipeline a).ensures ⟨proper_ok a, h⟩
  | bind _ _ ihx ihf =>
    refine (ihx h).bind (fun a _ ⟨_, h⟩ => ihf a h) fun fault _ ⟨ho, h⟩ => ?_
    exact ⟨proper_error_iff.2 (proper_error_iff.1 ho), h⟩
  | throw hfault => exact (gives_throw pipeline _).ensures ⟨proper_error_iff.2 hfault, h⟩
  | tryCatch _ _ ihx ihh =>
    refine (ihx h).tryCatch (fun a _ h => h) fun fault _ ⟨ho, h⟩ => ?_
    exact ihh fault (proper_error_iff.1 ho) h
  | lift ho => exact (gives_lift pipeline _).ensures ⟨ho, h⟩
  | get => exact (gives_get pipeline).ensures ⟨proper_ok _, h⟩
  | modify hg => exact (gives_modify pipeline _).ensures ⟨proper_ok _, h.of_units_eq (hg pipeline)⟩
  | note level text => exact (gives_note pipeline level text).ensures ⟨proper_ok _, h⟩
  | print bytes =>
    refine Ensures.onPart ((Sink.obeys_write bytes _).mono fun _ _ ho => ⟨ho, ?_⟩)
    exact { h with }

/-! ## Unit traffic -/

theorem orderly_readRegister (r : UInt8) : Orderly (readRegister r) :=
  .submit .registers rfl

theorem orderly_writeRegister (r : UInt8) (value : Word) : Orderly (writeRegister r value) :=
  .bind (.submit .registers rfl) fun _ => .pure _

theorem orderly_access {op : MemoryOp} {operands : List Word}
    (hlen : operands.length = op.operandCount) : Orderly (access op operands) :=
  .submit .memory hlen

theorem orderly_readPlace (place : Place) : Orderly (readPlace place) := by
  cases place with
  | register r => exact orderly_readRegister r
  | memory r | microcode r => exact .bind (orderly_readRegister r) fun _ => orderly_access rfl
  | memoryAt address => exact orderly_access rfl

theorem orderly_readOperand (operand : Operand) : Orderly (readOperand operand) := by
  cases operand with
  | place p => exact orderly_readPlace p
  | literal value => exact .pure _

theorem orderly_writePlace (place : Place) (value : Word) : Orderly (writePlace place value) := by
  cases place with
  | register r => exact orderly_writeRegister r value
  | memory r | microcode r =>
    exact .bind (orderly_readRegister r) fun _ => .bind (orderly_access rfl) fun _ => .pure _
  | memoryAt address => exact .bind (orderly_access rfl) fun _ => .pure _

theorem orderly_stackPointer : Orderly stackPointer :=
  .bind .get fun _ => orderly_readRegister _

theorem orderly_setStackPointer (pointer : Word) : Orderly (setStackPointer pointer) :=
  .bind .get fun _ => orderly_writeRegister _ _

/-! ## Instructions -/

variable (i : Instruction)

theorem orderly_executeArithmetic (op : ArithmeticOp) : Orderly (executeArithmetic op i) := by
  have hwrite {a b : Word} : Orderly (do
      let value ← Exec.onPart arithmeticPart (Actor.submit arithmeticUnit op [a, b])
      writeRegister i.dest value) :=
    .bind (.submit .arithmetic rfl) fun _ => orderly_writeRegister _ _
  unfold executeArithmetic
  split_ifs
  · exact .bind (orderly_readRegister _) fun _ => hwrite
  · exact .bind (orderly_readRegister _) fun _ => .bind (orderly_readRegister _) fun _ => hwrite

theorem orderly_executeCompare (op : CompareOp) : Orderly (executeCompare op i) := by
  refine .bind .get fun _ => .bind (orderly_readRegister _) fun _ => ?_
  refine .bind (orderly_readRegister _) fun _ => .bind (orderly_readRegister _) fun _ => ?_
  exact .bind (.submit .comparator rfl) fun _ => orderly_writeRegister _ _

theorem orderly_targets (form : JumpForm Operand) : Orderly (form.mapM readOperand) := by
  cases form with
  | unconditional call target | conditional call polarity target =>
    exact .bind (orderly_readOperand _) fun _ => .pure _
  | select call polarity yes no =>
    exact .bind (orderly_readOperand _) fun _ => .bind (orderly_readOperand _) fun _ => .pure _
  | ret => exact .pure _

theorem orderly_executeJump (op : JumpOp) : Orderly (executeJump op i) := by
  refine .bind .get fun _ => .bind (orderly_targets _) fun _ => ?_
  refine .bind (orderly_readRegister _) fun _ => .bind (orderly_readRegister _) fun _ => ?_
  refine .bind (orderly_readRegister _) fun _ => .bind (.submit .branch rfl) fun _ => ?_
  exact .bind (orderly_writeRegister _ _) fun _ => orderly_writeRegister _ _

theorem orderly_executeTransfer (transfer : Transfer) : Orderly (executeTransfer transfer) := by
  cases transfer with
  | copy dest source => exact .bind (orderly_readOperand _) fun _ => orderly_writePlace _ _
  | swap a b =>
    refine .bind (orderly_readPlace a) fun _ => .bind (orderly_readPlace b) fun _ => ?_
    refine .bind (orderly_writePlace a _) fun _ => .tryCatch (orderly_writePlace b _) ?_
    exact fun fault hfault => .bind (orderly_writePlace a _) fun _ => .throw hfault
  | push source =>
    refine .bind (orderly_readOperand _) fun _ => .bind orderly_stackPointer fun _ => ?_
    exact .bind (orderly_access rfl) fun _ => orderly_setStackPointer _
  | pop dest =>
    refine .bind orderly_stackPointer fun _ => .bind (orderly_access rfl) fun _ => ?_
    refine .bind (orderly_writePlace _ _) fun _ => .bind (orderly_access rfl) fun _ => ?_
    exact orderly_setStackPointer _
  | peek dest =>
    refine .bind orderly_stackPointer fun _ => .bind (orderly_access rfl) fun _ => ?_
    exact orderly_writePlace _ _

theorem proper_composeCharacter (low high : Word) (single : Bool) :
    Proper (composeCharacter low high single) := by
  unfold composeCharacter
  dsimp only
  split_ifs <;> first | exact proper_ok _ | exact proper_error_iff.2 not_false

theorem orderly_executeSystemCall : Orderly (executeSystemCall i) := by
  unfold executeSystemCall
  split
  · exact .bind .get fun _ => .bind (.note _ _) fun _ => .modify fun _ => rfl
  · exact .throw not_false
  · refine .bind (orderly_readRegister _) fun _ => .bind (orderly_readRegister _) fun _ => ?_
    exact .bind (.lift (proper_composeCharacter _ _ _)) fun _ => .print _
  · exact .throw not_false

theorem orderly_executeOperation (op : Operation) : Orderly (executeOperation i op) := by
  cases op with
  | arithmetic op => exact orderly_executeArithmetic i op
  | move op => exact orderly_executeTransfer _
  | jump op => exact orderly_executeJump i op
  | compare op => exact orderly_executeCompare i op
  | misc op =>
    cases op
    exact orderly_executeSystemCall i

/-! ## Steps -/

theorem proper_operation : Proper i.operation := by
  unfold Instruction.operation
  split
  · exact proper_error_iff.2 not_false
  all_goals
    split
    · exact proper_ok _
    · exact proper_error_iff.2 not_false

theorem orderly_executeNext : Orderly executeNext := by
  refine .bind .get fun _ => .bind (orderly_readRegister _) fun _ => .bind .get fun _ => ?_
  refine .bind (.lift (Segment.proper_load _ _)) fun _ => .bind (.submit .decoder rfl) fun i => ?_
  refine .bind (.note _ _) fun _ => .bind (.lift (proper_operation i)) fun op => ?_
  refine .bind (orderly_executeOperation i op) fun _ => ?_
  have hcount : Orderly (modify fun pipeline : Pipeline =>
      { pipeline with steps := pipeline.steps + 1 }) := .modify fun _ => rfl
  split_ifs
  · exact .bind (orderly_writeRegister _ _) fun _ => hcount
  · exact hcount

theorem orderly_step : Orderly step := by
  refine .bind .get fun _ => ?_
  split_ifs
  · refine .tryCatch orderly_executeNext fun fault hfault => .bind (.note _ _) fun _ => ?_
    exact .bind (.modify fun _ => rfl) fun _ => .throw hfault
  · exact .pure _

/-- **Units and pipelines agree on operands.** Every unit of a pipeline has the ports for the
    operands that it asks for, and asks for as many as it reads, whatever its state. So its loop
    executes each operation with that many, and is not lost. A step submits that many, whatever
    the program; from a pipeline whose units are running, as it is when it is made, no step ends in
    a fault of the protocol, and all units stay running. -/
theorem operand_protocol :
    (∀ {σ ω ρ : Type} (unit : FunctionalUnit σ ω ρ) (part : Part Pipeline (Actor σ ω ρ)),
      Station unit part → unit.Exact ∧
        ∀ (start : σ) (events : List (Session.Event ω ρ)) (s : Session σ ω ρ),
          Session.Reaches unit start events s →
          (∀ job ∈ Session.jobs events, job.operands.length = unit.operandCount job.op) ∧
          ∀ o ∈ Session.outcomes unit start (Session.jobs events), Proper o) ∧
    (∀ {δ : Type} (core : Core δ) (output : Sink) (log log' : Log) (pipeline : Pipeline),
      ofCore core output log = (.ok pipeline, log') → pipeline.Attended) ∧
    (∀ (profile : Profile) (program : List UInt32) (output : Sink) (log log' : Log)
      (pipeline : Pipeline),
      ofProgram profile program output log = (.ok pipeline, log') → pipeline.Attended) ∧
    Orderly step ∧
    ∀ (pipeline : Pipeline) (log : Log) (n : ℕ), pipeline.Attended →
      Proper (pipeline.stepOutcome log n) ∧ (pipeline.after log n).Attended := by
  refine ⟨fun unit part h => ⟨h.exact, fun start events s hs => ?_⟩, ?_, ?_, orderly_step, ?_⟩
  · have hjobs := h.exact.length_operands hs
    exact ⟨hjobs, h.exact.proper_outcomes (fun job hjob => (hjobs job hjob).ge) start⟩
  · exact fun core output log log' pipeline => attended_ofCore
  · exact fun profile program output log log' pipeline => attended_ofProgram
  · intro pipeline log n h
    have hkeeps : Keeps Attended step := fun _ log h => (orderly_step.ensures h log).2
    have hafter : (pipeline.after log n).Attended := hkeeps.iterate h log n
    exact ⟨(orderly_step.ensures hafter _).1, hafter⟩

/-- A core that pushes a word and then divides by zero. -/
def failing : Core Empty :=
  Core.codePart.set ⟨.code, #[(Instruction.moveImmediate .pushImmediate 0 7).encode,
    (Instruction.arithmetic .div 8 8 0).encode, 0, 0]⟩ (.powerOn .small .empty default)

/-- The push as the loop of the memory controller comes to execute it, and the steps. -/
theorem operand_protocol_failing :
    (∃ events s, Session.Reaches memoryUnit (.ofProfile .small) events s ∧
      (Session.jobs events).map (fun job => (job.op, job.operands)) = [(.push, [0xffff, 7])] ∧
      (∀ job ∈ Session.jobs events, job.operands.length = memoryUnit.operandCount job.op) ∧
      ∀ o ∈ Session.outcomes memoryUnit (.ofProfile .small) (Session.jobs events), Proper o) ∧
    ∃ pipeline log', ofCore failing default (.ofLevel none) = (.ok pipeline, log') ∧
      pipeline.stepOutcome (.ofLevel none) 1 = .error .divideByZero ∧
      Proper (pipeline.stepOutcome (.ofLevel none) 1) ∧
      (pipeline.after (.ofLevel none) 1).Attended := by
  obtain ⟨hunits, hmade, -, -, hsteps⟩ := operand_protocol
  constructor
  · have hbegun : Session.Reaches memoryUnit (.ofProfile .small) _ _ := .nil
    have htaken := ((hbegun.step (.around (.offerOperation .push))).step
      (.turn rfl (.look rfl rfl))).step (.turn rfl (.takeOperation rfl rfl))
    have hfirst := (htaken.step (.around (.offerOperand 0xffff Nat.zero_lt_two))).step
      (.turn rfl (.takeOperand rfl Nat.zero_lt_two rfl))
    have hsecond := (hfirst.step (.around (.offerOperand 7 Nat.one_lt_two))).step
      (.turn rfl (.takeOperand rfl Nat.one_lt_two rfl))
    have hexecuted := hsecond.step (.turn rfl (.execute rfl rfl (.ofLevel none)))
    exact ⟨_, _, hexecuted, rfl, (hunits memoryUnit memoryPart .memory).2 _ _ _ hexecuted⟩
  · have hs : failing.status = .running := rfl
    obtain ⟨log', hx⟩ := exists_ofCore hs rfl default (.ofLevel none)
    have hattended := hmade failing default (.ofLevel none) log' _ hx
    exact ⟨_, log', hx, by decide +kernel, hsteps _ (.ofLevel none) 1 hattended⟩

end Pipeline

end RegisterMachine
