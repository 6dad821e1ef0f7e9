import RegisterMachine.Proofs.Core.Detached
import RegisterMachine.Proofs.Pipeline.Mirror
import RegisterMachine.Proofs.Utf8

/-!
# What a machine prints

Only `putc` writes to the output of a machine. It writes a whole character or, if the number that
its registers make up is no character, faults without writing.

* `Core.codePoint`: the number of the character that a `putc` prints.
* `Core.gives_putc`, `Pipeline.gives_putc`: what a `putc` does, with an output that is never full.
* `Core.ensures_execute_silent`: any other instruction prints nothing.
* `Core.printed`: the characters of the `putc`s that a run has carried out.
* `Core.ensures_step_output`: what a step prints.
* `Core.output_is_text`: what a run prints.
-/

namespace RegisterMachine

open Exec

variable {δ α β : Type}

/-! ## Outputs that are never full -/

namespace Sink
variable {sink : Sink}

@[simp] theorem extend_nil (sink : Sink) : sink.extend [].toArray = sink := by
  simp [extend]

theorem gives_write (h : sink.limit = none) (bytes : List UInt8) :
    Gives sink (write bytes) (.ok ()) (sink.extend bytes.toArray) := by
  induction bytes generalizing sink with
  | nil => exact (gives_pure sink ()).ensures ⟨rfl, (extend_nil sink).symm⟩
  | cons byte rest ih =>
    have hroom : sink.hasRoom = true := by simp [hasRoom, h]
    have hrest : Gives { sink with bytes := sink.bytes.push byte } (write rest) (.ok ())
        (sink.extend (byte :: rest).toArray) := by
      have hpush : ({ sink with bytes := sink.bytes.push byte } : Sink).limit = none := h
      simpa [extend] using ih hpush
    refine (gives_get sink).bind ?_
    rw [if_pos hroom]
    exact (gives_modify sink _).bind hrest

theorem extend_encode (sink : Sink) (text text' : List Char) :
    (sink.extend (Utf8.encode text).toArray).extend (Utf8.encode text').toArray =
      sink.extend (Utf8.encode (text ++ text')).toArray := by
  simp [extend, Utf8.encode_append]

end Sink

/-! ## Characters -/

section
variable (low high : Word)

theorem toNat_byte : (low &&& 0xFF).toUInt32.toNat = low.toNat % 2 ^ 8 := by
  rw [UInt64.toNat_toUInt32, UInt64.toNat_and]
  have hmask : low.toNat &&& (0xFF : UInt64).toNat = low.toNat % 2 ^ 8 :=
    Nat.and_two_pow_sub_one_eq_mod _ 8
  omega

/-- Two halves of 16 bits next to each other. -/
theorem toNat_halves :
    (((high &&& 0xFFFF) <<< 16) ||| (low &&& 0xFFFF)).toUInt32.toNat =
      high.toNat % 2 ^ 16 * 2 ^ 16 + low.toNat % 2 ^ 16 := by
  have hmask (w : Word) : (w &&& 0xFFFF).toNat = w.toNat % 2 ^ 16 := by
    rw [UInt64.toNat_and]
    exact Nat.and_two_pow_sub_one_eq_mod _ 16
  have hshift : ((high &&& 0xFFFF) <<< 16).toNat = (high.toNat % 2 ^ 16) <<< 16 := by
    rw [UInt64.toNat_shiftLeft, hmask, show (16 : UInt64).toNat % 64 = 16 from rfl,
      Nat.shiftLeft_eq]
    omega
  have hlow : low.toNat % 2 ^ 16 < 2 ^ 16 := Nat.mod_lt _ (by decide)
  rw [UInt64.toNat_toUInt32, UInt64.toNat_or, hshift, hmask,
    ← Nat.shiftLeft_add_eq_or_of_lt hlow, Nat.shiftLeft_eq]
  omega

end

/-- Whether an instruction is a `putc`. -/
def Instruction.IsPutc (i : Instruction) : Prop :=
  i.operation = .ok (.misc .systemCall) ∧ i.dest = selector .putc

namespace Core
variable {core : Core δ}

/-- The number of the character that a `putc` prints: one byte of its register, or the low halves
of two. -/
def codePoint (core : Core δ) (i : Instruction) : ℕ :=
  if i.src0 = i.src1 then (core.register i.src0).toNat % 2 ^ 8
  else (core.register i.src1).toNat % 2 ^ 16 * 2 ^ 16 + (core.register i.src0).toNat % 2 ^ 16

/-- What a `putc` answers. -/
def putcOutcome (core : Core δ) (i : Instruction) : Except Fault Unit :=
  if (core.codePoint i).isValidChar then .ok ()
  else .error (.invalidCodePoint (.ofNat (core.codePoint i)))

/-- What a `putc` prints. -/
def putcText (core : Core δ) (i : Instruction) : List Char :=
  if (core.codePoint i).isValidChar then [Char.ofNat (core.codePoint i)] else []

/-- The core that has printed a text. -/
def printing (core : Core δ) (text : List Char) : Core δ :=
  outputPart.set (core.output.extend (Utf8.encode text).toArray) core

theorem composeCharacter_eq (core : Core δ) (i : Instruction) :
    composeCharacter (core.register i.src0) (core.register i.src1) (i.src0 == i.src1) =
      if (core.codePoint i).isValidChar then .ok (Char.ofNat (core.codePoint i))
      else .error (.invalidCodePoint (.ofNat (core.codePoint i))) := by
  unfold composeCharacter
  extract_lets codePoint
  have hcode : codePoint.toNat = core.codePoint i := by
    simp only [codePoint, Core.codePoint, beq_iff_eq]
    split_ifs
    exacts [toNat_byte _, toNat_halves _ _]
  have hof : UInt32.ofNat (core.codePoint i) = codePoint := by
    rw [← hcode, UInt32.ofNat_toNat]
  rw [hof, ← hcode]
  by_cases hvalid : codePoint.isValidChar
  · rw [dif_pos hvalid, if_pos hvalid]
    exact congrArg Except.ok (Char.ofNat_toNat ⟨codePoint, hvalid⟩).symm
  · rw [dif_neg hvalid, if_neg hvalid]

/-- What a `putc` does once its registers have been read. -/
theorem ensures_print {σ : Type} {s : σ} {part : Part σ Sink} {i : Instruction}
    {Q : Except Fault Unit → σ → Prop} (hout : (part.get s).limit = none)
    (h : Q (core.putcOutcome i)
      (part.set ((part.get s).extend (Utf8.encode (core.putcText i)).toArray) s)) :
    Ensures s (do
      let character ← composeCharacter (core.register i.src0) (core.register i.src1)
        (i.src0 == i.src1)
      Exec.onPart part (Sink.write (String.utf8EncodeChar character))) Q := by
  rw [composeCharacter_eq]
  unfold putcOutcome putcText at h
  split_ifs at h ⊢ with hvalid
  · refine (gives_lift s _).bind ((Sink.gives_write hout _).onPart.ensures ?_)
    simpa [Utf8.encode] using h
  · refine (gives_lift s _).bind_error ?_
    have hsame : part.set ((part.get s).extend (Utf8.encode []).toArray) s = s :=
      (congrArg (part.set · s) (Sink.extend_nil _)).trans (part.set_get s)
    exact hsame ▸ h

theorem gives_putc (h : core.output.limit = none) (i : Instruction) :
    Gives core (SystemCall.putc i) (core.putcOutcome i) (core.printing (core.putcText i)) :=
  (gives_get core).bind ((gives_get core).bind (ensures_print h ⟨rfl, rfl⟩))

end Core

/-- The `putc` of a pipeline answers and prints the same. -/
theorem Pipeline.gives_putc (core : Core δ) {output : Sink} (h : output.limit = none)
    {i : Instruction} (hi : i.IsPutc) :
    Gives (core.pipelined output) (executeOperation i (.misc .systemCall)) (core.putcOutcome i)
      (core.pipelined (output.extend (Utf8.encode (core.putcText i)).toArray)) := by
  have hread := gives_readRegister core output
  have hcall : executeSystemCall i = (do
      let low ← readRegister i.src0
      let high ← readRegister i.src1
      let character ← composeCharacter low high (i.src0 == i.src1)
      Exec.onPart outputPart (Sink.write (String.utf8EncodeChar character))) := by
    rw [executeSystemCall, hi.2]
    rfl
  rw [executeOperation, hcall]
  exact (hread _).bind ((hread _).bind (Core.ensures_print h ⟨rfl, rfl⟩))

namespace Core
variable {core : Core δ}

/-! ## Instructions that print nothing -/

section
variable [Device δ]

theorem detached_output (output : Sink) : Detached fun core : Core δ => core.output = output where
  registers _ _ hc := hc
  memory _ _ hc := hc
  flags _ _ _ hc := hc
  load _ := Keeps.onPart (fun _ _ hc => hc) _
  store _ _ := Keeps.onPart (fun _ _ hc => hc) _

/-- An instruction that is no `putc` prints nothing. -/
theorem ensures_execute_silent {i : Instruction} (hput : ¬i.IsPutc) (core : Core δ) :
    Ensures core (execute .standard i) fun _ core' => core'.output = core.output :=
  ((detached_output core.output).keeps_execute fun hi hdest => absurd ⟨hi, hdest⟩ hput).ensures rfl

/-- Neither does the end of a step. -/
theorem ensures_finish_silent (core : Core δ) (address : Word) :
    Ensures core (finish address) fun _ core' => core'.output = core.output :=
  ((detached_output core.output).ensures_finish rfl address).mono fun _ _ hend => by
    cases hend with
    | counted hc => exact hc
    | stopped hc => exact hc

end

/-! ## Steps -/

/-- The end of a step does not fault if the instruction pointer can be written. -/
theorem ensures_finish_ok (hw : 1 < core.profile.registers.instructionPointer) (address : Word) :
    Ensures core (finish address) fun o _ => o = .ok () := by
  have hcount (core' : Core δ) : Ensures core' countStep fun o _ => o = .ok () :=
    (gives_countStep core').ensures rfl
  refine (gives_modifyGet core _).bind (Ensures.ite (fun _ => ?_) fun _ => hcount _)
  refine (gives_get _).bind ?_
  refine Ensures.bind (Q := fun o _ => o = .ok ()) ?_ (fun _ core' _ => hcount core') (by simp)
  exact (gives_get _).bind ((RegisterFile.gives_set hw _).onPart.ensures rfl)

variable [Device δ]

theorem gives_execute_putc (h : core.output.limit = none) {i : Instruction} (hi : i.IsPutc) :
    Gives core (execute .standard i) (core.putcOutcome i) (core.printing (core.putcText i)) := by
  rw [execute_eq hi.1, handler_standard, hi.2]
  exact gives_putc h i

/-- The character that a step prints: that of a `putc` that is carried out without a fault. -/
def printed? (core : Core δ) (log : Log) : Option Char :=
  match core.upcoming? with
  | some (i, .misc .systemCall) =>
    if i.dest = Instruction.selector .putc ∧ ((execute .standard i).result core log).isOk then
      some (Char.ofNat (core.codePoint i))
    else none
  | _ => none

theorem printed?_putc (h : core.output.limit = none) {i : Instruction} (hput : i.IsPutc)
    (hu : core.upcoming? = some (i, .misc .systemCall)) (log : Log) :
    (core.printed? log).toList = core.putcText i := by
  rw [printed?, hu]
  dsimp only
  rw [(gives_execute_putc h hput).result_eq log]
  unfold putcOutcome putcText
  by_cases hvalid : (core.codePoint i).isValidChar
  · rw [if_pos hvalid, if_pos hvalid, if_pos ⟨hput.2, rfl⟩]
    rfl
  · rw [if_neg hvalid, if_neg hvalid, if_neg (by rintro ⟨-, ⟨⟩⟩)]
    rfl

theorem printed?_of_not_putc {i : Instruction} {op : Operation} (hput : ¬i.IsPutc)
    (hu : core.upcoming? = some (i, op)) (log : Log) : core.printed? log = none := by
  have hop := (upcoming?_eq_some_iff.1 hu).2.2
  rw [printed?, hu]
  split
  · next heq =>
    cases heq
    exact if_neg fun hdest => hput ⟨hop, hdest.1⟩
  · rfl

/-- An instruction prints what is counted as printed. -/
theorem ensures_execute_output (h : core.output.limit = none) {i : Instruction}
    (hs : core.status = .running) (hi : core.nextInstruction = .ok i) (log : Log) :
    Ensures core (execute .standard i) fun _ core' =>
      core'.output = (core.printing (core.printed? log).toList).output := by
  have hnone (hprint : core.printed? log = none) :
      (core.printing (core.printed? log).toList).output = core.output := by
    rw [hprint]
    exact Sink.extend_nil core.output
  cases hop : i.operation with
  | error fault =>
    have hu : core.upcoming? = none := by
      simp [upcoming?, hi, hop, Except.toOption]
    have hprint : core.printed? log = none := by rw [printed?, hu]
    exact (gives_execute_error core hop).ensures (hnone hprint).symm
  | ok op =>
    have hu : core.upcoming? = some (i, op) := upcoming?_eq_some_iff.2 ⟨hs, hi, hop⟩
    by_cases hput : i.IsPutc
    · cases hop.symm.trans hput.1
      rw [printed?_putc h hput hu]
      exact (gives_execute_putc h hput).ensures rfl
    · rw [hnone (printed?_of_not_putc hput hu log)]
      exact ensures_execute_silent hput core

/-- A step prints what is counted as printed. -/
theorem ensures_step_output (h : core.output.limit = none) (log : Log) :
    Ensures core (step .standard) fun _ core' =>
      core'.output = (core.printing (core.printed? log).toList).output := by
  have hstill (hu : core.upcoming? = none) :
      core.output = (core.printing (core.printed? log).toList).output := by
    rw [printed?, hu]
    exact (Sink.extend_nil core.output).symm
  refine (gives_get core).bind ?_
  by_cases hs : core.status = .running
  · rw [if_pos hs]
    refine Ensures.tryCatch (Q := fun _ core' => core'.output = _) ?_ (fun _ _ hc => hc)
      fun fault core' hc => (gives_stopWith core' fault).ensures hc
    refine (gives_get core).bind ((gives_get core).bind ?_)
    cases hi : core.nextInstruction with
    | error fault =>
      have hu : core.upcoming? = none := by simp [upcoming?, hi, Except.toOption]
      exact (gives_lift core _).bind_error (hstill hu)
    | ok i =>
      refine (gives_lift core _).bind ((gives_note core _ _).bind ?_)
      exact (ensures_execute_output h hs hi log).bind
        (fun _ core' hc => (ensures_finish_silent core' _).mono fun _ _ ho => ho.trans hc)
        fun _ _ hc => hc
  · rw [if_neg hs]
    have hu : core.upcoming? = none := by simp [upcoming?, hs]
    exact (gives_pure core ()).ensures (hstill hu)

/-- A step answers what its instruction does, if the instruction pointer can be written. -/
theorem ensures_step_result {i : Instruction} {o : Except Fault Unit} {core' : Core δ}
    (hs : core.status = .running) (hi : core.nextInstruction = .ok i)
    (hx : Gives core (execute .standard i) o core')
    (hw : 1 < core'.profile.registers.instructionPointer) :
    Ensures core (step .standard) fun o' _ => o' = o := by
  refine (gives_get core).bind ?_
  rw [if_pos hs]
  refine Ensures.tryCatch (Q := fun o' _ => o' = o) ?_ (fun _ _ ho => ho)
    fun fault core'' ho => (gives_stopWith core'' fault).ensures ho
  refine (gives_get core).bind ((gives_get core).bind ?_)
  rw [hi]
  refine (gives_lift core _).bind ((gives_note core _ _).bind ?_)
  cases o with
  | ok _ => exact hx.bind (ensures_finish_ok hw _)
  | error fault => exact hx.bind_error rfl

/-! ## Runs -/

/-- The characters of the `putc`s that were carried out without a fault in the first `n` steps,
oldest first. -/
def printed (start : Core δ) (log : Log) : ℕ → List Char
  | 0 => []
  | n + 1 => printed start log n ++
      ((start.after log n).printed? (iterate (step .standard) start log n).2).toList

theorem output_after {start : Core δ} (h : start.output.limit = none) (log : Log) (n : ℕ) :
    (start.after log n).output = (start.printing (start.printed log n)).output := by
  induction n with
  | zero => exact (Sink.extend_nil start.output).symm
  | succ n ih =>
    have hlimit : (start.after log n).output.limit = none := by rw [ih]; exact h
    have hstep := ensures_step_output hlimit (iterate (step .standard) start log n).2
    refine (hstep _).trans ?_
    simp only [printing, outputPart, ih, Sink.extend_encode, printed]

/-- **The output of a core is text.** Whatever the program, a run adds to the output the characters
    of the `putc`s that it has carried out, one after another, and nothing else; if the output was
    empty, they are read back from it. A `putc` with one register prints its low byte; one with two
    registers prints the character that their halves make up, or faults and prints nothing if that
    is a surrogate or past the last character. The `putc` of a pipeline does the same. -/
theorem output_is_text :
    (∀ (start : Core δ) (log : Log) (n : ℕ), start.output.limit = none →
      (start.after log n).output.bytes.toList =
          start.output.bytes.toList ++ Utf8.encode (start.printed log n) ∧
        (start.output.bytes = #[] →
          (start.after log n).output.text = String.ofList (start.printed log n))) ∧
    ∀ (core : Core δ) (i : Instruction), core.output.limit = none → i.IsPutc →
      (i.src0 = i.src1 →
        Gives core (execute .standard i) (.ok ())
          (core.printing [Char.ofNat ((core.register i.src0).toNat % 2 ^ 8)])) ∧
      (i.src0 ≠ i.src1 → ∀ c : ℕ,
        c = (core.register i.src1).toNat % 2 ^ 16 * 2 ^ 16 +
          (core.register i.src0).toNat % 2 ^ 16 →
        (0xD800 ≤ c ∧ c ≤ 0xDFFF ∨ 0x10FFFF < c →
          Gives core (execute .standard i) (.error (.invalidCodePoint (.ofNat c))) core) ∧
        (¬(0xD800 ≤ c ∧ c ≤ 0xDFFF ∨ 0x10FFFF < c) →
          Gives core (execute .standard i) (.ok ()) (core.printing [Char.ofNat c]))) ∧
      (core.upcoming? = some (i, .misc .systemCall) →
        1 < core.profile.registers.instructionPointer → ∀ log,
          (step .standard).result core log = (execute .standard i).result core log) ∧
      ∀ output : Sink, output.limit = none → ∃ (o : Except Fault Unit) (text : List Char),
        Gives core (execute .standard i) o (core.printing text) ∧
        Gives (core.pipelined output) (Pipeline.executeOperation i (.misc .systemCall)) o
          (core.pipelined (output.extend (Utf8.encode text).toArray)) := by
  refine ⟨fun start log n h => ?_, fun core i h hput => ⟨?_, ?_, ?_, ?_⟩⟩
  · have hbytes : (start.after log n).output.bytes.toList =
        start.output.bytes.toList ++ Utf8.encode (start.printed log n) := by
      rw [output_after h]
      simp [printing, outputPart, Sink.extend]
    refine ⟨hbytes, fun hempty => ?_⟩
    rw [hempty, List.nil_append] at hbytes
    rw [Sink.text, hbytes, Utf8.decode_encode]
  · intro hsame
    have hcode : core.codePoint i = (core.register i.src0).toNat % 2 ^ 8 := if_pos hsame
    have hvalid : (core.codePoint i).isValidChar := by
      rw [hcode]
      exact .inl (by omega)
    have hx := gives_execute_putc h hput
    rwa [putcOutcome, putcText, if_pos hvalid, if_pos hvalid, hcode] at hx
  · rintro hne c hc
    have hcode : core.codePoint i = c := (if_neg hne).trans hc.symm
    have hx := gives_execute_putc h hput
    rw [putcOutcome, putcText, hcode] at hx
    refine ⟨fun hbad => ?_, fun hgood => ?_⟩
    · have hvalid : ¬c.isValidChar := by
        unfold Nat.isValidChar
        omega
      rw [if_neg hvalid, if_neg hvalid] at hx
      exact hx.ensures ⟨rfl, congrArg (outputPart.set · core) (Sink.extend_nil _)⟩
    · have hvalid : c.isValidChar := by
        unfold Nat.isValidChar
        omega
      rwa [if_pos hvalid, if_pos hvalid] at hx
  · intro hu hw log
    obtain ⟨hs, hi, -⟩ := upcoming?_eq_some_iff.1 hu
    have hx := gives_execute_putc h hput
    rw [hx.result_eq log]
    exact ensures_step_result hs hi hx hw log
  · intro output hout
    exact ⟨_, _, gives_execute_putc h hput, Pipeline.gives_putc core hout hput⟩

/-- A core that is about to print a character of three bytes and one of two, and then to fault on
a number past the last character. -/
def inscribing : Core Empty :=
  codePart.set ⟨.code, #[(Instruction.systemCall (Instruction.selector .putc) 8 9).encode,
      (Instruction.systemCall (Instruction.selector .putc) 8 8).encode,
      (Instruction.systemCall (Instruction.selector .putc) 8 10).encode, 0]⟩
    (((powerOn .small .empty default).put 8 0x20AC).put 10 0x11)

theorem output_is_text_inscribing :
    let log := Log.ofLevel none
    let putc := Instruction.systemCall (Instruction.selector .putc)
    inscribing.printed log 3 = [Char.ofNat 0x20AC, Char.ofNat 0xAC] ∧
      (inscribing.after log 3).output.bytes = #[0xE2, 0x82, 0xAC, 0xC2, 0xAC] ∧
      (inscribing.after log 3).status = .faulted ∧
      (inscribing.after log 3).output.text = String.ofList (inscribing.printed log 3) ∧
      (step .standard).result inscribing log = .ok () ∧
      Gives inscribing (execute .standard (putc 8 9)) (.ok ())
        (inscribing.printing [Char.ofNat 0x20AC]) ∧
      Gives inscribing (execute .standard (putc 8 8)) (.ok ())
        (inscribing.printing [Char.ofNat 0xAC]) ∧
      Gives inscribing (execute .standard (putc 8 10)) (.error (.invalidCodePoint 0x1120AC))
        inscribing ∧
      ∃ (o : Except Fault Unit) (text : List Char),
        Gives inscribing (execute .standard (putc 8 10)) o (inscribing.printing text) ∧
        Gives (inscribing.pipelined default)
          (Pipeline.executeOperation (putc 8 10) (.misc .systemCall)) o
          (inscribing.pipelined (Sink.extend default (Utf8.encode text).toArray)) := by
  intro log putc
  obtain ⟨hrun, hputc⟩ := output_is_text (δ := Empty)
  have hput (r q : UInt8) : (putc r q).IsPutc := ⟨rfl, rfl⟩
  obtain ⟨-, hprint, hstep, -⟩ := hputc inscribing (putc 8 9) rfl (hput 8 9)
  obtain ⟨hbyte, -⟩ := hputc inscribing (putc 8 8) rfl (hput 8 8)
  have hcode : (inscribing.register (putc 8 8).src0).toNat % 2 ^ 8 = 0xAC := by decide +kernel
  rw [hcode] at hbyte
  obtain ⟨-, hfault, -, hpipeline⟩ := hputc inscribing (putc 8 10) rfl (hput 8 10)
  have heuro := (hprint (by decide) 0x20AC (by decide +kernel)).2 (by decide)
  have hpast := (hfault (by decide) 0x1120AC (by decide +kernel)).1 (by decide)
  exact ⟨by decide +kernel, by decide +kernel, by decide +kernel,
    (hrun inscribing log 3 rfl).2 rfl,
    (hstep (by decide +kernel) (by decide) log).trans (heuro.result_eq log), heuro, hbyte rfl,
    hpast, hpipeline default rfl⟩

end Core

end RegisterMachine
