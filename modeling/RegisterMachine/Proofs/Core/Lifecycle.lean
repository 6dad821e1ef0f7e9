import RegisterMachine.Proofs.Core.Detached
import RegisterMachine.Proofs.Core.Run
import RegisterMachine.Proofs.Device.Sweep

/-!
# The life of a run

A run starts the devices, steps the core and shuts the devices down. A device may fail when it is
started, when it is used and when it is shut down, and any instruction may fault. Of several
faults the earliest is answered; but a program that faults does not keep the devices from being
shut down, while a device that does not start keeps everything else from happening.

* `Core.Played`: what comes of the steps.
* `Core.Ran`: what comes of a run.
* `Core.Journaled`: the order in which a run has turned to the devices.
* `Core.run_lifecycle`: every run is one of these.
-/

namespace RegisterMachine.Core

open Exec

variable {δ : Type} [Device δ] {core core' : Core δ}

/-! ## Steps -/

theorem detached_used (registry : Registry δ) (n : ℕ) :
    Detached fun core : Core δ => registry.Used core.devices ∧ core.steps = n where
  registers _ _ hc := hc
  memory _ _ hc := hc
  flags _ _ _ hc := hc
  load address := .onPart_of (registry.keeps_used_load address) (fun _ hc => hc.1)
    fun _ _ hc hused => ⟨hused, hc.2⟩
  store address value := .onPart_of (registry.keeps_used_store address value) (fun _ hc => hc.1)
    fun _ _ hc hused => ⟨hused, hc.2⟩

theorem ensures_step_used (hr : core.status = .running) :
    Ensures core (step .standard) fun o core' =>
      core.devices.Used core'.devices ∧
      (o = .ok () → core'.steps = core.steps + 1) ∧
      ∀ fault, o = .error fault → core'.steps = core.steps ∧ core'.status = .faulted := by
  have hstep := (detached_used core.devices core.steps).ensures_step ⟨.refl _, rfl⟩
    (fun _ _ hc => hc) hr
  refine hstep.mono fun o core' hend => ?_
  cases hend with
  | counted hc => exact ⟨hc.1, fun _ => congrArg (· + 1) hc.2, by rintro _ ⟨⟩⟩
  | stopped hc => exact ⟨hc.1, by rintro ⟨⟩, fun _ _ => ⟨hc.2, rfl⟩⟩

theorem Retires.used {log : Log} {n : ℕ} (h : core.Retires log n) :
    core.devices.Used (core.after log n).devices ∧
      (core.after log n).steps = core.steps + n := by
  induction n with
  | zero => exact ⟨.refl _, rfl⟩
  | succ n ih =>
    obtain ⟨hused, hsteps⟩ := ih fun k hk => h k (by omega)
    obtain ⟨hr, hok⟩ := h n (by omega)
    obtain ⟨hused', hsteps', -⟩ := ensures_step_used hr (iterate (step .standard) core log n).2
    exact ⟨hused.trans hused', (hsteps' hok).trans (by rw [hsteps, Nat.add_assoc])⟩

/-- What comes of the steps of a run: `n` of them have succeeded, and there was a fault or not. The
devices have been used and nothing else. -/
structure Played (start : Core δ) (n : ℕ) (o : Except Fault Unit) (core : Core δ) : Prop where
  paced : ∃ log log', Paced runLimit start log n o (core, log')
  used : start.devices.Used core.devices
  steps_eq : core.steps = start.steps + n
  status_eq : ∀ fault, o = .error fault → core.status = .faulted

theorem Paced.played {log : Log} {n : ℕ} {o : Except Fault Unit} {left : Core δ × Log}
    (h : Paced runLimit core log n o left) : core.Played n o left.1 := by
  have hpaced : ∃ log log', Paced runLimit core log n o (left.1, log') := ⟨log, left.2, h⟩
  cases h with
  | stopped _ hretires _ =>
    obtain ⟨hused, hsteps⟩ := hretires.used
    exact ⟨hpaced, hused, hsteps, by rintro _ ⟨⟩⟩
  | faulted _ hretires hr hfault =>
    obtain ⟨hused, hsteps⟩ := hretires.used
    obtain ⟨hused', -, hstop⟩ := ensures_step_used hr (iterate (step .standard) core log n).2
    obtain ⟨hsteps', hstatus⟩ := hstop _ hfault
    exact ⟨hpaced, hused.trans hused', hsteps'.trans hsteps, fun _ _ => hstatus⟩

theorem ensures_runFor (core : Core δ) :
    Ensures core (runFor .standard runLimit) fun o core' =>
      ∃ n played, core.Played n played core' ∧ o = played.map fun _ => n := by
  intro log
  obtain ⟨n, o, hpaced, hresult⟩ := paced_stepsFrom 0 runLimit core log
  rw [Nat.zero_add] at hresult
  exact ⟨n, o, hpaced.played, hresult⟩

/-! ## Runs -/

/-- What comes of a run: its answer and the core that it leaves. -/
inductive Ran (core : Core δ) : Except Fault ℕ → Core δ → Prop
  /-- A device does not start. There are no steps, and no device is shut down. -/
  | unstarted {fault : Fault} {started : Registry δ}
      (hstart : core.devices.Swept .startup Device.startup (.error fault) started) :
      Ran core (.error fault) { devicesPart.set started core with status := .faulted }
  /-- A step faults. That is the answer, whatever the devices do when they are shut down. -/
  | faulted {fault : Fault} {n : ℕ} {started closed : Registry δ} {ended : Core δ}
      {shutdown : Except Fault Unit}
      (hstart : core.devices.Swept .startup Device.startup (.ok ()) started)
      (hplayed : (devicesPart.set started core).Played n (.error fault) ended)
      (hclose : ended.devices.Swept .shutdown Device.shutdown shutdown closed) :
      Ran core (.error fault) (devicesPart.set closed ended)
  /-- The program comes to its end, but a device fails when it is shut down. -/
  | unclosed {fault : Fault} {n : ℕ} {started closed : Registry δ} {ended : Core δ}
      (hstart : core.devices.Swept .startup Device.startup (.ok ()) started)
      (hplayed : (devicesPart.set started core).Played n (.ok ()) ended)
      (hclose : ended.devices.Swept .shutdown Device.shutdown (.error fault) closed) :
      Ran core (.error fault) (devicesPart.set closed ended)
  /-- Nothing fails. -/
  | completed {n : ℕ} {started closed : Registry δ} {ended : Core δ}
      (hstart : core.devices.Swept .startup Device.startup (.ok ()) started)
      (hplayed : (devicesPart.set started core).Played n (.ok ()) ended)
      (hclose : ended.devices.Swept .shutdown Device.shutdown (.ok ()) closed) :
      Ran core (.ok n) (devicesPart.set closed ended)

/-- What a run has added to the record of accesses: some devices have been started, in the order
in which they were registered, then devices have been used, and then some have been shut down, in
that order again. -/
def Journaled (core core' : Core δ) : Prop :=
  ∃ startups uses shutdowns : List (AddressRange × Access),
    core'.devices.accesses = core.devices.accesses ++ (startups ++ uses ++ shutdowns).toArray ∧
    startups <+: core.devices.ranges.map (fun range => (range, .startup)) ∧
    (∀ use ∈ uses, use.2.isUse = true) ∧
    shutdowns <+: core.devices.ranges.map fun range => (range, .shutdown)

theorem journaled_of_played {n : ℕ} {o startup shutdown : Except Fault Unit}
    {started closed : Registry δ} {ended : Core δ}
    (hstart : core.devices.Swept .startup Device.startup startup started)
    (hplayed : (devicesPart.set started core).Played n o ended)
    (hclose : ended.devices.Swept .shutdown Device.shutdown shutdown closed) :
    core.Journaled (devicesPart.set closed ended) := by
  have hranges : ended.devices.ranges = core.devices.ranges :=
    hplayed.used.ranges_eq.trans hstart.ranges_eq
  obtain ⟨startups, hstarted, hstartups⟩ := hstart.accesses_eq
  obtain ⟨uses, hused, huses⟩ := hplayed.used.accesses_eq
  obtain ⟨shutdowns, hclosed, hshutdowns⟩ := hclose.accesses_eq
  rw [hranges] at hshutdowns
  refine ⟨startups, uses, shutdowns, ?_, hstartups, huses, hshutdowns⟩
  change closed.accesses = _
  rw [hclosed, hused]
  change started.accesses ++ _ ++ _ = _
  rw [hstarted]
  simp

theorem Ran.journaled {o : Except Fault ℕ} (h : core.Ran o core') : core.Journaled core' := by
  cases h with
  | unstarted hstart =>
    obtain ⟨startups, haccesses, hstartups⟩ := hstart.accesses_eq
    exact ⟨startups, [], [], haccesses.trans (by simp), hstartups, by simp, List.nil_prefix⟩
  | faulted hstart hplayed hclose => exact journaled_of_played hstart hplayed hclose
  | unclosed hstart hplayed hclose => exact journaled_of_played hstart hplayed hclose
  | completed hstart hplayed hclose => exact journaled_of_played hstart hplayed hclose

theorem ensures_startup (core : Core δ) :
    Ensures core (Exec.onPart devicesPart Registry.startupAll) fun o core' =>
      ∃ started, core.devices.Swept .startup Device.startup o started ∧
        core' = devicesPart.set started core :=
  Ensures.onPart ((core.devices.ensures_startupAll).mono fun _ started h => ⟨started, h, rfl⟩)

theorem ensures_shutdown (core : Core δ) :
    Ensures core (Exec.onPart devicesPart Registry.shutdownAll) fun o core' =>
      ∃ closed, core.devices.Swept .shutdown Device.shutdown o closed ∧
        core' = devicesPart.set closed core :=
  Ensures.onPart ((core.devices.ensures_shutdownAll).mono fun _ closed h => ⟨closed, h, rfl⟩)

theorem ensures_run (core : Core δ) : Ensures core (run .standard) core.Ran := by
  refine Ensures.bind (Q := fun o core' =>
    (∃ started, o = .ok () ∧ core.devices.Swept .startup Device.startup (.ok ()) started ∧
      core' = devicesPart.set started core) ∨
    ∃ fault, o = .error fault ∧ core.Ran (.error fault) core') ?_ ?_ ?_
  · refine (ensures_startup core).tryCatch ?_ ?_
    · rintro _ _ ⟨started, hstart, rfl⟩
      exact .inl ⟨started, rfl, hstart, rfl⟩
    · rintro fault _ ⟨started, hstart, rfl⟩
      refine (gives_modify _ _).bind ((gives_throw _ _).ensures ?_)
      exact .inr ⟨fault, rfl, .unstarted hstart⟩
  · rintro _ _ (⟨started, -, hstart, rfl⟩ | ⟨_, ⟨⟩, -⟩)
    refine (ensures_runFor _).attempt_bind ?_
    rintro _ ended ⟨n, o, hplayed, rfl⟩
    refine (ensures_shutdown ended).attempt_bind ?_
    rintro shutdown _ ⟨closed, hclose, rfl⟩
    cases o with
    | error fault => exact (gives_lift _ _).bind_error (.faulted hstart hplayed hclose)
    | ok =>
      refine (gives_lift _ (Except.ok n)).bind ?_
      cases shutdown with
      | error fault => exact (gives_lift _ _).bind_error (.unclosed hstart hplayed hclose)
      | ok =>
        exact (gives_lift _ _).bind ((gives_pure _ n).ensures (.completed hstart hplayed hclose))
  · rintro _ _ (⟨_, ⟨⟩, -⟩ | ⟨_, ⟨⟩, hran⟩)
    exact hran

/-- **Every run starts the devices, steps the core and shuts the devices down**, and in this
order. If all goes well, the answer is the number of instructions that it has retired. -/
theorem run_lifecycle (core : Core δ) :
    Ensures core (run .standard) fun o core' =>
      core.Ran o core' ∧ core.Journaled core' ∧
        ∀ made, o = .ok made → core'.steps = core.steps + made := by
  refine (ensures_run core).mono fun o core' h => ⟨h, h.journaled, ?_⟩
  rintro made rfl
  cases h with
  | completed hstart hplayed hclose => exact hplayed.steps_eq

/-- A core with two devices, the first of which fails when it is shut down. It is about to store to
the second, and has no other instruction. -/
def grudging : Core Probe :=
  codePart.set ⟨.code, #[(Instruction.moveImmediate .storeImmediateAddress 0 10).encode]⟩
    (powerOn .small
      (Registry.empty.extend [⟨⟨4, 9⟩, none, ["shutdown"]⟩, ⟨⟨10, 20⟩, none, []⟩]) default)

/-- The fault of the program is answered, and the second device is not shut down any more. -/
example :
    let log := Log.ofLevel none
    (run .standard).result grudging log = .error (.addressOutOfRange .code 1 1) ∧
      ((run .standard).final grudging log).devices.accesses =
        #[(⟨4, 9⟩, .startup), (⟨10, 20⟩, .startup), (⟨10, 20⟩, .store 10 0),
          (⟨4, 9⟩, .shutdown)] := by
  decide +kernel

end RegisterMachine.Core
