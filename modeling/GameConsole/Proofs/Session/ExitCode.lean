import GameConsole.Proofs.Emulator.Run
import GameConsole.Proofs.Memory.Loading
import GameConsole.Session.Headless

/-! The exit code of a headless session. A session that cannot be set up, and one whose run comes to
a fault, end with code 2. Where the run ends at a stop condition the code tells whether the
processor stopped at the address it was expected to reach. This is the same as where it is at the
end, unless no step may be done at all: then the program counter is not looked at, and the session
counts as one that has not reached the address, even if it starts there. -/

namespace GameConsole

/-- A computation that comes to a value has come to one in each of its parts. -/
theorem exists_of_bind_eq_ok {ε α β : Type} {x : Except ε α} {f : α → Except ε β} {b : β}
    (h : (x >>= f) = .ok b) : ∃ a, x = .ok a ∧ f a = .ok b := by
  cases x with
  | error cause => cases h
  | ok a => exact ⟨a, rfl, h⟩

theorem eq_ok_of_mapError_eq_ok {ε ε' α : Type} {x : Except ε α} {f : ε → ε'} {a : α}
    (h : x.mapError f = .ok a) : x = .ok a := by
  cases x with
  | error cause => cases h
  | ok b =>
    cases h
    rfl

namespace Options

variable {ρ : Type} [Renderer ρ] {readers : Readers} {o : Options} {files : Files}

theorem config_eq_ok {config : Config} (h : o.config files = .ok config) :
    config.stopPc = o.stopPc ∧ config.maxSteps = o.maxInstructions ∧ config.timeout = none := by
  unfold Options.config at h
  obtain ⟨rom, -, hrest⟩ := exists_of_bind_eq_ok h
  cases hrest
  exact ⟨rfl, rfl, rfl⟩

theorem setUp_eq_boot {image : ByteArray} {config : Config} (hfault : o.fault? = none)
    (himage : o.loadExe readers files = .ok image) (hconfig : o.config files = .ok config) (r : ρ) :
    o.setUp readers files r = (Emulator.boot image config r).mapError .console := by
  rw [setUp, hfault, himage, hconfig]
  rfl

/-- An emulator that has been set up is a new one, with the stop conditions of the options. -/
theorem setUp_eq_ok {r : ρ} {e : Emulator ρ} (h : o.setUp readers files r = .ok e) :
    ∃ quantum, e.scheduler = .new quantum o.stopPc o.maxInstructions ∧ e.timeout = none := by
  unfold setUp at h
  cases hfault : o.fault? with
  | some cause =>
    rw [hfault] at h
    cases h
  | none =>
    rw [hfault] at h
    obtain ⟨image, -, hrest⟩ := exists_of_bind_eq_ok h
    obtain ⟨config, hconfig, hrest⟩ := exists_of_bind_eq_ok hrest
    obtain ⟨hscheduler, htimeout⟩ := Emulator.boot_eq_ok (eq_ok_of_mapError_eq_ok hrest)
    obtain ⟨hstop, hmax, htime⟩ := config_eq_ok (eq_ok_of_mapError_eq_ok hconfig)
    rw [hstop, hmax] at hscheduler
    exact ⟨_, hscheduler, htimeout.trans htime⟩

end Options

namespace Headless

variable {readers : Readers} {files : Files} {clock : Nat → Nat} {allowance : Nat}
  {arguments : List String}

/-- A run of a session is over at a stop condition or at a fault, and the processor counts as
stopped if it is at the stop address and a step may have been done. -/
theorem stopped_of_setUp {ρ : Type} [Renderer ρ] {o : Options} {r : ρ} {e e' : Emulator ρ}
    {reason : StopReason} (hsetUp : o.setUp readers files r = .ok e)
    (hrun : e.run clock allowance = some (reason, e')) :
    (reason = .stopCondition ∧
      e'.stopped = decide (o.maxInstructions ≠ some 0 ∧ o.stopPc = some e'.pc)) ∨
    ∃ cause, reason = .fault cause := by
  obtain ⟨quantum, hscheduler, htime⟩ := Options.setUp_eq_ok hsetUp
  have hs : e.scheduler.stopped = false := by rw [hscheduler]; rfl
  have hexec : e.scheduler.executed = 0 := by rw [hscheduler]; rfl
  obtain ⟨k, last, c, rfl, hstop, hfault⟩ := Emulator.ended_of_run hs htime hexec hrun
  by_cases h : e.StopsAt k last
  · obtain ⟨hreason, rfl⟩ := hstop h
    refine .inl ⟨hreason, ?_⟩
    rw [Emulator.stopped, Emulator.endedAfter, hscheduler]
    rfl
  · exact .inr (hfault h)

theorem exitCode_close_stopCondition (pc : UInt32) (e : Emulator PrimitiveLog) :
    (close (some pc) .stopCondition e).exitCode =
      if e.stopped = true ∧ e.pc = pc then 0 else 1 := by
  unfold close
  dsimp only
  by_cases h : e.stopped = true ∧ e.pc = pc
  · rw [if_pos h, if_pos]
    rw [reached, h.1, h.2]
    exact beq_self_eq_true pc
  · rw [if_neg h, if_neg]
    rw [reached, Bool.and_eq_true, beq_iff_eq]
    exact h

theorem run_of_read {o : Options} (h : readers.arguments arguments = .ok o) :
    run readers files clock allowance arguments = runOptions readers files clock allowance o := by
  rw [run, h]

theorem run_of_setUp {o : Options} {e e' : Emulator PrimitiveLog} {reason : StopReason}
    (hread : readers.arguments arguments = .ok o) (hsetUp : o.setUp readers files {} = .ok e)
    (hrun : e.run clock allowance = some (reason, e')) :
    run readers files clock allowance arguments = some (close o.stopPc reason e') := by
  rw [run_of_read hread, runOptions, hsetUp]
  dsimp only
  rw [hrun, Option.map_some]

/-- The exit code is 2 after anything that went wrong, and otherwise 0 if the processor is where it
was expected and a step may have been done. -/
theorem exitCode_run (readers : Readers) (files : Files) (clock : Nat → Nat) (allowance : Nat)
    (arguments : List String) :
    let code := (run readers files clock allowance arguments).map Closing.exitCode
    (∀ cause, readers.arguments arguments = .error cause → cause ≠ .helpRequested →
      code = some 2) ∧
    ∀ o, readers.arguments arguments = .ok o →
      (∀ cause, o.setUp readers files ({} : PrimitiveLog) = .error cause → code = some 2) ∧
      ∀ e, o.setUp readers files ({} : PrimitiveLog) = .ok e →
        ∀ reason e', e.run clock allowance = some (reason, e') →
          (∃ cause, reason = .fault cause) ∧ code = some 2 ∨
          reason = .stopCondition ∧ ∀ pc, o.stopPc = some pc →
            code = some (if e'.pc = pc ∧ o.maxInstructions ≠ some 0 then 0 else 1) := by
  intro code
  refine ⟨fun cause hread hhelp => ?_, fun o hread => ⟨fun cause hrefused => ?_, ?_⟩⟩
  · have hclosing : run readers files clock allowance arguments = some (.ofUsage cause) := by
      rw [run, hread]
    have hcode : code = some cause.exitCode := congrArg (Option.map Closing.exitCode) hclosing
    rw [hcode]
    cases cause with
    | helpRequested => exact absurd rfl hhelp
    | _ => rfl
  · have hclosing : run readers files clock allowance arguments =
        some (.refused (complaint cause)) := by
      rw [run_of_read hread, runOptions, hrefused]
    exact congrArg (Option.map Closing.exitCode) hclosing
  · intro e hsetUp reason e' hrun
    have hcode : code = some (close o.stopPc reason e').exitCode :=
      congrArg (Option.map Closing.exitCode) (run_of_setUp hread hsetUp hrun)
    rcases stopped_of_setUp hsetUp hrun with ⟨rfl, hstopped⟩ | ⟨cause, rfl⟩
    · refine .inr ⟨rfl, fun pc hpc => ?_⟩
      have hiff : (e'.stopped = true ∧ e'.pc = pc) ↔ (e'.pc = pc ∧ o.maxInstructions ≠ some 0) := by
        rw [hstopped, hpc, decide_eq_true_iff, Option.some_inj]
        exact ⟨fun h => ⟨h.2, h.1.1⟩, fun h => ⟨⟨h.2, h.1.symm⟩, h.1⟩⟩
      rw [hcode, hpc, exitCode_close_stopCondition]
      simp only [hiff]
    · exact .inl ⟨⟨cause, rfl⟩, hcode⟩

theorem boot_of_loadable {ρ : Type} [Renderer ρ] {image : ByteArray}
    (h : Executable.Loadable image) (config : Config) (r : ρ) :
    ∃ e, Emulator.boot image config r = .ok e ∧ e.pc = (Executable.headerIn image).pc := by
  obtain ⟨memory, hload, -⟩ := (Emulator.bootMemory config.bootRom).loadExecutable_of_loadable h
  rw [Emulator.boot_eq, hload]
  exact ⟨_, rfl, rfl⟩

theorem loadable_zeros : Executable.Loadable (Bytes.zeros 0x800) := by
  have hsize : (Bytes.zeros 0x800).size = 0x800 := Bytes.size_zeros _
  have hword (i : Nat) : Bytes.wordAt (Bytes.zeros 0x800) i = 0 := Bytes.wordAt_zeros _ _
  generalize Bytes.zeros 0x800 = image at hsize hword
  have hdeclared : Executable.declared image = 0 := congrArg UInt32.toNat (hword 0x1C)
  have hload : (Executable.headerIn image).load = 0 := hword 0x18
  have hstart : Executable.start image = 0 := by rw [Executable.start, hload]; rfl
  exact ⟨hsize.ge, by rw [hdeclared, hsize], by rw [hstart, hdeclared]; decide⟩

/-- An image without a payload that is expected at its entry point and may not do any step. It is at
this address at the end, and the code says that it has not reached it. -/
theorem exitCode_run_without_steps :
    let arguments := ["g.exe", "--stop-pc", "0", "-i", "0"]
    let files : Files := fun _ => .ok (Bytes.zeros 0x800)
    let o : Options := { exe := "g.exe", stopPc := some 0, maxInstructions := some 0 }
    CommandLine.read arguments = .ok o ∧
      ∃ e : Emulator PrimitiveLog, o.setUp .standard files {} = .ok e ∧ e.pc = 0 ∧
        ∀ clock n, e.run clock (n + 1) = some (.stopCondition, e) ∧
          (run .standard files clock (n + 1) arguments).map Closing.exitCode = some 1 := by
  intro arguments files o
  have hread : Readers.standard.arguments arguments = .ok o := by rfl
  obtain ⟨e, hboot, hpc⟩ :=
    boot_of_loadable loadable_zeros { stopPc := some 0, maxSteps := some 0 } ({} : PrimitiveLog)
  have hentry : (Executable.headerIn (Bytes.zeros 0x800)).pc = 0 := Bytes.wordAt_zeros _ 0x10
  rw [hentry] at hpc
  have hsetUp : o.setUp .standard files ({} : PrimitiveLog) = .ok e := by
    have himage : o.loadExe .standard files = .ok (Bytes.zeros 0x800) := by
      rw [Options.loadExe, if_neg (by decide)]
      rfl
    rw [Options.setUp_eq_boot rfl himage rfl, hboot]
    rfl
  obtain ⟨hscheduler, -⟩ := Emulator.boot_eq_ok hboot
  have hfinished : e.scheduler.finished = true := by rw [hscheduler]; rfl
  have hrun (clock : Nat → Nat) (n : Nat) : e.run clock (n + 1) = some (.stopCondition, e) := by
    rw [Emulator.run, if_pos hfinished]
  have hstopped : ¬(e.stopped = true ∧ e.pc = 0) := by
    rw [Emulator.stopped, hscheduler]
    exact fun h => Bool.false_ne_true h.1
  refine ⟨hread, e, hsetUp, hpc, fun clock n => ⟨hrun clock n, ?_⟩⟩
  rw [run_of_setUp hread hsetUp (hrun clock n), Option.map_some, exitCode_close_stopCondition,
    if_neg hstopped]

end Headless

end GameConsole
