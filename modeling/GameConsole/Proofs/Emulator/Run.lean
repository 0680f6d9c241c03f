import GameConsole.Proofs.Emulator.Playback

/-! A run of the emulator without a timeout. Whatever the quantum is, it comes back at the first
machine of the flat sequence of steps at which a stop condition holds or the next step fails. If
there is none, because the steps go on for ever or because one of them never comes back, the run
does not come back for any allowance. -/

namespace GameConsole

namespace Emulator

open Scheduler

variable {ρ : Type} [Renderer ρ]

/-- The emulator when `n` steps have led to this machine, between two quanta. -/
def afterSteps (e : Emulator ρ) (n : Nat) (c : Computer (Board ρ)) : Emulator ρ :=
  { e with computer := c, scheduler := e.scheduler.counting n }

/-- The same, with the program counter looked at. -/
def settledAfter (e : Emulator ρ) (n : Nat) (c : Computer (Board ρ)) : Emulator ρ :=
  { e with computer := c, scheduler := e.scheduler.settled n c.cpu.pc }

/-- The emulator when its run has ended with this machine, `n` steps after the start and with this
program counter before the last attempt. A run that may not do any step does not look at it. -/
def endedAfter (e : Emulator ρ) (n : Nat) (pc : UInt32) (c : Computer (Board ρ)) : Emulator ρ :=
  { e with
    computer := c
    scheduler := { e.scheduler with
      executed := n
      stopped := decide (e.scheduler.maxSteps ≠ some 0 ∧ e.scheduler.stopPc = some pc) } }

/-- Whether a stop condition holds at a machine that has done `n` steps. -/
def StopsAt (e : Emulator ρ) (n : Nat) (c : Computer (Board ρ)) : Prop :=
  Stops e.scheduler.stopPc e.scheduler.maxSteps n c

/-- Whether the run ends at a machine that has done `n` steps. -/
def EndsAt (e : Emulator ρ) (n : Nat) (c : Computer (Board ρ)) : Prop :=
  Ends e.scheduler.stopPc e.scheduler.maxSteps n c

omit [Renderer ρ] in
theorem afterSteps_zero {e : Emulator ρ} (hexec : e.scheduler.executed = 0) :
    e.afterSteps 0 e.computer = e := by
  obtain ⟨computer, ⟨quantum, stopPc, maxSteps, executed, stopped, hpos⟩, timeout⟩ := e
  obtain rfl : executed = 0 := hexec
  rfl

/-- A run comes back with this result as soon as its allowance is large enough, at any time. -/
def Returns (e : Emulator ρ) (result : StopReason × Emulator ρ) : Prop :=
  ∃ needed, ∀ clock n, e.run clock n = if needed ≤ n then some result else none

theorem returns_of_succ {e e' : Emulator ρ} {result : StopReason × Emulator ρ}
    (h : ∀ clock n, e.run clock (n + 1) = e'.run clock n) (h' : e'.Returns result) :
    e.Returns result := by
  obtain ⟨needed, hrun⟩ := h'
  refine ⟨needed + 1, fun clock n => ?_⟩
  cases n with
  | zero => rfl
  | succ n => simp only [h, hrun, Nat.add_le_add_iff_right]

theorem returns_of_run_succ {e : Emulator ρ} {result : StopReason × Emulator ρ}
    (h : ∀ clock n, e.run clock (n + 1) = some result) : e.Returns result := by
  refine ⟨1, fun clock n => ?_⟩
  cases n with
  | zero => rfl
  | succ n => rw [h, if_pos (by omega)]

theorem returns_of_finished {e : Emulator ρ} (h : e.scheduler.finished = true) :
    e.Returns (.stopCondition, e) := by
  refine returns_of_run_succ fun clock n => ?_
  rw [run, if_pos h]

/-- Without a timeout a run that is not finished goes on with a quantum. -/
theorem run_succ {e : Emulator ρ} (htime : e.timeout = none) (h : ¬ e.scheduler.finished = true)
    (clock : Nat → Nat) (n : Nat) :
    e.run clock (n + 1) =
      match e.step with
      | .fault cause e => some (.fault cause, e)
      | .endless => none
      | .done _ e => e.run clock n := by
  have htimedOut : ¬ e.timedOut (clock n) = true := by simp [timedOut, htime]
  rw [run, if_neg h]
  exact if_neg htimedOut

section

variable {e : Emulator ρ} (hs : e.scheduler.stopped = false)

include hs

omit [Renderer ρ] in
theorem not_finished_afterSteps {i : Nat} {c : Computer (Board ρ)} (h : ¬ e.StopsAt i c) :
    ¬ (e.afterSteps i c).scheduler.finished = true := by
  intro hfin
  rw [afterSteps, finished_counting hs, limitReached_counting] at hfin
  exact h (.inr hfin)

omit [Renderer ρ] in
theorem finished_settledAfter {k : Nat} {c : Computer (Board ρ)} (h : e.StopsAt k c) :
    (e.settledAfter k c).scheduler.finished = true := by
  rw [settledAfter, settled]
  split
  · rfl
  · rename_i hpc
    rw [atStop_iff] at hpc
    rw [finished_counting hs, limitReached_counting]
    exact h.resolve_left hpc

omit [Renderer ρ] hs in
theorem settledAfter_of_not_stops {k : Nat} {c : Computer (Board ρ)} (h : ¬ e.StopsAt k c) :
    e.settledAfter k c = e.afterSteps k c := by
  have hpc : ¬ e.scheduler.atStop c.cpu.pc = true := by
    rw [atStop_iff]
    exact fun hstop => h (.inl hstop)
  rw [settledAfter, settled, if_neg hpc, afterSteps]

/-- A quantum takes a run to the end, or to where the quantum is used up. -/
theorem step_afterSteps {i n : Nat} {c c' : Computer (Board ρ)} (hc : c.after? n = some c')
    (hn : n ≤ e.scheduler.quantum) (hfree : e.scheduler.GoesOn i c n)
    (hlast : n = e.scheduler.quantum ∨ e.StopsAt (i + n) c') :
    (e.afterSteps i c).step = .done () (e.settledAfter (i + n) c') := by
  simp only [step, afterSteps, runQuantum_eq_done hs hfree hc hn hlast]
  rfl

variable (htime : e.timeout = none)

include htime

theorem run_afterSteps_succ {i n : Nat} {c c' : Computer (Board ρ)}
    (hi : ¬ (e.afterSteps i c).scheduler.finished = true) (hc : c.after? n = some c')
    (hn : n ≤ e.scheduler.quantum) (hfree : e.scheduler.GoesOn i c n)
    (hlast : n = e.scheduler.quantum ∨ e.StopsAt (i + n) c') (clock : Nat → Nat) (rounds : Nat) :
    (e.afterSteps i c).run clock (rounds + 1) = (e.settledAfter (i + n) c').run clock rounds := by
  have htime' : (e.afterSteps i c).timeout = none := htime
  rw [run_succ htime' hi, step_afterSteps hs hc hn hfree hlast]

/-- Where no machine ends the run it does not come back. -/
theorem run_afterSteps_eq_none {i : Nat} {c : Computer (Board ρ)}
    (h : ∀ n, e.scheduler.GoesOn i c n) (clock : Nat → Nat) (rounds : Nat) :
    (e.afterSteps i c).run clock rounds = none := by
  induction rounds generalizing i c with
  | zero => rfl
  | succ rounds ih =>
    have hstops {n : Nat} {c' : Computer (Board ρ)} (hc : c.after? n = some c') :
        ¬ e.StopsAt (i + n) c' := (not_or.1 (h (n + 1) n (Nat.lt_succ_self n) c' hc)).1
    have hi : ¬ (e.afterSteps i c).scheduler.finished = true :=
      not_finished_afterSteps hs (hstops (n := 0) rfl)
    cases hc : c.after? e.scheduler.quantum with
    | none =>
      have hstep : (e.afterSteps i c).step = .endless := by
        simp only [step, afterSteps, runQuantum_eq_endless hs (h _) hc]
        rfl
      have htime' : (e.afterSteps i c).timeout = none := htime
      rw [run_succ htime' hi, hstep]
    | some c' =>
      rw [run_afterSteps_succ hs htime hi hc le_rfl (h _) (.inl rfl),
        settledAfter_of_not_stops (hstops hc)]
      exact ih fun n => (h (e.scheduler.quantum + n)).after hc

/-- To know what a run comes back with, it is enough to know it from where the end is within one
quantum. -/
theorem returns_of_near {result : StopReason × Emulator ρ} {k : Nat} {last : Computer (Board ρ)}
    (hnear : ∀ i n c, i + n = k → c.after? n = some last → e.scheduler.GoesOn i c n →
      ¬ (e.afterSteps i c).scheduler.finished = true →
      n < e.scheduler.quantum ∨ n = e.scheduler.quantum ∧ e.StopsAt k last →
      (e.afterSteps i c).Returns result)
    {i n : Nat} {c : Computer (Board ρ)} (hn : i + n = k) (hc : c.after? n = some last)
    (hfree : e.scheduler.GoesOn i c n) (hi : ¬ (e.afterSteps i c).scheduler.finished = true) :
    (e.afterSteps i c).Returns result := by
  induction n using Nat.strong_induction_on generalizing i c with
  | h n ih =>
    have hpos := e.scheduler.quantum_pos
    by_cases hend : n < e.scheduler.quantum ∨ n = e.scheduler.quantum ∧ e.StopsAt k last
    · exact hnear i n c hn hc hfree hi hend
    · rw [not_or, not_and] at hend
      obtain ⟨hfar, hat⟩ := hend
      -- the machine where the next quantum is used up
      obtain ⟨rest, rfl⟩ := Nat.exists_eq_add_of_le (Nat.not_lt.1 hfar)
      obtain ⟨c', hc', hrest⟩ := Computer.exists_after? hc
      have hstops : ¬ e.StopsAt (i + e.scheduler.quantum) c' := by
        rcases Nat.eq_zero_or_pos rest with rfl | hpos
        · cases hrest
          rw [Nat.add_zero] at hn hat
          rw [hn]
          exact hat rfl
        · exact (not_or.1 (hfree e.scheduler.quantum (by omega) c' hc')).1
      have hnext : (e.afterSteps (i + e.scheduler.quantum) c').Returns result :=
        ih rest (by omega) (by omega) hrest (hfree.after hc') (not_finished_afterSteps hs hstops)
      refine returns_of_succ (fun clock rounds => ?_) hnext
      rw [run_afterSteps_succ hs htime hi hc' le_rfl (hfree.mono (by omega)) (.inl rfl),
        settledAfter_of_not_stops hstops]

section

variable {k : Nat} {s : Computer (Board ρ)} (hk : e.computer.after? k = some s)
  (hfree : e.scheduler.GoesOn 0 e.computer k)
  (hopen : ¬ (e.afterSteps 0 e.computer).scheduler.finished = true)

include hk hfree hopen

theorem returns_of_stops (hstop : e.StopsAt k s) :
    (e.afterSteps 0 e.computer).Returns (.stopCondition, e.settledAfter k s) := by
  refine returns_of_near hs htime (k := k) ?_ (Nat.zero_add k) hk hfree hopen
  rintro i n c rfl hc hfree hi hend
  have hquantum := run_afterSteps_succ hs htime hi hc (by omega) hfree (.inr hstop)
  exact returns_of_succ hquantum (returns_of_finished (finished_settledAfter hs hstop))

theorem returns_of_fault (hstop : ¬ e.StopsAt k s) {cause : Fault} {c' : Computer (Board ρ)}
    (hstep : s.step = .fault cause c') :
    (e.afterSteps 0 e.computer).Returns (.fault cause, e.afterSteps k c') := by
  refine returns_of_near hs htime (k := k) ?_ (Nat.zero_add k) hk hfree hopen
  rintro i n c rfl hc hfree hi hend
  have hn : n < e.scheduler.quantum := hend.resolve_right fun h => hstop h.2
  have hquantum : (e.afterSteps i c).step = .fault cause (e.afterSteps (i + n) c') := by
    simp only [step, afterSteps, runQuantum_eq_fault hs hfree hc hn hstop hstep]
    rfl
  have htime' : (e.afterSteps i c).timeout = none := htime
  refine returns_of_run_succ fun clock rounds => ?_
  rw [run_succ htime' hi, hquantum]

end

theorem returns_of_ends (hexec : e.scheduler.executed = 0) {k : Nat} {s : Computer (Board ρ)}
    (hk : e.computer.after? k = some s) (hend : e.EndsAt k s)
    (hfirst : ∀ j < k, ∀ c, e.computer.after? j = some c → ¬ e.EndsAt j c) :
    ∃ reason c, e.Returns (reason, e.endedAfter k s.cpu.pc c) ∧
      (e.StopsAt k s → reason = .stopCondition ∧ c = s) ∧
      (¬ e.StopsAt k s → ∃ cause, s.step = .fault cause c ∧ reason = .fault cause) := by
  have hstart := afterSteps_zero hexec
  have hfree : e.scheduler.GoesOn 0 e.computer k := by
    intro j hj c hc
    rw [Nat.zero_add]
    exact hfirst j hj c hc
  by_cases hzero : e.scheduler.maxSteps = some 0
  · -- no step may be done: the run is over before its first quantum
    have hstop (n : Nat) (c : Computer (Board ρ)) : e.StopsAt n c :=
      .inr ⟨0, hzero, Nat.zero_le n⟩
    obtain rfl : k = 0 := Nat.eq_zero_of_not_pos fun hpos =>
      hfirst 0 hpos e.computer rfl (.inl (hstop 0 _))
    obtain rfl : e.computer = s := by simpa [Computer.after?] using hk
    have hfin : e.scheduler.finished = true := by simp [finished, limitReached, hzero]
    have hended : e.endedAfter 0 e.computer.cpu.pc e.computer = e.afterSteps 0 e.computer := by
      rw [endedAfter, decide_eq_false fun h => h.1 hzero, ← hs]
      rfl
    refine ⟨.stopCondition, e.computer, ?_, fun _ => ⟨rfl, rfl⟩, fun h => absurd (hstop 0 _) h⟩
    rw [hended, hstart]
    exact returns_of_finished hfin
  have hopen : ¬ (e.afterSteps 0 e.computer).scheduler.finished = true := by
    rw [afterSteps, finished_counting hs, limitReached_counting]
    rintro ⟨limit, hlimit, hle⟩
    obtain rfl : limit = 0 := Nat.le_zero.1 hle
    exact hzero hlimit
  by_cases hstop : e.StopsAt k s
  · have hreturns := returns_of_stops hs htime hk hfree hopen hstop
    have hended : e.settledAfter k s = e.endedAfter k s.cpu.pc s := by
      rw [settledAfter, settled_eq hs, endedAfter]
      simp [hzero, atStop, beq_eq_decide]
    rw [hstart, hended] at hreturns
    exact ⟨_, _, hreturns, fun _ => ⟨rfl, rfl⟩, fun h => absurd hstop h⟩
  · obtain ⟨cause, c, hstep⟩ := hend.resolve_left hstop
    have hreturns := returns_of_fault hs htime hk hfree hopen hstop hstep
    have hended : e.afterSteps k c = e.endedAfter k s.cpu.pc c := by
      rw [endedAfter, decide_eq_false fun h => hstop (.inl h.2), ← hs]
      rfl
    rw [hstart, hended] at hreturns
    exact ⟨_, _, hreturns, fun h => absurd h hstop, fun _ => ⟨cause, hstep, rfl⟩⟩

/-- What a run has come back with. -/
theorem ended_of_run (hexec : e.scheduler.executed = 0) {clock : Nat → Nat} {n : Nat}
    {reason : StopReason} {e' : Emulator ρ} (hrun : e.run clock n = some (reason, e')) :
    ∃ k s c, e' = e.endedAfter k s.cpu.pc c ∧
      (e.StopsAt k s → reason = .stopCondition ∧ c = s) ∧
      (¬ e.StopsAt k s → ∃ cause, reason = .fault cause) := by
  classical
  have hends : ∃ k s, e.computer.after? k = some s ∧ e.EndsAt k s := by
    by_contra hnever
    have hfree (n : Nat) : e.scheduler.GoesOn 0 e.computer n := by
      intro j _ c hc hends
      rw [Nat.zero_add] at hends
      exact hnever ⟨j, c, hc, hends⟩
    have hnone := run_afterSteps_eq_none hs htime hfree clock n
    rw [afterSteps_zero hexec, hrun] at hnone
    cases hnone
  obtain ⟨s, hk, hend⟩ := Nat.find_spec hends
  obtain ⟨reason', c, ⟨needed, hreturns⟩, hstop, hfault⟩ :=
    returns_of_ends hs htime hexec hk hend fun j hj c hc hends' =>
      Nat.find_min hends hj ⟨c, hc, hends'⟩
  have hresult := hreturns clock n
  rw [hrun] at hresult
  split at hresult
  · cases hresult
    refine ⟨Nat.find hends, s, c, rfl, hstop, fun h => ?_⟩
    obtain ⟨cause, -, hcause⟩ := hfault h
    exact ⟨cause, hcause⟩
  · cases hresult

end

/-- What becomes of a new emulator without a timeout: its run comes back with the first machine that
ends it, or with what the next step left if that one fails, and otherwise never. -/
theorem run_of_boot {image : ByteArray} {config : Config} {r : ρ} {e : Emulator ρ}
    (hboot : boot image config r = .ok e) (htime : config.timeout = none) :
    ((∀ n c, e.computer.after? n = some c → ¬ Ends config.stopPc config.maxSteps n c) →
        ∀ clock n, e.run clock n = none) ∧
      ∀ k s, e.computer.after? k = some s → Ends config.stopPc config.maxSteps k s →
        (∀ j < k, ∀ c, e.computer.after? j = some c →
          ¬ Ends config.stopPc config.maxSteps j c) →
        ∃ reason c,
          e.Returns (reason, { e with
            computer := c
            scheduler := { e.scheduler with
              executed := k
              stopped := decide (config.maxSteps ≠ some 0 ∧ config.stopPc = some s.cpu.pc) } }) ∧
          (Stops config.stopPc config.maxSteps k s → reason = .stopCondition ∧ c = s) ∧
          (¬ Stops config.stopPc config.maxSteps k s →
            ∃ cause, s.step = .fault cause c ∧ reason = .fault cause) := by
  obtain ⟨hscheduler, htimeout⟩ := boot_eq_ok hboot
  have hs : e.scheduler.stopped = false := by rw [hscheduler]; rfl
  have hexec : e.scheduler.executed = 0 := by rw [hscheduler]; rfl
  have hstop : config.stopPc = e.scheduler.stopPc := by rw [hscheduler]; rfl
  have hmax : config.maxSteps = e.scheduler.maxSteps := by rw [hscheduler]; rfl
  have htime' : e.timeout = none := htimeout.trans htime
  rw [hstop, hmax]
  refine ⟨fun h clock n => ?_, fun k s hk hend hfirst => ?_⟩
  · have hfree (n : Nat) : e.scheduler.GoesOn 0 e.computer n := by
      intro j _ c hc
      rw [Nat.zero_add]
      exact h j c hc
    have hnone := run_afterSteps_eq_none hs htime' hfree clock n
    rwa [afterSteps_zero hexec] at hnone
  · exact returns_of_ends hs htime' hexec hk hend hfirst

/-- A program of six steps under a quantum of four. It comes to its stop address in the second
quantum, with a square drawn. -/
theorem run_of_boot_playback :
    ∃ (e : Emulator Raster) (s : Computer (Board Raster)),
      boot (Playback.image Playback.square.words)
        { stopPc := some Playback.halt, quantum := some 4 } .initial = .ok e ∧
      e.computer.after? 6 = some s ∧
      s.bus.gpu.renderer = Raster.initial.drawPrimitive Playback.square.primitive ∧
      e.Returns (.stopCondition, { e with
        computer := s
        scheduler := { e.scheduler with executed := 6, stopped := true } }) := by
  obtain ⟨e, m, hboot, hfirst, hsteps, hpcs, hdrawn⟩ := Playback.exists_boot Playback.square
    { stopPc := some Playback.halt, quantum := some 4 }
    (Playback.draw_raster (Renderer.reset Raster.initial .standard) _)
  have hafter {j : Nat} (hj : j ≤ 6) : e.computer.after? j = some (m j) := by
    rw [← hfirst]
    exact Computer.after?_of_steps hsteps hj
  have hstop : Stops (some Playback.halt) none 6 (m 6) := .inl (by rw [hpcs 6 le_rfl]; decide)
  have hbefore : ∀ j < 6, ∀ c, e.computer.after? j = some c →
      ¬ Ends (some Playback.halt) none j c := by
    rintro j hj c hc (hstops | ⟨cause, c', hfault⟩)
    · cases (hafter hj.le).symm.trans hc
      exact Playback.not_stops hj (hpcs j hj.le) (by simp) hstops
    · cases (hafter hj.le).symm.trans hc
      rw [hsteps j hj] at hfault
      cases hfault
  obtain ⟨reason, c, hreturns, hreason, -⟩ :=
    (run_of_boot hboot rfl).2 6 (m 6) (hafter le_rfl) (.inl hstop) hbefore
  obtain ⟨rfl, rfl⟩ := hreason hstop
  have hstopped : decide ((none : Option Nat) ≠ some 0 ∧
      some Playback.halt = some (m 6).cpu.pc) = true := by
    rw [hpcs 6 le_rfl]
    decide
  rw [hstopped] at hreturns
  exact ⟨e, m 6, hboot, hafter le_rfl, hdrawn, hreturns⟩

end Emulator

/-! ### Two quanta -/

/-- The program under a quantum of four. Its fifth step, or its sixth, is the last one of the second
quantum. -/
theorem Playback.exists_quanta {ρ : Type} [Renderer ρ] (command : Command) {r r' : ρ}
    (hdraw : Renderer.draw (Renderer.reset r .standard) command.packet = (.ok (), r'))
    (maxSteps : Option Nat) {k : Nat} (hk : 4 < k) (hle : k ≤ 6)
    (hmax : ∀ limit ∈ maxSteps, k ≤ limit) (hlast : k = 6 ∨ k ∈ maxSteps) :
    ∃ e e₁ e₂ : Emulator ρ,
      Emulator.boot (image command.words)
        { stopPc := some halt, maxSteps, quantum := some 4 } r = .ok e ∧
      e.step = .done () e₁ ∧ e₁.scheduler.finished = false ∧
      e₁.step = .done () e₂ ∧ e₂.scheduler.finished = true ∧ e₂.executed = k ∧
      (k = 6 → e₂.renderer = r') := by
  obtain ⟨e, m, hboot, hfirst, hsteps, hpcs, hdrawn⟩ := exists_boot command
    { stopPc := some halt, maxSteps, quantum := some 4 } hdraw
  obtain ⟨hscheduler, -⟩ := Emulator.boot_eq_ok hboot
  have hs : e.scheduler.stopped = false := by rw [hscheduler]; rfl
  have hquantum : e.scheduler.quantum = 4 := by rw [hscheduler]; rfl
  have hstopPc : e.scheduler.stopPc = some halt := by rw [hscheduler]; rfl
  have hlimit : e.scheduler.maxSteps = maxSteps := by rw [hscheduler]; rfl
  have hopen {j : Nat} (hj : j < k) : ¬ e.StopsAt j (m j) := by
    rw [Emulator.StopsAt, hstopPc, hlimit]
    exact not_stops (by omega) (hpcs j (by omega)) fun limit h => hj.trans_le (hmax limit h)
  have hend : e.StopsAt k (m k) := by
    rw [Emulator.StopsAt, hstopPc, hlimit]
    rcases hlast with rfl | hlast
    · exact .inl (by rw [hpcs 6 le_rfl]; decide)
    · exact .inr ⟨k, hlast, le_rfl⟩
  have hfree {i n : Nat} (hn : i + n ≤ k) : e.scheduler.GoesOn i (m i) n :=
    Scheduler.goesOn_of_steps (m := fun j => m (i + j)) (fun j hj => hsteps (i + j) (by omega))
      fun j hj => hopen (by omega)
  have hafter {i n : Nat} (hn : i + n ≤ 6) : (m i).after? n = some (m (i + n)) :=
    Computer.after?_of_steps (m := fun j => m (i + j)) (fun j hj => hsteps (i + j) (by omega))
      le_rfl
  have hone : e.step = .done () (e.settledAfter 4 (m 4)) := by
    have hstep := e.step_afterSteps hs (hafter (i := 0) (n := 4) (by omega)) hquantum.ge
      (hfree (by omega)) (.inl hquantum.symm)
    rwa [hfirst, Emulator.afterSteps_zero (by rw [hscheduler]; rfl)] at hstep
  rw [Emulator.settledAfter_of_not_stops (hopen hk)] at hone
  obtain ⟨rest, rfl⟩ := Nat.exists_eq_add_of_lt hk
  have htwo := e.step_afterSteps hs (hafter (i := 4) (n := rest + 1) (by omega)) (by omega)
    (hfree (by omega)) (.inr hend)
  refine ⟨e, _, _, hboot, hone, ?_, htwo, Emulator.finished_settledAfter hs hend, ?_, ?_⟩
  · simpa using Emulator.not_finished_afterSteps hs (hopen hk)
  · rw [Emulator.executed, Emulator.settledAfter, Scheduler.settled_eq hs]
    rfl
  · intro hsix
    obtain rfl : rest = 1 := by omega
    exact hdrawn

end GameConsole
