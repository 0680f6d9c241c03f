import GameConsole.Proofs.Scheduler.Quantum

/-! How many steps the processor attempts in a quantum, and what the scheduler counts of them. A
step that fails has been attempted but is not counted, so the count of the scheduler is the number
of attempts that were successful. It stays within its limit, and the scheduler says that it has
stopped only where the program counter is at the stop address. -/

namespace GameConsole

variable {β : Type} [Bus β]

namespace Computer

/-- How many of the next `n` steps are successful, each of which goes on from what the one before
left. -/
def successes (c : Computer β) : Nat → Nat
  | 0 => 0
  | n + 1 =>
    match c.step with
    | .fault _ c => c.successes n
    | .endless => 0
    | .done _ c => c.successes n + 1

theorem successes_add {c c' : Computer β} {m : Nat} (hc : c.after? m = some c') (n : Nat) :
    c.successes (m + n) = c.successes m + c'.successes n := by
  induction m generalizing c with
  | zero =>
    cases hc
    simp [successes]
  | succ m ih =>
    rw [after?] at hc
    rw [Nat.add_right_comm, successes, successes]
    cases h : c.step with
    | fault e d =>
      rw [h] at hc
      exact ih hc
    | endless =>
      rw [h] at hc
      cases hc
    | done u d =>
      rw [h] at hc
      dsimp only
      rw [ih hc, Nat.add_right_comm]

end Computer

namespace Scheduler

/-- How many steps the processor attempts in up to `n` turns of a quantum. -/
def attempts : Nat → Scheduler → Computer β → Nat
  | 0, _, _ => 0
  | n + 1, s, c =>
    if s.atStop c.cpu.pc ∨ s.finished then 0
    else
      match c.step with
      | .fault _ _ | .endless => 1
      | .done _ c => attempts n s.countStep c + 1

/-- What holds of a scheduler between two calls. -/
structure Sound (s : Scheduler) (c : Computer β) : Prop where
  executed_le : ∀ limit ∈ s.maxSteps, s.executed ≤ limit
  stopped : s.stopped = true → s.stopPc = some c.cpu.pc

/-- The second scheduler has gone on from the first one while the processor attempted `n` steps
from `c` on, which took it to `c'`. -/
structure Advanced (s : Scheduler) (c : Computer β) (n : Nat) (s' : Scheduler) (c' : Computer β) :
    Prop where
  computer : c.after? n = some c'
  executed : s'.executed = s.executed + c.successes n
  stopPc : s'.stopPc = s.stopPc
  maxSteps : s'.maxSteps = s.maxSteps
  quantum : s'.quantum = s.quantum
  sound : s'.Sound c'

namespace Advanced

variable {s s' s'' : Scheduler} {c c' c'' : Computer β} {m n : Nat}

theorem refl (h : s.Sound c) : Advanced s c 0 s c := ⟨rfl, rfl, rfl, rfl, rfl, h⟩

theorem trans (h : Advanced s c m s' c') (h' : Advanced s' c' n s'' c'') :
    Advanced s c (m + n) s'' c'' where
  computer := by rw [Computer.after?_add h.computer, h'.computer]
  executed := by rw [h'.executed, h.executed, Computer.successes_add h.computer, Nat.add_assoc]
  stopPc := h'.stopPc.trans h.stopPc
  maxSteps := h'.maxSteps.trans h.maxSteps
  quantum := h'.quantum.trans h.quantum
  sound := h'.sound

/-- Noting that the stop address has been reached is no step. -/
theorem stop (h : Advanced s c n s' c') (hpc : s'.atStop c'.cpu.pc = true) :
    Advanced s c n s'.stop c' where
  computer := h.computer
  executed := h.executed
  stopPc := h.stopPc
  maxSteps := h.maxSteps
  quantum := h.quantum
  sound := ⟨h.sound.executed_le, fun _ => (atStop_iff s' _).1 hpc⟩

end Advanced

omit [Bus β] in
theorem not_finished_iff {s : Scheduler} : ¬ s.finished = true ↔
    s.stopped = false ∧ ∀ limit ∈ s.maxSteps, s.executed < limit := by
  unfold finished limitReached
  cases s.maxSteps <;> simp

/-- A step that was successful is counted, and the limit was not reached before it. -/
theorem advanced_countStep {s : Scheduler} {c c' : Computer β} {u : Unit}
    (hopen : ¬ s.finished = true) (hstep : c.step = .done u c') :
    Advanced s c 1 s.countStep c' where
  computer := by simp [Computer.after?, hstep, Outcome.state?]
  executed := by simp [Computer.successes, hstep, countStep]
  stopPc := rfl
  maxSteps := rfl
  quantum := rfl
  sound := by
    obtain ⟨hs, hlimit⟩ := not_finished_iff.1 hopen
    refine ⟨hlimit, fun h => ?_⟩
    rw [countStep, hs] at h
    cases h

/-- A step that fails is not counted. -/
theorem advanced_fault {s : Scheduler} {c c' : Computer β} {e : Fault} (h : s.Sound c)
    (hopen : ¬ s.finished = true) (hstep : c.step = .fault e c') : Advanced s c 1 s c' where
  computer := by simp [Computer.after?, hstep, Outcome.state?]
  executed := by simp [Computer.successes, hstep]
  stopPc := rfl
  maxSteps := rfl
  quantum := rfl
  sound := by
    obtain ⟨hs, -⟩ := not_finished_iff.1 hopen
    exact ⟨h.executed_le, fun h => by rw [hs] at h; cases h⟩

theorem advanced_runSteps {s : Scheduler} {c : Computer β} (h : s.Sound c) (n : Nat) :
    (runSteps n s c).Leaves fun (s', c') => Advanced s c (attempts n s c) s' c' := by
  induction n generalizing s c with
  | zero => exact .refl h
  | succ n ih =>
    rw [attempts, runSteps]
    by_cases hpc : s.atStop c.cpu.pc = true
    · rw [if_pos hpc, if_pos (Or.inl hpc)]
      exact (Advanced.refl h).stop hpc
    rw [if_neg hpc]
    by_cases hfin : s.finished = true
    · rw [if_pos hfin, if_pos (Or.inr hfin)]
      exact .refl h
    rw [if_neg hfin, if_neg (not_or.2 ⟨hpc, hfin⟩)]
    cases hstep : c.step with
    | fault e c' => exact advanced_fault h hfin hstep
    | endless => trivial
    | done u c' =>
      have hcount := advanced_countStep hfin hstep
      refine (ih hcount.sound).mono fun sc hrest => ?_
      obtain ⟨s', c'⟩ := sc
      have hboth := hcount.trans hrest
      rwa [Nat.add_comm] at hboth

theorem advanced_runQuantum {s : Scheduler} {c : Computer β} (h : s.Sound c) :
    (s.runQuantum c).Leaves fun (s', c') => Advanced s c (attempts s.quantum s c) s' c' := by
  have hsteps := advanced_runSteps h s.quantum
  rw [runQuantum]
  cases hrun : runSteps s.quantum s c with
  | fault e sc =>
    rw [hrun] at hsteps
    exact hsteps
  | endless => trivial
  | done u sc =>
    rw [hrun] at hsteps
    obtain ⟨s', c'⟩ := sc
    change Advanced s c _ (if s'.atStop c'.cpu.pc = true then s'.stop else s') c'
    split
    · rename_i hpc
      exact hsteps.stop hpc
    · exact hsteps

/-- A quantum that ends without a fault has looked at the program counter. -/
theorem stopped_runQuantum {s s' : Scheduler} {c c' : Computer β} {u : Unit} (h : s.Sound c)
    (hdone : s.runQuantum c = .done u (s', c')) :
    s'.stopped = true ↔ s'.stopPc = some c'.cpu.pc := by
  have hadvanced := advanced_runQuantum h
  rw [hdone] at hadvanced
  refine ⟨hadvanced.sound.stopped, fun hpc => ?_⟩
  rw [runQuantum] at hdone
  cases hrun : runSteps s.quantum s c with
  | fault e sc => simp [hrun] at hdone
  | endless => simp [hrun] at hdone
  | done v sc =>
    obtain ⟨s₁, c₁⟩ := sc
    by_cases hat : s₁.atStop c₁.cpu.pc = true
    · obtain ⟨rfl, rfl⟩ : s₁.stop = s' ∧ c₁ = c' := by simpa [hrun, hat] using hdone
      rfl
    · obtain ⟨rfl, rfl⟩ : s₁ = s' ∧ c₁ = c' := by simpa [hrun, hat] using hdone
      exact absurd ((atStop_iff s₁ _).2 hpc) hat

/-- Once a stop condition holds a quantum does nothing, but it may still note the stop address. -/
theorem runQuantum_of_finished {s : Scheduler} (h : s.finished = true) (c : Computer β) :
    s.runQuantum c = .done () (if s.atStop c.cpu.pc then s.stop else s, c) := by
  obtain ⟨n, hn⟩ := Nat.exists_eq_succ_of_ne_zero (Nat.pos_iff_ne_zero.1 s.quantum_pos)
  have hsteps : runSteps s.quantum s c =
      .done () (if s.atStop c.cpu.pc then s.stop else s, c) := by
    rw [hn, runSteps, if_pos h]
    split <;> rfl
  rw [runQuantum, hsteps]
  by_cases hpc : s.atStop c.cpu.pc = true
  · have hpc' : s.stop.atStop c.cpu.pc = true := hpc
    simp only [if_pos hpc, if_pos hpc']
    rfl
  · simp only [if_neg hpc]

end Scheduler

end GameConsole
