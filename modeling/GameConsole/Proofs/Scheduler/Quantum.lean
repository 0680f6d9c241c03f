import GameConsole.Scheduler

/-! Quanta against single steps. The machines of a run are those after 0, 1, 2, … steps, up to a
step that never comes back, if there is one. The run ends at the first of them that is at the stop
address, has had as many steps as are allowed, or fails in the next one. A quantum that begins
before the end goes forward along these machines: it comes to the one at the end or, if that is
farther away, to the one where the quantum is used up, and in either case it has looked at the
program counter there. Where the machines run out before that it does not come back. -/

namespace GameConsole

variable {β : Type} [Bus β]

namespace Computer

/-- The machine after a number of steps, each of which goes on from what the one before left, if
all of them come back. -/
def after? (c : Computer β) : Nat → Option (Computer β)
  | 0 => some c
  | n + 1 => c.step.state?.bind fun c => c.after? n

theorem after?_add {c c' : Computer β} {m : Nat} (h : c.after? m = some c') (n : Nat) :
    c.after? (m + n) = c'.after? n := by
  induction m generalizing c with
  | zero =>
    cases h
    rw [Nat.zero_add]
  | succ m ih =>
    rw [after?, Option.bind_eq_some_iff] at h
    obtain ⟨d, hstep, hrest⟩ := h
    rw [Nat.add_right_comm, after?, hstep, Option.bind_some, ih hrest]

/-- The machines of steps that are known. -/
theorem after?_of_steps {m : Nat → Computer β} {n : Nat}
    (h : ∀ j < n, (m j).step = .done () (m (j + 1))) {j : Nat} (hj : j ≤ n) :
    (m 0).after? j = some (m j) := by
  induction j with
  | zero => rfl
  | succ j ih =>
    rw [after?_add (ih (Nat.le_of_succ_le hj)) 1, after?, h j hj]
    rfl

/-- There are machines all the way to one that exists. -/
theorem exists_after? {c c' : Computer β} {m n : Nat} (h : c.after? (m + n) = some c') :
    ∃ d, c.after? m = some d ∧ d.after? n = some c' := by
  induction m generalizing c with
  | zero =>
    rw [Nat.zero_add] at h
    exact ⟨c, rfl, h⟩
  | succ m ih =>
    rw [Nat.add_right_comm, after?, Option.bind_eq_some_iff] at h
    obtain ⟨d, hstep, hrest⟩ := h
    obtain ⟨d', hd', hrest'⟩ := ih hrest
    exact ⟨d', by rw [after?, hstep, Option.bind_some, hd'], hrest'⟩

end Computer

namespace Scheduler

/-- Whether a stop condition holds at a machine that has done `n` steps. -/
def Stops (stopPc : Option UInt32) (maxSteps : Option Nat) (n : Nat) (c : Computer β) : Prop :=
  stopPc = some c.cpu.pc ∨ ∃ limit ∈ maxSteps, limit ≤ n

/-- Whether a run ends at a machine that has done `n` steps. -/
def Ends (stopPc : Option UInt32) (maxSteps : Option Nat) (n : Nat) (c : Computer β) : Prop :=
  Stops stopPc maxSteps n c ∨ ∃ e c', c.step = .fault e c'

/-- A run ends at none of the first `n` machines from `c` on, which has done `i` steps. -/
def GoesOn (s : Scheduler) (i : Nat) (c : Computer β) (n : Nat) : Prop :=
  ∀ j < n, ∀ c', c.after? j = some c' → ¬ Ends s.stopPc s.maxSteps (i + j) c'

/-- The scheduler when `n` steps have been done. -/
def counting (s : Scheduler) (n : Nat) : Scheduler := { s with executed := n }

/-- The scheduler when `n` steps have been done and it has looked at the program counter. -/
def settled (s : Scheduler) (n : Nat) (pc : UInt32) : Scheduler :=
  if s.atStop pc then (s.counting n).stop else s.counting n

omit [Bus β] in
theorem limitReached_counting (s : Scheduler) (n : Nat) :
    (s.counting n).limitReached = true ↔ ∃ limit ∈ s.maxSteps, limit ≤ n := by
  unfold limitReached counting
  cases s.maxSteps <;> simp

theorem atStop_iff (s : Scheduler) (pc : UInt32) : s.atStop pc = true ↔ s.stopPc = some pc := by
  simp [atStop]

theorem atStop_counting (s : Scheduler) (n : Nat) (pc : UInt32) :
    (s.counting n).atStop pc = s.atStop pc := rfl

theorem finished_counting {s : Scheduler} (hs : s.stopped = false) (n : Nat) :
    (s.counting n).finished = (s.counting n).limitReached := by
  simp [finished, counting, hs]

theorem GoesOn.mono {s : Scheduler} {i m n : Nat} {c : Computer β} (h : s.GoesOn i c n)
    (hmn : m ≤ n) : s.GoesOn i c m := fun j hj => h j (Nat.lt_of_lt_of_le hj hmn)

theorem GoesOn.after {s : Scheduler} {i m n : Nat} {c c' : Computer β} (h : s.GoesOn i c (m + n))
    (hc : c.after? m = some c') : s.GoesOn (i + m) c' n := by
  intro j hj d hd
  rw [Nat.add_assoc]
  exact h (m + j) (by omega) d ((Computer.after?_add hc j).trans hd)

theorem goesOn_of_steps {s : Scheduler} {m : Nat → Computer β} {i n : Nat}
    (h : ∀ j < n, (m j).step = .done () (m (j + 1)))
    (hstops : ∀ j < n, ¬ Stops s.stopPc s.maxSteps (i + j) (m j)) : s.GoesOn i (m 0) n := by
  intro j hj c hc hends
  cases (Computer.after?_of_steps h (Nat.le_of_lt hj)).symm.trans hc
  rcases hends with hstop | ⟨e, c', hfault⟩
  · exact hstops j hj hstop
  · rw [h j hj] at hfault
    cases hfault

/-- Where no stop condition holds one more step is taken, and counted unless it fails. -/
theorem runSteps_of_not_stops {s : Scheduler} (hs : s.stopped = false) {c : Computer β} {i : Nat}
    (h : ¬ Stops s.stopPc s.maxSteps i c) (n : Nat) :
    runSteps (n + 1) (s.counting i) c =
      match c.step with
      | .fault e c' => .fault e (s.counting i, c')
      | .endless => .endless
      | .done _ c' => runSteps n (s.counting (i + 1)) c' := by
  simp only [Stops, not_or] at h
  obtain ⟨hpc, hlimit⟩ := h
  rw [runSteps, if_neg (by rw [atStop_counting, atStop_iff]; exact hpc),
    if_neg (by rw [finished_counting hs, limitReached_counting]; exact hlimit)]
  rfl

/-- Before the end a step is done and counted, if it comes back. -/
theorem runSteps_succ {s : Scheduler} (hs : s.stopped = false) {c : Computer β} {i m : Nat}
    (h : s.GoesOn i c (m + 1)) (n : Nat) : runSteps (n + 1) (s.counting i) c =
      match c.step.state? with
      | none => .endless
      | some c' => runSteps n (s.counting (i + 1)) c' := by
  obtain ⟨hstop, hstep⟩ := not_or.1 (h 0 (Nat.succ_pos m) c rfl)
  rw [runSteps_of_not_stops (i := i) hs hstop]
  cases hdone : c.step with
  | fault e c' => exact absurd ⟨e, c', hdone⟩ hstep
  | endless => rfl
  | done u c' => rfl

/-- Any number of steps before the end are done and counted. -/
theorem runSteps_add {s : Scheduler} (hs : s.stopped = false) {c c' : Computer β} {i m : Nat}
    (hc : c.after? m = some c') (h : s.GoesOn i c m) (n : Nat) :
    runSteps (m + n) (s.counting i) c = runSteps n (s.counting (i + m)) c' := by
  induction m generalizing i c with
  | zero =>
    cases hc
    rw [Nat.zero_add, Nat.add_zero]
  | succ m ih =>
    rw [Computer.after?, Option.bind_eq_some_iff] at hc
    obtain ⟨d, hstep, hrest⟩ := hc
    have hd : c.after? 1 = some d := by simp [Computer.after?, hstep]
    rw [Nat.add_right_comm, runSteps_succ hs h, hstep]
    dsimp only
    rw [ih hrest (GoesOn.after (by rwa [Nat.add_comm]) hd), Nat.add_right_comm, Nat.add_assoc]

/-- Where a step on the way does not come back, none of them does. -/
theorem runSteps_eq_endless {s : Scheduler} (hs : s.stopped = false) {c : Computer β} {i n : Nat}
    (hc : c.after? n = none) (h : s.GoesOn i c n) : runSteps n (s.counting i) c = .endless := by
  induction n generalizing i c with
  | zero => cases hc
  | succ n ih =>
    rw [runSteps_succ hs h]
    cases hstep : c.step.state? with
    | none => rfl
    | some d =>
      rw [Computer.after?, hstep, Option.bind_some] at hc
      have hd : c.after? 1 = some d := by simp [Computer.after?, hstep]
      exact ih hc (GoesOn.after (by rwa [Nat.add_comm]) hd)

/-- Where a stop condition holds no more steps are done. -/
theorem runSteps_of_stops {s : Scheduler} (hs : s.stopped = false) {c : Computer β} {m : Nat}
    (h : Stops s.stopPc s.maxSteps m c) (n : Nat) :
    runSteps (n + 1) (s.counting m) c = .done () (s.settled m c.cpu.pc, c) := by
  rw [runSteps, atStop_counting, settled]
  by_cases hpc : s.atStop c.cpu.pc = true
  · rw [if_pos hpc, if_pos hpc]
  · have hlimit : ∃ limit ∈ s.maxSteps, limit ≤ m :=
      h.resolve_left fun hstop => hpc ((atStop_iff s _).2 hstop)
    rw [if_neg hpc, if_neg hpc, if_pos]
    rwa [finished_counting hs, limitReached_counting]

theorem settled_eq {s : Scheduler} (hs : s.stopped = false) (n : Nat) (pc : UInt32) :
    s.settled n pc = { s with executed := n, stopped := s.atStop pc } := by
  unfold settled
  cases hpc : s.atStop pc with
  | true => rfl
  | false =>
    rw [if_neg (by simp), counting, ← hs]

/-- Looking at the program counter once more changes nothing. -/
theorem settled_idem (s : Scheduler) (n : Nat) (pc : UInt32) :
    (if (s.settled n pc).atStop pc then (s.settled n pc).stop else s.settled n pc) =
      s.settled n pc := by
  unfold settled
  by_cases hpc : s.atStop pc = true
  · have hpc' : (s.counting n).stop.atStop pc = true := hpc
    rw [if_pos hpc, if_pos hpc']
    rfl
  · have hpc' : ¬ (s.counting n).atStop pc = true := hpc
    rw [if_neg hpc, if_neg hpc']

section

variable {s : Scheduler} (hs : s.stopped = false) {c c' : Computer β} {i n : Nat}
  (h : s.GoesOn i c n)

include hs h

/-- A quantum comes to the end of the run, or to where it is used up. -/
theorem runQuantum_eq_done (hc : c.after? n = some c') (hn : n ≤ s.quantum)
    (hlast : n = s.quantum ∨ Stops s.stopPc s.maxSteps (i + n) c') :
    (s.counting i).runQuantum c = .done () (s.settled (i + n) c'.cpu.pc, c') := by
  obtain ⟨rest, hrest⟩ := Nat.exists_eq_add_of_le hn
  have hsteps := runSteps_add hs hc h rest
  rw [← hrest] at hsteps
  rw [runQuantum, show (s.counting i).quantum = s.quantum from rfl, hsteps]
  cases rest with
  | zero =>
    rw [runSteps]
    rfl
  | succ rest =>
    rw [runSteps_of_stops hs (hlast.resolve_left (by omega))]
    simp only [settled_idem]

/-- A quantum in which a step fails leaves what that step left, and does not count it. -/
theorem runQuantum_eq_fault (hc : c.after? n = some c') (hn : n < s.quantum)
    (hstop : ¬ Stops s.stopPc s.maxSteps (i + n) c') {e : Fault} {c'' : Computer β}
    (hstep : c'.step = .fault e c'') :
    (s.counting i).runQuantum c = .fault e (s.counting (i + n), c'') := by
  obtain ⟨rest, hrest⟩ := Nat.exists_eq_add_of_le (show n + 1 ≤ s.quantum by omega)
  have hsteps := runSteps_add hs hc h (rest + 1)
  rw [show n + (rest + 1) = s.quantum by omega] at hsteps
  rw [runQuantum, show (s.counting i).quantum = s.quantum from rfl, hsteps,
    runSteps_of_not_stops hs hstop, hstep]

end

/-- A quantum in which a step does not come back does not come back. -/
theorem runQuantum_eq_endless {s : Scheduler} (hs : s.stopped = false) {c : Computer β} {i : Nat}
    (h : s.GoesOn i c s.quantum) (hc : c.after? s.quantum = none) :
    (s.counting i).runQuantum c = .endless := by
  rw [runQuantum, show (s.counting i).quantum = s.quantum from rfl, runSteps_eq_endless hs hc h]

end Scheduler

end GameConsole
