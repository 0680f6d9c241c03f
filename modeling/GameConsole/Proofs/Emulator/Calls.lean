import GameConsole.Proofs.Emulator.Run
import GameConsole.Proofs.Scheduler.Attempts

/-! Calls to an emulator, one after another and in any order, those after a fault among them. The
count of the emulator is always the number of steps of the processor that were successful, and is
never above its limit; the mark for the stop address is set only at that address; and once a stop
condition holds no call has an effect on the machine any more. -/

namespace GameConsole

/-- What an emulator is asked to do. A run has a clock and an allowance of quanta of its own. -/
inductive Call
  | step
  | run (clock : Nat → Nat) (allowance : Nat)
  | shouldStop (elapsed : Nat)

/-- What a call gives back. -/
inductive Answer
  | stepped (result : Except Fault Unit)
  | ran (reason : StopReason)
  | stops (answer : Bool)

def Answer.isFault : Answer → Bool
  | stepped (.error _) => true
  | ran (.fault _) => true
  | _ => false

namespace Emulator

open Scheduler

variable {ρ : Type} [Renderer ρ]

/-- The answer to a call and the emulator after it. A call that does not come back has none. -/
def call (e : Emulator ρ) : Call → Option (Answer × Emulator ρ)
  | .step =>
    match e.step with
    | .done _ e => some (.stepped (.ok ()), e)
    | .fault cause e => some (.stepped (.error cause), e)
    | .endless => none
  | .run clock allowance => (e.run clock allowance).map fun (reason, e) => (.ran reason, e)
  | .shouldStop elapsed => some (.stops (e.shouldStop elapsed), e)

/-- Calls in order, with their answers. -/
def calls : List Call → Emulator ρ → Option (List Answer × Emulator ρ)
  | [], e => some ([], e)
  | c :: cs, e =>
    (e.call c).bind fun (answer, e) => (calls cs e).map fun (answers, e) => (answer :: answers, e)

/-! ### Attempted steps -/

/-- How many steps the processor attempts in a quantum. -/
def quantumAttempts (e : Emulator ρ) : Nat := attempts e.scheduler.quantum e.scheduler e.computer

/-- How many steps the processor attempts in a run. -/
def runAttempts (clock : Nat → Nat) : Nat → Emulator ρ → Nat
  | 0, _ => 0
  | n + 1, e =>
    if e.shouldStop (clock n) then 0
    else
      match e.step with
      | .fault _ _ | .endless => e.quantumAttempts
      | .done _ e' => e.quantumAttempts + runAttempts clock n e'

def callAttempts (e : Emulator ρ) : Call → Nat
  | .step => e.quantumAttempts
  | .run clock allowance => e.runAttempts clock allowance
  | .shouldStop _ => 0

/-- How many steps the processor attempts in all of these calls. -/
def callsAttempts : List Call → Emulator ρ → Nat
  | [], _ => 0
  | c :: cs, e =>
    e.callAttempts c +
      match e.call c with
      | none => 0
      | some (_, e) => callsAttempts cs e

/-- The second emulator has gone on from the first one while the processor attempted `n` steps. -/
structure Advanced (e : Emulator ρ) (n : Nat) (e' : Emulator ρ) : Prop extends
    Scheduler.Advanced e.scheduler e.computer n e'.scheduler e'.computer where
  timeout : e'.timeout = e.timeout

def Sound (e : Emulator ρ) : Prop := e.scheduler.Sound e.computer

variable {e e' : Emulator ρ}

theorem Advanced.refl (h : e.Sound) : e.Advanced 0 e := ⟨.refl h, rfl⟩

theorem Advanced.trans {e'' : Emulator ρ} {m n : Nat} (h : e.Advanced m e')
    (h' : e'.Advanced n e'') : e.Advanced (m + n) e'' :=
  ⟨h.toAdvanced.trans h'.toAdvanced, h'.timeout.trans h.timeout⟩

theorem step_eq (e : Emulator ρ) : e.step =
    (e.scheduler.runQuantum e.computer).mapState fun (scheduler, computer) =>
      { e with computer, scheduler } := rfl

theorem advanced_step (h : e.Sound) : e.step.Leaves (e.Advanced e.quantumAttempts) := by
  rw [step_eq, Outcome.leaves_mapState]
  exact (advanced_runQuantum h).mono fun _ hquantum => ⟨hquantum, rfl⟩

theorem run_succ_eq (e : Emulator ρ) (clock : Nat → Nat) (n : Nat) : e.run clock (n + 1) =
    if e.shouldStop (clock n) then
      some (if e.scheduler.finished then .stopCondition else .timeout, e)
    else
      match e.step with
      | .fault cause e => some (.fault cause, e)
      | .endless => none
      | .done _ e => e.run clock n := by
  rw [run, shouldStop]
  by_cases hfin : e.scheduler.finished = true
  · simp [hfin]
  · by_cases htime : e.timedOut (clock n) = true
    · simp [hfin, htime]
    · have hopen : ¬ (e.scheduler.finished || e.timedOut (clock n)) = true := by
        simp [hfin, htime]
      rw [if_neg hfin, if_neg htime]
      exact (if_neg hopen).symm

theorem advanced_run (h : e.Sound) {clock : Nat → Nat} {n : Nat} {reason : StopReason}
    (hrun : e.run clock n = some (reason, e')) : e.Advanced (e.runAttempts clock n) e' := by
  induction n generalizing e with
  | zero => cases hrun
  | succ n ih =>
    rw [run_succ_eq] at hrun
    rw [runAttempts]
    by_cases hstop : e.shouldStop (clock n) = true
    · rw [if_pos hstop] at hrun ⊢
      cases hrun
      exact .refl h
    rw [if_neg hstop] at hrun ⊢
    have hquantum := advanced_step h
    cases hstep : e.step with
    | fault cause e₁ =>
      simp only [hstep, Option.some.injEq, Prod.mk.injEq] at hrun
      obtain ⟨-, rfl⟩ := hrun
      rwa [hstep] at hquantum
    | endless => simp [hstep] at hrun
    | done u e₁ =>
      simp only [hstep] at hrun
      rw [hstep] at hquantum
      exact hquantum.trans (ih hquantum.sound hrun)

theorem advanced_call (h : e.Sound) {c : Call} {answer : Answer}
    (hcall : e.call c = some (answer, e')) : e.Advanced (e.callAttempts c) e' := by
  cases c with
  | step =>
    have hquantum := advanced_step h
    rw [call] at hcall
    cases hstep : e.step with
    | endless => simp [hstep] at hcall
    | fault cause e₁ =>
      obtain ⟨-, rfl⟩ : _ ∧ e₁ = e' := by simpa [hstep] using hcall
      rwa [hstep] at hquantum
    | done u e₁ =>
      obtain ⟨-, rfl⟩ : _ ∧ e₁ = e' := by simpa [hstep] using hcall
      rwa [hstep] at hquantum
  | run clock allowance =>
    obtain ⟨reason, hrun, -⟩ : ∃ reason, e.run clock allowance = some (reason, e') ∧ _ := by
      simpa [call] using hcall
    exact advanced_run h hrun
  | shouldStop elapsed =>
    obtain ⟨-, rfl⟩ : _ ∧ e = e' := by simpa [call] using hcall
    exact .refl h

theorem calls_cons_eq_some {c : Call} {cs : List Call} {answers : List Answer} :
    e.calls (c :: cs) = some (answers, e') ↔ ∃ answer e₁ rest,
      e.call c = some (answer, e₁) ∧ e₁.calls cs = some (rest, e') ∧ answers = answer :: rest := by
  simp only [calls, Option.bind_eq_some_iff, Option.map_eq_some_iff, Prod.exists, Prod.mk.injEq]
  constructor
  · rintro ⟨answer, e₁, hcall, rest, _, hrest, rfl, rfl⟩
    exact ⟨answer, e₁, rest, hcall, hrest, rfl⟩
  · rintro ⟨answer, e₁, rest, hcall, hrest, rfl⟩
    exact ⟨answer, e₁, hcall, rest, e', hrest, rfl, rfl⟩

theorem advanced_calls (h : e.Sound) {cs : List Call} {answers : List Answer}
    (hcalls : e.calls cs = some (answers, e')) : e.Advanced (e.callsAttempts cs) e' := by
  induction cs generalizing e answers with
  | nil =>
    obtain ⟨-, rfl⟩ : [] = answers ∧ e = e' := by simpa [calls] using hcalls
    exact .refl h
  | cons c cs ih =>
    obtain ⟨answer, e₁, rest, hcall, hrest, -⟩ := calls_cons_eq_some.1 hcalls
    have hfirst := advanced_call h hcall
    simp only [callsAttempts, hcall]
    exact hfirst.trans (ih hfirst.sound hrest)

/-! ### After a stop condition -/

/-- The second emulator differs from the first one at most in the mark for the stop address, and a
stop condition holds of it. -/
structure Rests (e e' : Emulator ρ) : Prop where
  computer : e'.computer = e.computer
  executed : e'.executed = e.executed
  finished : e'.scheduler.finished = true

omit [Renderer ρ] in
theorem Rests.trans {e'' : Emulator ρ} (h : Rests e e') (h' : Rests e' e'') : Rests e e'' :=
  ⟨h'.computer.trans h.computer, h'.executed.trans h.executed, h'.finished⟩

theorem step_of_finished (h : e.scheduler.finished = true) :
    ∃ e', e.step = .done () e' ∧ Rests e e' := by
  rw [step_eq, runQuantum_of_finished h]
  refine ⟨_, rfl, rfl, ?_, ?_⟩
  · simp only [executed]
    split <;> rfl
  · split
    · rfl
    · exact h

theorem call_of_finished (h : e.scheduler.finished = true) {c : Call}
    (hallowed : ∀ clock, c ≠ .run clock 0) :
    ∃ answer e', e.call c = some (answer, e') ∧ Rests e e' ∧ answer.isFault = false := by
  cases c with
  | step =>
    obtain ⟨e', hstep, hrests⟩ := step_of_finished h
    exact ⟨_, e', by rw [call, hstep], hrests, rfl⟩
  | run clock allowance =>
    obtain ⟨n, rfl⟩ := Nat.exists_eq_succ_of_ne_zero (fun h => hallowed clock (h ▸ rfl))
    refine ⟨.ran .stopCondition, e, ?_, ⟨rfl, rfl, h⟩, rfl⟩
    rw [call, run, if_pos h]
    rfl
  | shouldStop elapsed => exact ⟨_, e, rfl, ⟨rfl, rfl, h⟩, rfl⟩

theorem calls_of_finished (h : e.scheduler.finished = true) {cs : List Call}
    (hallowed : ∀ clock, Call.run clock 0 ∉ cs) :
    ∃ answers e', e.calls cs = some (answers, e') ∧ Rests e e' ∧
      ∀ answer ∈ answers, answer.isFault = false := by
  induction cs generalizing e with
  | nil => exact ⟨[], e, rfl, ⟨rfl, rfl, h⟩, by simp⟩
  | cons c cs ih =>
    simp only [List.mem_cons, not_or] at hallowed
    obtain ⟨answer, e₁, hcall, hrests, hanswer⟩ :=
      call_of_finished h fun clock => Ne.symm (hallowed clock).1
    obtain ⟨rest, e', hcalls, hrests', hrest⟩ := ih hrests.finished fun clock => (hallowed clock).2
    refine ⟨answer :: rest, e', calls_cons_eq_some.2 ⟨_, _, _, hcall, hcalls, rfl⟩,
      hrests.trans hrests', ?_⟩
    simpa [hanswer] using hrest

/-! ### From the start -/

theorem sound_of_boot {image : ByteArray} {config : Config} {r : ρ}
    (hboot : boot image config r = .ok e) : e.Sound := by
  rw [Sound, (boot_eq_ok hboot).1]
  exact ⟨fun limit _ => Nat.zero_le limit, fun h => by cases h⟩

/-- What holds after any calls to a new emulator that have come back, those after a fault among
them. Only a run without any allowance does not come back once a stop condition holds. -/
theorem calls_of_boot {image : ByteArray} {config : Config} {r : ρ}
    (hboot : boot image config r = .ok e) {cs : List Call} {answers : List Answer}
    (hcalls : e.calls cs = some (answers, e')) :
    e.computer.after? (e.callsAttempts cs) = some e'.computer ∧
    e'.executed = e.computer.successes (e.callsAttempts cs) ∧
    (∀ limit ∈ config.maxSteps, e'.executed ≤ limit) ∧
    (e'.stopped = true → config.stopPc = some e'.pc) ∧
    (∀ e'', e'.step = .done () e'' → (e''.stopped = true ↔ config.stopPc = some e''.pc)) ∧
    (e'.scheduler.finished = true → ∀ later, (∀ clock, Call.run clock 0 ∉ later) →
      ∃ answers' e'', e'.calls later = some (answers', e'') ∧
        e''.computer = e'.computer ∧ e''.executed = e'.executed ∧
        e''.scheduler.finished = true ∧ ∀ answer ∈ answers', answer.isFault = false) := by
  have hadvanced := advanced_calls (sound_of_boot hboot) hcalls
  have hscheduler := (boot_eq_ok hboot).1
  have hexecuted : e.scheduler.executed = 0 := by rw [hscheduler]; rfl
  have hstopPc : e'.scheduler.stopPc = config.stopPc := by
    rw [hadvanced.stopPc, hscheduler]
    rfl
  have hmax : e'.scheduler.maxSteps = config.maxSteps := by
    rw [hadvanced.maxSteps, hscheduler]
    rfl
  refine ⟨hadvanced.computer, ?count, ?limit, ?stopped, ?quantum, ?later⟩
  case count =>
    rw [executed, hadvanced.executed, hexecuted, Nat.zero_add]
  case limit =>
    rw [← hmax]
    exact hadvanced.sound.executed_le
  case stopped =>
    rw [← hstopPc]
    exact hadvanced.sound.stopped
  case quantum =>
    intro e'' hstep
    have hnext : e'.Advanced e'.quantumAttempts e'' := by
      have hleaves := advanced_step (e := e') hadvanced.sound
      rwa [hstep] at hleaves
    rw [← hstopPc, ← hnext.stopPc]
    rw [step_eq] at hstep
    obtain ⟨sc, hquantum, rfl⟩ := Outcome.mapState_eq_done_iff.1 hstep
    exact stopped_runQuantum hadvanced.sound hquantum
  case later =>
    intro hfin later hallowed
    obtain ⟨answers', e'', hlater, hrests, hanswers⟩ := calls_of_finished hfin hallowed
    exact ⟨answers', e'', hlater, hrests.computer, hrests.executed, hrests.finished, hanswers⟩

/-- A program of six steps with a limit of five, under a quantum of four. The second quantum does
one step, and later calls do none. -/
theorem calls_of_boot_playback :
    ∃ e e' : Emulator PrimitiveLog,
      boot (Playback.image Playback.square.words)
        { stopPc := some Playback.halt, maxSteps := some 5, quantum := some 4 } {} = .ok e ∧
      e.calls [.step, .step] = some ([.stepped (.ok ()), .stepped (.ok ())], e') ∧
      e.computer.successes (e.callsAttempts [.step, .step]) = 5 ∧
      ∃ answers e'', e'.calls [.step, .run (fun _ => 0) 1] = some (answers, e'') ∧
        e''.computer = e'.computer ∧ e''.executed = 5 := by
  obtain ⟨e, e₁, e', hboot, hone, -, htwo, hfin, hcount, -⟩ :=
    Playback.exists_quanta (r := ({} : PrimitiveLog)) Playback.square (Playback.draw_log _ _)
      (some 5) (k := 5) (by decide) (by decide) (by simp) (.inr rfl)
  have hcalls : e.calls [.step, .step] = some ([.stepped (.ok ()), .stepped (.ok ())], e') := by
    simp only [calls, call, hone, htwo, Option.bind_some, Option.map_some]
  obtain ⟨-, hsuccesses, -, -, -, hrest⟩ := calls_of_boot hboot hcalls
  obtain ⟨answers, e'', hlater, hcomputer, hexecuted, -⟩ :=
    hrest hfin [.step, .run (fun _ => 0) 1] (by simp)
  exact ⟨e, e', hboot, hcalls, hsuccesses.symm.trans hcount, answers, e'', hlater, hcomputer,
    hexecuted.trans hcount⟩

end Emulator

end GameConsole
