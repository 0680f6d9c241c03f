import GameConsole.Proofs.Emulator.Calls

/-! Emulators without a limit of time. The clocks of their calls do not matter, and a run does the
quanta of the emulator one after another up to the first that comes to a fault or to a stop
condition. -/

namespace GameConsole

/-- The same call, without its clock. -/
def Call.timeless : Call → Call
  | step => step
  | run _ allowance => run (fun _ => 0) allowance
  | shouldStop _ => shouldStop 0

namespace Emulator

variable {ρ : Type} [Renderer ρ]

theorem timeout_step {e e' : Emulator ρ} (h : e.step.state? = some e') :
    e'.timeout = e.timeout := by
  rw [step_eq, Outcome.state?_mapState, Option.map_eq_some_iff] at h
  obtain ⟨_, -, rfl⟩ := h
  rfl

omit [Renderer ρ] in
theorem shouldStop_eq {e : Emulator ρ} (htime : e.timeout = none) (elapsed : Nat) :
    e.shouldStop elapsed = e.scheduler.finished := by
  simp [shouldStop, timedOut, htime]

theorem run_timeless {e : Emulator ρ} (htime : e.timeout = none) (clock clock' : Nat → Nat)
    (n : Nat) : e.run clock n = e.run clock' n := by
  induction n generalizing e with
  | zero => rfl
  | succ n ih =>
    rw [run_succ_eq, run_succ_eq, shouldStop_eq htime, shouldStop_eq htime]
    cases hstep : e.step with
    | fault cause e' => rfl
    | endless => rfl
    | done u e' =>
      have htime' : e'.timeout = none := (timeout_step (by rw [hstep]; rfl)).trans htime
      simp only [ih htime']

theorem call_timeless {e : Emulator ρ} (htime : e.timeout = none) (c : Call) :
    e.call c.timeless = e.call c := by
  cases c with
  | step => rfl
  | run clock allowance => simp only [Call.timeless, call, run_timeless htime _ clock]
  | shouldStop elapsed => simp only [Call.timeless, call, shouldStop_eq htime]

theorem calls_timeless {e : Emulator ρ} (h : e.Sound) (htime : e.timeout = none)
    (cs : List Call) : e.calls (cs.map Call.timeless) = e.calls cs := by
  induction cs generalizing e with
  | nil => rfl
  | cons c cs ih =>
    rw [List.map_cons, calls, calls, call_timeless htime]
    cases hcall : e.call c with
    | none => rfl
    | some result =>
      obtain ⟨answer, e'⟩ := result
      have hadvanced := advanced_call h hcall
      simp only [Option.bind_some, ih hadvanced.sound (hadvanced.timeout.trans htime)]

/-! ### Quantum by quantum -/

variable {e e' : Emulator ρ}

end Emulator

end GameConsole
