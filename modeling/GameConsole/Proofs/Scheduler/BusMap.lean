import GameConsole.Scheduler

/-! Computers on two buses that answer alike. A map from one bus to the other that keeps what
reading answers and goes along with what writing does goes along with everything that the processor
and the scheduler do. -/

namespace GameConsole

variable {σ τ α β γ : Type}

theorem Outcome.mapState_andThen {f : σ → τ} {o : Outcome σ α} {next : α → σ → Outcome σ β}
    {next' : α → τ → Outcome τ β} (h : ∀ a s, next' a (f s) = (next a s).mapState f) :
    (o.mapState f).andThen next' = (o.andThen next).mapState f := by
  cases o with
  | done a s => exact h a s
  | fault e s => rfl
  | endless => rfl

theorem Outcome.mapState_mapState {υ : Type} (f : σ → τ) (g : τ → υ) (o : Outcome σ α) :
    (o.mapState f).mapState g = o.mapState (g ∘ f) := by cases o <;> rfl

variable [Bus β] [Bus γ]

/-- A map between buses that goes along with reading and writing. -/
structure Bus.Hom (f : β → γ) : Prop where
  read : ∀ b w addr, Bus.read (f b) w addr = Bus.read b w addr
  write : ∀ b w addr value, Bus.write (f b) w addr value = (Bus.write b w addr value).mapState f

namespace Computer

/-- The same processor on another bus. -/
def mapBus (f : β → γ) (c : Computer β) : Computer γ := ⟨c.cpu, f c.bus⟩

variable {f : β → γ} (hf : Bus.Hom f) (c : Computer β)

include hf

theorem loadInto_mapBus (r : Register) (w : Width) (addr : UInt32) (g : UInt32 → UInt32) :
    (c.mapBus f).loadInto r w addr g = (c.loadInto r w addr g).mapState (mapBus f) := by
  have hread : Bus.read (c.mapBus f).bus w addr = Bus.read c.bus w addr := hf.read _ _ _
  rw [loadInto, loadInto, hread]
  cases Bus.read c.bus w addr <;> rfl

theorem storeFrom_mapBus (r : Register) (w : Width) (addr : UInt32) :
    (c.mapBus f).storeFrom r w addr = (c.storeFrom r w addr).mapState (mapBus f) := by
  simp only [storeFrom, mapBus, hf.write]
  cases Bus.write c.bus w addr (c.cpu.reg r) <;> rfl

theorem execute_mapBus (i : Instruction) :
    (c.mapBus f).execute i = (c.execute i).mapState (mapBus f) := by
  cases i with
  | lh rt base offset => exact loadInto_mapBus hf c _ _ _ _
  | lw rt base offset => exact loadInto_mapBus hf c _ _ _ _
  | lbu rt base offset => exact loadInto_mapBus hf c _ _ _ _
  | sb rt base offset => exact storeFrom_mapBus hf c _ _ _
  | sh rt base offset => exact storeFrom_mapBus hf c _ _ _
  | sw rt base offset => exact storeFrom_mapBus hf c _ _ _
  | _ => rfl

theorem executeNext_mapBus :
    (c.mapBus f).executeNext = c.executeNext.mapState (mapBus f) := by
  have hread : Bus.read (c.mapBus f).bus .word c.cpu.pc = Bus.read c.bus .word c.cpu.pc :=
    hf.read _ _ _
  simp only [executeNext, show (c.mapBus f).cpu = c.cpu from rfl, hread]
  cases Bus.read c.bus .word c.cpu.pc with
  | error e => rfl
  | ok word =>
    dsimp only
    cases Instruction.decode word c.cpu.pc with
    | error e => rfl
    | ok i => exact execute_mapBus hf ⟨{ c.cpu with pc := c.cpu.pc + 4 }, c.bus⟩ i

theorem runChain_mapBus (start : UInt32) (fuel : Nat) (target : Option UInt32) :
    runChain start fuel target (c.mapBus f) =
      (runChain start fuel target c).mapState (mapBus f) := by
  induction fuel generalizing target c with
  | zero => rfl
  | succ fuel ih =>
    rw [runChain, runChain, executeNext_mapBus hf]
    cases c.executeNext with
    | fault e c' => rfl
    | endless => rfl
    | done next c' =>
      cases next with
      | some next => exact ih c' _
      | none => cases target <;> rfl

theorem step_mapBus : (c.mapBus f).step = c.step.mapState (mapBus f) :=
  runChain_mapBus hf c _ _ _

end Computer

namespace Scheduler

/-- The same scheduler beside a computer on another bus. -/
def mapBus (f : β → γ) : Scheduler × Computer β → Scheduler × Computer γ :=
  Prod.map id (Computer.mapBus f)

variable {f : β → γ} (hf : Bus.Hom f) (s : Scheduler) (c : Computer β)

include hf

theorem runSteps_mapBus (n : Nat) :
    runSteps n s (c.mapBus f) = (runSteps n s c).mapState (mapBus f) := by
  induction n generalizing s c with
  | zero => rfl
  | succ n ih =>
    rw [runSteps, runSteps, Computer.step_mapBus hf, show (c.mapBus f).cpu = c.cpu from rfl]
    by_cases hpc : s.atStop c.cpu.pc = true
    · rw [if_pos hpc, if_pos hpc]
      rfl
    rw [if_neg hpc, if_neg hpc]
    by_cases hfin : s.finished = true
    · rw [if_pos hfin, if_pos hfin]
      rfl
    rw [if_neg hfin, if_neg hfin]
    cases c.step with
    | fault e c' => rfl
    | endless => rfl
    | done u c' => exact ih _ c'

theorem runQuantum_mapBus :
    s.runQuantum (c.mapBus f) = (s.runQuantum c).mapState (mapBus f) := by
  rw [runQuantum, runQuantum, runSteps_mapBus hf]
  cases runSteps s.quantum s c <;> rfl

end Scheduler

end GameConsole
