import GameConsole.Board.Bus
import GameConsole.Scheduler

/-! The whole console with an executable in it: the processor on the main board, the scheduler and
an optional limit of time. -/

namespace GameConsole

structure Config where
  bootRom : Option ByteArray := none
  stopPc : Option UInt32 := none
  maxSteps : Option Nat := none
  /-- In milliseconds. -/
  timeout : Option Nat := none
  quantum : Option Nat := none

/-- Why a run came to its end. -/
inductive StopReason
  | stopCondition
  | timeout
  | fault (cause : Fault)
deriving DecidableEq

/-- The form of a log line. -/
def StopReason.record : StopReason → String
  | stopCondition => "StopCondition"
  | timeout => "Timeout"
  | fault cause => "Error(" ++ cause.record ++ ")"

structure Emulator (ρ : Type) where
  computer : Computer (Board ρ)
  scheduler : Scheduler
  timeout : Option Nat

namespace Emulator

variable {ρ : Type} [Renderer ρ]

/-- Resets a console with the given renderer and loads an executable into it. -/
def boot (image : ByteArray) (config : Config) (renderer : ρ) : Except Fault (Emulator ρ) :=
  let ⟨memory, gpu⟩ := (Board.new renderer).reset
  let memory :=
    match config.bootRom with
    | none => memory
    | some rom => memory.loadRom rom
  match memory.loadExecutable image with
  | (.error cause, _) => .error cause
  | (.ok header, memory) => .ok {
      computer := ⟨Cpu.initial.bootstrap header, ⟨memory, gpu⟩⟩
      scheduler := .new (config.quantum.getD standardQuantum) config.stopPc config.maxSteps
      timeout := config.timeout }

def pc (e : Emulator ρ) : UInt32 := e.computer.cpu.pc

def reg (e : Emulator ρ) (r : Register) : UInt32 := e.computer.cpu.reg r

def stopped (e : Emulator ρ) : Bool := e.scheduler.stopped

/-- The number of steps done. -/
def executed (e : Emulator ρ) : Nat := e.scheduler.executed

def renderer (e : Emulator ρ) : ρ := e.computer.bus.gpu.renderer

def readWord (e : Emulator ρ) (addr : UInt32) : Except Fault UInt32 :=
  e.computer.bus.read .word addr

/-- Runs one quantum. -/
@[specialize]
def step (e : Emulator ρ) : Outcome (Emulator ρ) Unit :=
  let ⟨computer, scheduler, timeout⟩ := e
  (scheduler.runQuantum computer).mapState fun (scheduler, computer) =>
    ⟨computer, scheduler, timeout⟩

/-- Whether the time is up, `elapsed` milliseconds after the start. -/
def timedOut (e : Emulator ρ) (elapsed : Nat) : Bool :=
  match e.timeout with
  | some limit => limit ≤ elapsed
  | none => false

def shouldStop (e : Emulator ρ) (elapsed : Nat) : Bool :=
  e.scheduler.finished || e.timedOut elapsed

/-- Runs quanta until a stop condition holds, the time is up or a fault occurs. The clock shows
`clock n` milliseconds when `n` quanta are left of the allowance; there is no answer if the
allowance runs out before the run ends, or if a quantum never comes back. -/
@[specialize]
def run (clock : Nat → Nat) : Nat → Emulator ρ → Option (StopReason × Emulator ρ)
  | 0, _ => none
  | n + 1, e =>
    if e.scheduler.finished then some (.stopCondition, e)
    else if e.timedOut (clock n) then some (.timeout, e)
    else
      match e.step with
      | .fault cause e => some (.fault cause, e)
      | .endless => none
      | .done _ e => run clock n e

/-- The registers that a final report shows. -/
def reported : List Register := [.v0, .v1, .a0, .a1, .a2, .a3, .gp, .sp, .ra]

/-- The lines of the final report. -/
def report (e : Emulator ρ) : List String :=
  let shown := reported.map fun r => " " ++ r.name ++ "=" ++ Numeral.hex (e.reg r).toNat
  ["Total instructions executed: " ++ toString e.executed,
    "CPU: pc=" ++ Numeral.hex e.pc.toNat ++ String.join shown]

end Emulator

end GameConsole
