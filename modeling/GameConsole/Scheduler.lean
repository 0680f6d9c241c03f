import GameConsole.Cpu

/-! The scheduler runs the processor in quanta of a fixed number of steps. It stops for good at a
given program counter, and as soon as a given number of steps has been done. -/

namespace GameConsole

/-- How many steps make a quantum by default: about as many as a frame takes. -/
def standardQuantum : Nat := 100000

structure Scheduler where
  quantum : Nat := standardQuantum
  stopPc : Option UInt32 := none
  maxSteps : Option Nat := none
  /-- How many steps have been done. -/
  executed : Nat := 0
  /-- Whether the processor was seen at `stopPc`. -/
  stopped : Bool := false
  quantum_pos : 0 < quantum := by decide

namespace Scheduler

/-- A quantum without steps would never get on, so it counts as one step. -/
def new (quantum : Nat) (stopPc : Option UInt32) (maxSteps : Option Nat) : Scheduler where
  quantum := max quantum 1
  stopPc := stopPc
  maxSteps := maxSteps
  quantum_pos := by omega

def limitReached (s : Scheduler) : Bool :=
  match s.maxSteps with
  | some n => n ≤ s.executed
  | none => false

/-- Whether a stop condition holds. -/
def finished (s : Scheduler) : Bool := s.stopped || s.limitReached

def atStop (s : Scheduler) (pc : UInt32) : Bool := s.stopPc == some pc

def stop (s : Scheduler) : Scheduler := { s with stopped := true }

def countStep (s : Scheduler) : Scheduler := { s with executed := s.executed + 1 }

variable {β : Type} [Bus β]

/-- Does up to `n` steps, and fewer if a stop condition holds before one of them. -/
@[specialize]
def runSteps : Nat → Scheduler → Computer β → Outcome (Scheduler × Computer β) Unit
  | 0, s, c => .done () (s, c)
  | n + 1, s, c =>
    if s.atStop c.cpu.pc then .done () (s.stop, c)
    else if s.finished then .done () (s, c)
    else
      match c.step with
      | .fault e c => .fault e (s, c)
      | .endless => .endless
      | .done _ c => runSteps n s.countStep c

/-- Runs a quantum, and notes whether it ended at the stop address. A fault ends it early. -/
@[specialize]
def runQuantum (s : Scheduler) (c : Computer β) : Outcome (Scheduler × Computer β) Unit :=
  match runSteps s.quantum s c with
  | .fault e (s, c) => .fault e (s, c)
  | .endless => .endless
  | .done _ (s, c) => .done () (if s.atStop c.cpu.pc then s.stop else s, c)

end Scheduler

end GameConsole
