import GameConsole.Session
import GameConsole.Window.EventLoop

/-! The windowed session: it runs an executable in a window until the window closes. -/

namespace GameConsole.Windowed

def complaint : SetupFault → String
  | .options cause => "Error: " ++ cause.message
  | .executable cause => "Error: failed to load EXE: " ++ cause.message
  | .bootRom cause => "Error: failed to load boot ROM: " ++ cause.message
  | .console cause => "Error: " ++ cause.message

/-- The end of a session, and its event loop if it has come that far. -/
structure Result where
  closing : Closing
  loop : Option EventLoop := none

variable (readers : Readers)

def runOptions (files : Files) (clock : Nat → Nat) (allowance : Nat) (o : Options) :
    Option Result :=
  match o.setUp readers files Raster.initial with
  | .error cause => some { closing := .refused (complaint cause) }
  | .ok e =>
    (EventLoop.run clock allowance e).map fun l =>
      { closing := { exitCode := 0, log := l.lines }, loop := some l }

/-- A session from its arguments to its end. -/
def run (files : Files) (clock : Nat → Nat) (allowance : Nat) (arguments : List String) :
    Option Result :=
  match readers.arguments arguments with
  | .error cause => some { closing := .ofUsage cause }
  | .ok o => runOptions readers files clock allowance o

end GameConsole.Windowed
