import GameConsole.Window

/-! The loop that hands its events to a window until the window asks to end it. -/

namespace GameConsole

/-- A window on its desktop, and what it has asked for so far. -/
structure EventLoop where
  window : Window
  desktop : Desktop := {}
  redrawDue : Bool := false
  ended : Bool := false
  /-- How many frames have been shown. -/
  frames : Nat := 0
  lastFrame : Option Raster := none
  lines : List String := []

namespace EventLoop

def obey (l : EventLoop) : WindowRequest → EventLoop
  | .create .. => l
  | .redraw => { l with redrawDue := true }
  | .poll => l
  | .exit => { l with ended := true }
  | .present frame => { l with frames := l.frames + 1, lastFrame := some frame }
  | .print line => { l with lines := l.lines ++ [line] }

/-- Hands over an event, if that ever ends. -/
def dispatch (l : EventLoop) (event : WindowEvent) : Option EventLoop :=
  let ⟨window, desktop, redrawDue, ended, frames, lastFrame, lines⟩ := l
  (window.handle desktop event).map fun (window, desktop, requests) =>
    requests.foldl obey ⟨window, desktop, redrawDue, ended, frames, lastFrame, lines⟩

/-- A redraw that is due comes before the window system is idle. -/
def round (l : EventLoop) (elapsed : Nat) : Option EventLoop :=
  let drawn :=
    if l.redrawDue then dispatch { l with redrawDue := false } .redrawRequested else some l
  drawn.bind fun l => l.dispatch (.idle elapsed)

/-- Goes round until the end, or gives no answer if the allowance runs out before. The clock shows
`clock n` milliseconds when `n` rounds are left of the allowance. -/
def rounds (clock : Nat → Nat) : Nat → EventLoop → Option EventLoop
  | 0, _ => none
  | n + 1, l => if l.ended then some l else (l.round (clock n)).bind (rounds clock n)

/-- Shows an emulator in a window from the start to the end. -/
def run (clock : Nat → Nat) (allowance : Nat) (emulator : Emulator Raster) : Option EventLoop :=
  let start : EventLoop := { window := { emulator } }
  (start.dispatch .resumed).bind (rounds clock allowance)

end EventLoop

end GameConsole
