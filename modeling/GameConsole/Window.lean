import GameConsole.Emulator
import GameConsole.Window.Frame

/-! The window in which an emulator is watched. Each event changes the emulator and answers with
requests to the window system: one quantum runs whenever the window system is idle, and the picture
is shown when a redraw is due. A quantum that never comes back leaves the event without an
answer. -/

namespace GameConsole

/-- The calls to the window system that it may refuse. -/
inductive WindowCall
  | createWindow
  | openContext
  | openSurface
  | resizeSurface
  | borrowBuffer
  | present
deriving DecidableEq

/-- The window system as far as a window sees it. -/
structure Desktop where
  /-- The size of the window at present. -/
  innerSize : Resolution := ⟨0, 0⟩
  refused : Option WindowCall := none
deriving DecidableEq

def Desktop.grants (d : Desktop) (call : WindowCall) : Bool := d.refused ≠ some call

/-- What a window asks of the window system, and the lines it prints. -/
inductive WindowRequest
  | create (title : String) (size : Resolution)
  | redraw
  | poll
  | exit
  | present (frame : Raster)
  | print (line : String)

inductive WindowEvent
  | resumed
  | redrawRequested
  | closeRequested
  | other
  /-- No event is waiting. The clock of the emulator shows `elapsed` milliseconds. -/
  | idle (elapsed : Nat)

structure Window where
  emulator : Emulator Raster
  isOpen : Bool := false

namespace Window

def title : String := "psxemu"

def initialSize : Resolution :=
  ⟨Resolution.standard.width * Raster.scale, Resolution.standard.height * Raster.scale⟩

/-- Opens a new window, which takes the place of the one before. -/
def resume (w : Window) (d : Desktop) : Window × Desktop × List WindowRequest :=
  if !d.grants .createWindow then (w, d, [.exit])
  else
    let create := WindowRequest.create title initialSize
    let d := { d with innerSize := initialSize }
    if d.grants .openContext && d.grants .openSurface then
      ({ w with isOpen := true }, d, [create, .redraw])
    else (w, d, [create, .exit])

/-- Shows the picture. A window that has shrunk to nothing shows none. -/
def redraw (w : Window) (d : Desktop) : List WindowRequest :=
  if !w.isOpen || d.innerSize.width = 0 || d.innerSize.height = 0 then []
  else if d.grants .resizeSurface && d.grants .borrowBuffer && d.grants .present then
    [.present (w.emulator.renderer.frame d.innerSize)]
  else [.exit]

/-- Prints the final report and ends. -/
def close (w : Window) : List WindowRequest :=
  w.emulator.report.map .print ++ [.exit]

/-- Runs one quantum, and closes the window after a fault or at a stop condition. -/
def advance (w : Window) (elapsed : Nat) : Option (Window × List WindowRequest) :=
  let ⟨emulator, isOpen⟩ := w
  match emulator.step with
  | .fault _ emulator =>
    let w : Window := ⟨emulator, isOpen⟩
    some (w, w.close)
  | .endless => none
  | .done _ emulator =>
    let w : Window := ⟨emulator, isOpen⟩
    if emulator.shouldStop elapsed then some (w, w.close)
    else some (w, if isOpen then [.redraw, .poll] else [.poll])

/-- What becomes of a window when an event comes. There is no answer if the event never ends. -/
def handle (w : Window) (d : Desktop) :
    WindowEvent → Option (Window × Desktop × List WindowRequest)
  | .resumed => some (w.resume d)
  | .redrawRequested => some (w, d, w.redraw d)
  | .closeRequested => some (w, d, w.close)
  | .other => some (w, d, [])
  | .idle elapsed => (w.advance elapsed).map fun (w, requests) => (w, d, requests)

end Window

end GameConsole
