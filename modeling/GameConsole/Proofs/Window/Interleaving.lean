import GameConsole.Proofs.Emulator.Timeless
import GameConsole.Window

/-! A window in which events come in any order, its size changes, and calls to the window system
are refused. Nothing of this reaches the emulator but the idle events, each of which runs one
quantum. So the frames show the picture as the latest idle event left it, and without a limit of
time the window closes of its own accord exactly where a run would have come back. An idle event
whose quantum never comes back is the last thing that happens. -/

namespace GameConsole

/-- What happens to a window: an event, a change of its size, or a change of the calls that the
window system refuses. -/
inductive Happening
  | event (event : WindowEvent)
  | resize (size : Resolution)
  | refuse (call : Option WindowCall)

def Happening.isIdle : Happening → Bool
  | event (.idle _) => true
  | _ => false

namespace Window

/-- What a window asks for when an event comes. In an event that never ends it asks for nothing. -/
def requests (s : Window × Desktop) (event : WindowEvent) : List WindowRequest :=
  match s.1.handle s.2 event with
  | some (_, _, requests) => requests
  | none => []

end Window

end GameConsole
