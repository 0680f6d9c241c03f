import GameConsole.Gpu.Pipe
import GameConsole.Gpu.Primitive
import GameConsole.Outcome

/-! What the GPU asks of a renderer, and the two renderers that draw nothing: one counts the
primitives by kind, the other keeps every command. -/

namespace GameConsole

structure Resolution where
  width : Nat
  height : Nat
deriving DecidableEq

/-- The resolution after a reset. -/
def Resolution.standard : Resolution := ⟨320, 240⟩

class Renderer (ρ : Type) where
  reset : ρ → Resolution → ρ
  /-- Answers whether a command could be drawn, and always comes back. -/
  draw : ρ → Packet → Except Fault Unit × ρ

/-- Counts the primitives of each kind. -/
structure PrimitiveLog where
  resolution : Resolution := .standard
  quads : Nat := 0
  sprites : Nat := 0
  operations : Nat := 0
deriving DecidableEq

namespace PrimitiveLog

def total (l : PrimitiveLog) : Nat := l.quads + l.sprites + l.operations

def count (l : PrimitiveLog) : Primitive → PrimitiveLog
  | .quad .. => { l with quads := l.quads + 1 }
  | .sprite .. => { l with sprites := l.sprites + 1 }
  | .operation _ => { l with operations := l.operations + 1 }

instance : Renderer PrimitiveLog where
  reset l resolution := { l with resolution }
  draw l p :=
    match Primitive.decode p.opcode p.words with
    | .error e => (.error e, l)
    | .ok primitive => (.ok (), l.count primitive)

end PrimitiveLog

/-- Accepts and keeps every command. -/
structure Recorder where
  draws : Array Packet := #[]
  resets : Array Resolution := #[]
deriving DecidableEq

instance : Renderer Recorder where
  reset r resolution := { r with resets := r.resets.push resolution }
  draw r p := (.ok (), { r with draws := r.draws.push p })

end GameConsole
