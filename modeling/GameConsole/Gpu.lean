import GameConsole.Gpu.Renderer
import GameConsole.Memory.Region

/-! The GPU: its command pipe, its status word and the renderer that it drives, and the two
registers through which the rest of the console reaches them. -/

namespace GameConsole

structure Gpu (ρ : Type) where
  pipe : Pipe
  status : UInt32
  renderer : ρ

namespace Gpu

variable {ρ : Type} [Renderer ρ]

def new (renderer : ρ) : Gpu ρ := ⟨.idle, 0, renderer⟩

def reset (g : Gpu ρ) : Gpu ρ := ⟨.idle, 0, Renderer.reset g.renderer .standard⟩

/-- Takes one word of the command stream and draws the command that it completes. -/
@[specialize]
def feed (g : Gpu ρ) (word : UInt32) : Outcome (Gpu ρ) Unit :=
  let ⟨pipe, status, renderer⟩ := g
  match pipe.push word with
  | (pipe, none) => .done () ⟨pipe, status, renderer⟩
  | (pipe, some packet) =>
    (Outcome.ofAnswer (Renderer.draw renderer packet)).mapState fun r => ⟨pipe, status, r⟩

/-- Takes words in order, and none after one whose command could not be drawn. -/
@[specialize]
def feedAll (g : Gpu ρ) : List UInt32 → Outcome (Gpu ρ) Unit
  | [] => .done () g
  | word :: words => (g.feed word).andThen fun _ g => g.feedAll words

theorem feedAll_append (g : Gpu ρ) (ws vs : List UInt32) :
    g.feedAll (ws ++ vs) = (g.feedAll ws).andThen fun _ g => g.feedAll vs := by
  induction ws generalizing g with
  | nil => rfl
  | cons w ws ih => simp [feedAll, ih, Outcome.andThen_assoc]

/-- The status word after the reset command. -/
def readyStatus : UInt32 := 0x14802000

/-- A command in the status register: a reset, or one of the display settings, which change
nothing here. -/
def control (g : Gpu ρ) (data : UInt32) : Outcome (Gpu ρ) Unit :=
  let command := data >>> 24
  if command = 0x00 then .done () { g with status := readyStatus }
  else if 0x03 ≤ command ∧ command ≤ 0x08 then .done () g
  else .fault (.gpuStatusCommand command.toUInt8) g

@[specialize]
def writeRegister (g : Gpu ρ) (addr data : UInt32) : Outcome (Gpu ρ) Unit :=
  let register := addr &&& 0xF
  if register = 0x0 then g.feed data
  else if register = 0x4 then g.control data
  else .fault (.hardwareWrite .word addr data) g

def readRegister (g : Gpu ρ) (addr : UInt32) : Except Fault UInt32 :=
  let register := addr &&& 0xF
  if register = 0x0 then .ok 0
  else if register = 0x4 then .ok g.status
  else .error (.hardwareRead .word addr)

end Gpu

end GameConsole
