import GameConsole.Gpu
import GameConsole.Memory

/-! The main board: the memory and the GPU, without the processor. -/

namespace GameConsole

structure Board (ρ : Type) where
  memory : Memory
  gpu : Gpu ρ

namespace Board

variable {ρ : Type} [Renderer ρ]

def new (renderer : ρ) : Board ρ := ⟨.zeroed, .new renderer⟩

def reset (b : Board ρ) : Board ρ := ⟨b.memory.reset, b.gpu.reset⟩

/-- Lets the GPU alone act. -/
@[inline]
def onGpu (b : Board ρ) (f : Gpu ρ → Outcome (Gpu ρ) Unit) : Outcome (Board ρ) Unit :=
  let ⟨memory, gpu⟩ := b
  (f gpu).mapState fun gpu => ⟨memory, gpu⟩

/-- Feeds the GPU with words from RAM. -/
@[specialize]
def feedFromRam (b : Board ρ) (addr : UInt32) (count : Nat) : Outcome (Board ρ) Unit :=
  let words := b.memory.ram.words addr count
  b.onGpu fun gpu => gpu.feedAll words

/-- Stores a word in the block of hardware registers. -/
def storeRegister (b : Board ρ) (addr data : UInt32) : Board ρ :=
  let ⟨⟨ram, rom, io⟩, gpu⟩ := b
  ⟨⟨ram, rom, io.storeWord addr data⟩, gpu⟩

omit [Renderer ρ]

@[simp] theorem io_storeRegister (b : Board ρ) (addr data : UInt32) :
    (b.storeRegister addr data).memory.io = b.memory.io.storeWord addr data := by
  obtain ⟨⟨_, _, _⟩, _⟩ := b
  rfl

@[simp] theorem ram_storeRegister (b : Board ρ) (addr data : UInt32) :
    (b.storeRegister addr data).memory.ram = b.memory.ram := by
  obtain ⟨⟨_, _, _⟩, _⟩ := b
  rfl

@[simp] theorem gpu_storeRegister (b : Board ρ) (addr data : UInt32) :
    (b.storeRegister addr data).gpu = b.gpu := by
  obtain ⟨⟨_, _, _⟩, _⟩ := b
  rfl

end Board

end GameConsole
