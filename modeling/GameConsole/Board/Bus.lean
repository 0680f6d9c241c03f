import GameConsole.Board.Dma
import GameConsole.Cpu

/-! The bus of the main board: RAM and scratch memory at any width, the boot ROM for reading, and
the hardware registers at word width. -/

namespace GameConsole.Board

variable {ρ : Type} [Renderer ρ]

/-- Whether an offset is among the registers of the DMA channels. -/
def isChannelRegister (offset : UInt32) : Bool := 0x1080 ≤ offset && offset ≤ 0x10E8

def isGpuRegister (offset : UInt32) : Bool := 0x1810 ≤ offset && offset ≤ 0x1814

/-- The register that enables DMA channels. -/
def dmaControl : UInt32 := 0x10F0

/-- The register for interrupts of the DMA engine, which cannot be read. -/
def dmaInterrupt : UInt32 := 0x10F4

@[specialize]
def writeHardware (b : Board ρ) (offset data : UInt32) : Outcome (Board ρ) Unit :=
  if isChannelRegister offset then Dma.write b offset data
  else if isGpuRegister offset then b.onGpu fun gpu => gpu.writeRegister offset data
  else if offset = dmaControl ∨ offset = dmaInterrupt then
    .done () (b.storeRegister offset data)
  else .fault (.hardwareWrite .word offset data) b

@[specialize]
def readHardware (b : Board ρ) (offset : UInt32) : Except Fault UInt32 :=
  if isGpuRegister offset then b.gpu.readRegister offset
  else if isChannelRegister offset ∨ offset = dmaControl then
    .ok (b.memory.io.loadWord offset)
  else .error (.hardwareRead .word offset)

@[specialize]
def read (b : Board ρ) (w : Width) (addr : UInt32) : Except Fault UInt32 :=
  match Segment.ofAddress? addr with
  | some .ram => .ok (b.memory.ram.load w addr)
  | some .rom => .ok (b.memory.rom.load w addr)
  | some .scratch => .ok (b.memory.io.load w addr)
  | some (.hardware offset) =>
    if w = .word then b.readHardware offset else .error (.hardwareRead w offset)
  | none => .error (.unmappedRead w addr)

@[specialize]
def write (b : Board ρ) (w : Width) (addr value : UInt32) : Outcome (Board ρ) Unit :=
  let value := w.truncate value
  match Segment.ofAddress? addr with
  | some .ram =>
    let ⟨⟨ram, rom, io⟩, gpu⟩ := b
    .done () ⟨⟨ram.store w addr value, rom, io⟩, gpu⟩
  | some .scratch =>
    let ⟨⟨ram, rom, io⟩, gpu⟩ := b
    .done () ⟨⟨ram, rom, io.store w addr value⟩, gpu⟩
  | some (.hardware offset) =>
    if w = .word then b.writeHardware offset value
    else .fault (.hardwareWrite w offset value) b
  | some .rom | none => .fault (.unmappedWrite w addr value) b

instance : Bus (Board ρ) where
  read := read
  write := write

end GameConsole.Board
