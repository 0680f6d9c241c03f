import GameConsole.Board

/-! The DMA engine. Each channel has a block of four registers: the address, the block count, the
control word and one without a use. Writing the control word of the GPU channel with the start
pattern walks a linked list in RAM: each node is a header, which holds the number of payload words
in its top byte and the address of the next node below it, and then the payload, which goes to
the GPU. The walk is over when the address register holds the end marker, and never if it does not
come to hold it. -/

namespace GameConsole.Dma

/-- The channel whose block holds the address. -/
def channelOf (addr : UInt32) : UInt32 := ((addr >>> 4) &&& 0xF) - 8

def gpuChannel : UInt32 := 2

/-- Set in the addresses of control words. -/
def controlBit : UInt32 := 0x8

def addressRegister (addr : UInt32) : UInt32 := addr &&& 0xFFF0

def controlRegister (addr : UInt32) : UInt32 := (addr &&& 0xFFF0) ||| 0x8

def busyBit : UInt32 := 0x01000000

/-- The control word that starts a walk. -/
def startPattern : UInt32 := 0x01000401

def endMarker : UInt32 := 0xFFFFFF

/-- The address of the next node, from a header. -/
def nextOf (header : UInt32) : UInt32 := header &&& 0xFFFFFF

/-- The number of payload words, from a header. -/
def countOf (header : UInt32) : Nat := (header >>> 24).toNat

variable {ρ : Type} [Renderer ρ]

/-- Visits the node in the address register `cursor` and makes the next one current. -/
@[specialize]
def visit (cursor : UInt32) (b : Board ρ) : Outcome (Board ρ) Unit :=
  let node := b.memory.io.loadWord cursor
  let header := b.memory.ram.loadWord node
  (b.feedFromRam (node + 4) (countOf header)).andThen fun _ b =>
    .done () (b.storeRegister cursor (nextOf header))

/-- Visits nodes until the address register holds the end marker. -/
@[specialize]
def walk (cursor : UInt32) (b : Board ρ) : Outcome (Board ρ) Unit :=
  .repeatUntil (fun b => b.memory.io.loadWord cursor == endMarker) (visit cursor) b

/-- Walks the list of a channel, if its control word holds the start pattern. -/
@[specialize]
def execute (b : Board ρ) (addr : UInt32) : Outcome (Board ρ) Unit :=
  if b.memory.io.loadWord (controlRegister addr) = startPattern then
    walk (addressRegister addr) b
  else .done () b

/-- Writes a register of a channel. A control word takes effect at once and is kept without its
busy bit. -/
@[specialize]
def write (b : Board ρ) (addr data : UInt32) : Outcome (Board ρ) Unit :=
  let b := b.storeRegister addr data
  if addr &&& controlBit = 0 then .done () b
  else
    let transfer := if channelOf addr = gpuChannel then execute b addr else .done () b
    transfer.andThen fun _ b =>
      .done () (b.storeRegister (controlRegister addr) (data &&& ~~~busyBit))

end GameConsole.Dma
