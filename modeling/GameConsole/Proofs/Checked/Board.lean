import GameConsole.Board.Bus
import GameConsole.Proofs.Board.Transfer
import GameConsole.Proofs.Checked.Cpu
import GameConsole.Proofs.Checked.Gpu

/-! The main board with checked accesses: the DMA engine and the bus, with a framebuffer behind
the GPU. -/

namespace GameConsole

namespace Board

/-- Lets the GPU alone act. -/
def onGpu? (b : Board Raster) (f : Gpu Raster → Option (Outcome (Gpu Raster) Unit)) :
    Option (Outcome (Board Raster) Unit) := do
  return (← f b.gpu).mapState fun gpu => { b with gpu }

def feedFromRam? (b : Board Raster) (addr : UInt32) (count : Nat) :
    Option (Outcome (Board Raster) Unit) :=
  b.onGpu? (Gpu.feedFrom? b.memory.ram addr count)

def storeRegister? (b : Board Raster) (addr data : UInt32) : Option (Board Raster) := do
  return { b with memory := { b.memory with io := ← b.memory.io.store? .word addr data } }

end Board

namespace Dma

def visit? (cursor : UInt32) (b : Board Raster) : Option (Outcome (Board Raster) Unit) := do
  let node ← b.memory.io.load? .word cursor
  let header ← b.memory.ram.load? .word node
  (← b.feedFromRam? (node + 4) (countOf header)).andThen? fun _ b => do
    return .done () (← b.storeRegister? cursor (nextOf header))

def walk? (cursor : UInt32) (b : Board Raster) : Option (Outcome (Board Raster) Unit) :=
  let ended? (b : Board Raster) := do return (← b.memory.io.load? .word cursor) == endMarker
  Outcome.repeatUntil? ended? (visit? cursor) b

def execute? (b : Board Raster) (addr : UInt32) : Option (Outcome (Board Raster) Unit) := do
  if (← b.memory.io.load? .word (controlRegister addr)) = startPattern then
    walk? (addressRegister addr) b
  else return .done () b

def write? (b : Board Raster) (addr data : UInt32) : Option (Outcome (Board Raster) Unit) := do
  let b ← b.storeRegister? addr data
  if addr &&& controlBit = 0 then return .done () b
  let transfer := if channelOf addr = gpuChannel then execute? b addr else some (.done () b)
  (← transfer).andThen? fun _ b => do
    return .done () (← b.storeRegister? (controlRegister addr) (data &&& ~~~busyBit))

end Dma

namespace Board

def writeHardware? (b : Board Raster) (offset data : UInt32) :
    Option (Outcome (Board Raster) Unit) :=
  if isChannelRegister offset then Dma.write? b offset data
  else if isGpuRegister offset then b.onGpu? fun gpu => gpu.writeRegister? offset data
  else if offset = dmaControl ∨ offset = dmaInterrupt then do
    return .done () (← b.storeRegister? offset data)
  else return .fault (.hardwareWrite .word offset data) b

def readHardware? (b : Board Raster) (offset : UInt32) : Option (Except Fault UInt32) := do
  if isGpuRegister offset then return b.gpu.readRegister offset
  if isChannelRegister offset ∨ offset = dmaControl then
    return .ok (← b.memory.io.load? .word offset)
  else return .error (.hardwareRead .word offset)

def read? (b : Board Raster) (w : Width) (addr : UInt32) : Option (Except Fault UInt32) := do
  match Segment.ofAddress? addr with
  | some .ram => return .ok (← b.memory.ram.load? w addr)
  | some .rom => return .ok (← b.memory.rom.load? w addr)
  | some .scratch => return .ok (← b.memory.io.load? w addr)
  | some (.hardware offset) =>
    if w = .word then b.readHardware? offset else return .error (.hardwareRead w offset)
  | none => return .error (.unmappedRead w addr)

def write? (b : Board Raster) (w : Width) (addr value : UInt32) :
    Option (Outcome (Board Raster) Unit) := do
  let value := w.truncate value
  match Segment.ofAddress? addr with
  | some .ram =>
    return .done () { b with memory := { b.memory with ram := ← b.memory.ram.store? w addr value } }
  | some .scratch =>
    return .done () { b with memory := { b.memory with io := ← b.memory.io.store? w addr value } }
  | some (.hardware offset) =>
    if w = .word then b.writeHardware? offset value
    else return .fault (.hardwareWrite w offset value) b
  | some .rom | none => return .fault (.unmappedWrite w addr value) b

instance : CheckedBus (Board Raster) where
  read? := read?
  write? := write?

theorem load?_io (b : Board Raster) (addr : UInt32) :
    b.memory.io.load? .word addr = some (b.memory.io.loadWord addr) :=
  Region.load?_eq (by decide) _ _ _

theorem load?_ram (b : Board Raster) (addr : UInt32) :
    b.memory.ram.load? .word addr = some (b.memory.ram.loadWord addr) :=
  Region.load?_eq (by decide) _ _ _

/-- The GPU is sound. The memory is by its type. -/
def Sound (b : Board Raster) : Prop := b.gpu.Sound

theorem safe_onGpu {b : Board Raster} {f? : Gpu Raster → Option (Outcome (Gpu Raster) Unit)}
    {f : Gpu Raster → Outcome (Gpu Raster) Unit}
    (h : Safe (f? b.gpu) (f b.gpu) fun o => o.Leaves Gpu.Sound) :
    Safe (b.onGpu? f?) (b.onGpu f) fun o => o.Leaves Board.Sound := by
  rw [onGpu_eq]
  exact h.bind fun hgpu => .some ((Outcome.leaves_mapState _ _ _).2 hgpu)

theorem safe_feedFromRam {b : Board Raster} (hb : b.Sound) (addr : UInt32) (count : Nat) :
    Safe (b.feedFromRam? addr count) (b.feedFromRam addr count) fun o => o.Leaves Board.Sound := by
  rw [feedFromRam?, feedFromRam]
  exact safe_onGpu (Gpu.safe_feedFrom hb b.memory.ram addr count)

theorem storeRegister?_eq (b : Board Raster) (addr data : UInt32) :
    b.storeRegister? addr data = some (b.storeRegister addr data) := by
  simp (disch := decide) only [storeRegister?, Region.store?_eq, Option.bind_eq_bind,
    Option.bind_some, storeRegister_eq]
  rfl

theorem Sound.storeRegister {b : Board Raster} (hb : b.Sound) (addr data : UInt32) :
    (b.storeRegister addr data).Sound := by
  rw [Sound, gpu_storeRegister]
  exact hb

end Board

namespace Dma

variable {b : Board Raster} (hb : b.Sound)

include hb

theorem safe_visit (cursor : UInt32) :
    Safe (visit? cursor b) (visit cursor b) fun o => o.Leaves Board.Sound := by
  rw [visit?, b.load?_io, Option.bind_eq_bind, Option.bind_some, b.load?_ram, Option.bind_some]
  refine (Board.safe_feedFromRam hb _ _).bind fun hnext => ?_
  refine Outcome.safe_andThen? hnext fun _ b hb => ?_
  rw [Board.storeRegister?_eq]
  exact .some (hb.storeRegister _ _)

theorem safe_walk (cursor : UInt32) :
    Safe (walk? cursor b) (walk cursor b) fun o => o.Leaves Board.Sound :=
  Outcome.safe_repeatUntil? (fun b => by rw [b.load?_io]; rfl)
    (fun _ hb => safe_visit hb cursor) hb

theorem safe_execute (addr : UInt32) :
    Safe (execute? b addr) (execute b addr) fun o => o.Leaves Board.Sound := by
  rw [execute?, execute, b.load?_io, Option.bind_eq_bind, Option.bind_some]
  split_ifs
  · exact safe_walk hb _
  · exact .some hb

theorem safe_write (addr data : UInt32) :
    Safe (write? b addr data) (write b addr data) fun o => o.Leaves Board.Sound := by
  have hstored := hb.storeRegister addr data
  rw [write?, write, Board.storeRegister?_eq, Option.bind_eq_bind, Option.bind_some]
  generalize b.storeRegister addr data = b' at hstored
  by_cases hbit : addr &&& controlBit = 0
  · rw [if_pos hbit, if_pos hbit]
    exact .some hstored
  rw [if_neg hbit, if_neg hbit]
  have htransfer : Safe
      (if channelOf addr = gpuChannel then execute? b' addr else some (.done () b'))
      (if channelOf addr = gpuChannel then execute b' addr else .done () b')
      fun o => o.Leaves Board.Sound := by
    split_ifs
    · exact safe_execute hstored addr
    · exact .some hstored
  refine htransfer.bind fun hnext => ?_
  refine Outcome.safe_andThen? hnext fun _ b hb => ?_
  rw [Board.storeRegister?_eq]
  exact .some (hb.storeRegister _ _)

end Dma

namespace Board

variable {b : Board Raster} (hb : b.Sound)

theorem readHardware?_eq (b : Board Raster) (offset : UInt32) :
    b.readHardware? offset = some (b.readHardware offset) := by
  simp (disch := decide) only [readHardware?, readHardware, Region.load?_eq, Option.bind_eq_bind,
    Option.bind_some, Region.loadWord]
  split_ifs <;> rfl

theorem read?_eq (b : Board Raster) (w : Width) (addr : UInt32) :
    b.read? w addr = some (b.read w addr) := by
  simp (disch := decide) only [read?, read, Region.load?_eq, Option.bind_eq_bind, Option.bind_some,
    readHardware?_eq]
  cases Segment.ofAddress? addr with
  | none => rfl
  | some segment =>
    cases segment with
    | hardware offset =>
      dsimp only
      split_ifs <;> rfl
    | _ => rfl

include hb

theorem safe_writeHardware (offset data : UInt32) :
    Safe (b.writeHardware? offset data) (b.writeHardware offset data)
      fun o => o.Leaves Board.Sound := by
  simp only [writeHardware?, writeHardware, storeRegister?_eq, Option.bind_eq_bind,
    Option.bind_some]
  split_ifs
  · exact Dma.safe_write hb offset data
  · exact safe_onGpu (Gpu.safe_writeRegister hb offset data)
  · exact .some (hb.storeRegister _ _)
  · exact .some hb

theorem safe_write (w : Width) (addr value : UInt32) :
    Safe (b.write? w addr value) (b.write w addr value) fun o => o.Leaves Board.Sound := by
  obtain ⟨⟨ram, rom, io⟩, gpu⟩ := b
  simp (disch := decide) only [write?, write, Region.store?_eq, Option.bind_eq_bind,
    Option.bind_some]
  cases Segment.ofAddress? addr with
  | none => exact .some hb
  | some segment =>
    cases segment with
    | hardware offset =>
      dsimp only
      split_ifs
      · exact safe_writeHardware hb offset _
      · exact .some hb
    | _ => exact .some hb

omit hb in
theorem bus_safe : Bus.Safe Board.Sound where
  read b _ w addr := b.read?_eq w addr
  write _ hb w addr value := safe_write hb w addr value

end Board

end GameConsole
