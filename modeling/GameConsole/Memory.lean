import GameConsole.Executable
import GameConsole.Memory.Region
import GameConsole.Memory.Segment

/-! The storage of the console: RAM, boot ROM, and the block that holds scratch memory and the
hardware registers. -/

namespace GameConsole

structure Memory where
  ram : Region 21
  rom : Region 19
  io : Region 14

namespace Memory

def ramSize : Nat := Region.capacity 21

def zeroed : Memory := ⟨.zeroed 21, .zeroed 19, .zeroed 14⟩

/-- Clears all but the boot ROM. -/
def reset (m : Memory) : Memory := { zeroed with rom := m.rom }

/-- Installs a boot ROM, cut or filled up with zeros to the size of the segment. -/
def loadRom (m : Memory) (image : ByteArray) : Memory :=
  { m with rom := .ofBytes 19 image }

/-- Copies the payload of an executable into RAM and answers with the header. -/
def loadExecutable (m : Memory) (image : ByteArray) : Except Fault Executable.Header × Memory :=
  match Executable.readHeader image with
  | .error cause => (.error (.image cause), m)
  | .ok header =>
    match header.payload image with
    | .error cause => (.error (.image cause), m)
    | .ok payload =>
      let offset := header.load.toNat &&& (ramSize - 1)
      if fits : offset + payload.size ≤ ramSize then
        let ⟨ram, rom, io⟩ := m
        (.ok header, ⟨ram.overlay offset payload fits, rom, io⟩)
      else (.error (.image (.doesNotFit (UInt32.ofNat offset) header.size)), m)

end Memory

end GameConsole
