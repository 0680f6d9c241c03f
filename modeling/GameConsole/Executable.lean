import GameConsole.Bytes
import GameConsole.Fault

/-! Executable images: a header of 2048 bytes that names the entry point, the global pointer, the
load address, the payload size and the stack pointer, and then the payload. -/

namespace GameConsole

structure Executable.Header where
  pc : UInt32
  gp : UInt32
  load : UInt32
  size : UInt32
  sp : UInt32
deriving DecidableEq

namespace Executable

def headerSize : Nat := 0x800

/-- The text at the start of an image. Reading does not insist on it. -/
def magic : ByteArray := "PS-X EXE".toUTF8

def readHeader (image : ByteArray) : Except ImageFault Header :=
  if image.size < headerSize then .error (.tooSmall image.size)
  else .ok {
    pc := Bytes.wordAt image 0x10
    gp := Bytes.wordAt image 0x14
    load := Bytes.wordAt image 0x18
    size := Bytes.wordAt image 0x1C
    sp := Bytes.wordAt image 0x30 }

/-- The bytes behind the header, as many as the header declares. -/
def Header.payload (h : Header) (image : ByteArray) : Except ImageFault ByteArray :=
  let available := image.size - headerSize
  if available < h.size.toNat then .error (.truncated h.size available)
  else .ok (image.extract headerSize (headerSize + h.size.toNat))

def build (pc gp load sp : UInt32) (payload : ByteArray) : ByteArray :=
  magic ++ Bytes.zeros 8 ++ Bytes.ofWord pc ++ Bytes.ofWord gp ++ Bytes.ofWord load ++
    Bytes.ofWord (UInt32.ofNat payload.size) ++ Bytes.zeros 0x10 ++ Bytes.ofWord sp ++
    Bytes.zeros (headerSize - 0x34) ++ payload

end Executable

end GameConsole
