import GameConsole.Fault

/-! The shapes that drawing commands stand for. A color is packed in the bytes of a word and a
point in its two signed halves, the horizontal coordinate in the lower one. -/

namespace GameConsole

structure Color where
  r : UInt8
  g : UInt8
  b : UInt8
  /-- The top byte, which in a first word is the opcode. -/
  n : UInt8
deriving DecidableEq

namespace Color

def unpack (word : UInt32) : Color :=
  ⟨word.toUInt8, (word >>> 8).toUInt8, (word >>> 16).toUInt8, (word >>> 24).toUInt8⟩

def pack (c : Color) : UInt32 :=
  c.r.toUInt32 + c.g.toUInt32 * 0x100 + c.b.toUInt32 * 0x10000 + c.n.toUInt32 * 0x1000000

/-- The value of a pixel of this color. -/
def rgb (c : Color) : UInt32 :=
  c.r.toUInt32 * 0x10000 + c.g.toUInt32 * 0x100 + c.b.toUInt32

end Color

structure Point where
  x : Int16
  y : Int16
deriving DecidableEq

namespace Point

def unpack (word : UInt32) : Point :=
  ⟨word.toUInt16.toInt16, (word >>> 16).toUInt16.toInt16⟩

def pack (p : Point) : UInt32 := p.x.toUInt16.toUInt32 + p.y.toUInt16.toUInt32 * 0x10000

end Point

structure Vertex where
  color : Color
  point : Point
deriving DecidableEq

inductive Primitive
  | quad (a b c d : Vertex)
  | sprite (size : Nat) (color : Color) (origin : Point)
  /-- A command that draws no shape. -/
  | operation (opcode : UInt8)
deriving DecidableEq

namespace Primitive

/-- The opcodes of the commands that draw no shape. -/
def operations : List UInt8 := [0x01, 0x02, 0xA0, 0xE1, 0xE3, 0xE4, 0xE5]

/-- Reads a shape from its command. The low two bits of a shape's opcode do not matter, and words
that are not there count as zero. -/
def decode (opcode : UInt8) (words : Array UInt32) : Except Fault Primitive :=
  let word (i : Nat) : UInt32 := words[i]?.getD 0
  let vertex (i : Nat) : Vertex := ⟨.unpack (word (2 * i)), .unpack (word (2 * i + 1))⟩
  let family := opcode &&& 0xFC
  if family = 0x38 then .ok (.quad (vertex 0) (vertex 1) (vertex 2) (vertex 3))
  else if family = 0x74 then .ok (.sprite 8 (.unpack (word 0)) (.unpack (word 1)))
  else if family = 0x7C then .ok (.sprite 16 (.unpack (word 0)) (.unpack (word 1)))
  else if opcode ∈ operations then .ok (.operation opcode)
  else .error (.unsupportedPrimitive family)

end Primitive

end GameConsole
