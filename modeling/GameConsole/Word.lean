/-! Access widths of the bus and the sign extension of halfwords. -/

namespace GameConsole

inductive Width
  | byte
  | half
  | word
deriving DecidableEq, Inhabited

namespace Width

def bytes : Width → Nat
  | byte => 1
  | half => 2
  | word => 4

def bits (w : Width) : Nat := 8 * w.bytes

/-- The low bits of a value that fit the width. -/
def truncate : Width → UInt32 → UInt32
  | byte, v => v &&& 0xFF
  | half, v => v &&& 0xFFFF
  | word, v => v

end Width

/-- A signed halfword as a word with the same signed value. -/
def signExtend (h : Int16) : UInt32 := h.toInt32.toUInt32

/-- The two's-complement value of a word. -/
def signedValue (w : UInt32) : Int := w.toInt32.toInt

end GameConsole
