/-! Text in units of sixteen bits. A character beyond the first 65536 is a pair of surrogates. -/

namespace GameConsole.Text

def isHighSurrogate (u : UInt16) : Bool := 0xD800 ≤ u && u < 0xDC00

def isLowSurrogate (u : UInt16) : Bool := 0xDC00 ≤ u && u < 0xE000

/-- The character of a single unit. A surrogate stands for the replacement character. -/
def ofUnit (u : UInt16) : Char :=
  if isHighSurrogate u || isLowSurrogate u then Char.ofNat 0xFFFD else Char.ofNat u.toNat

def ofPair (high low : UInt16) : Char :=
  Char.ofNat (0x10000 + (high.toNat - 0xD800) * 0x400 + (low.toNat - 0xDC00))

/-- The characters of a text. A surrogate without its partner is read as a single unit. -/
def ofUtf16 : List UInt16 → List Char
  | [] => []
  | [unit] => [ofUnit unit]
  | first :: second :: rest =>
    if isHighSurrogate first && isLowSurrogate second then ofPair first second :: ofUtf16 rest
    else ofUnit first :: ofUtf16 (second :: rest)

end GameConsole.Text
