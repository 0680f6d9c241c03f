/-! How many words a drawing command has, by the top byte of its first word. -/

namespace GameConsole

/-- The words of a command, or zero where the byte starts none. Polygons, lines and rectangles
come in families of four opcodes. -/
def commandSize (opcode : UInt8) : Nat :=
  match (opcode >>> 2).toNat with
  | 0x08 => 4
  | 0x09 => 7
  | 0x0A => 5
  | 0x0B => 9
  | 0x0C => 6
  | 0x0D => 9
  | 0x0E => 8
  | 0x0F => 12
  | 0x10 => 3
  | 0x12 | 0x13 => 254
  | 0x14 => 4
  | 0x16 | 0x17 => 255
  | 0x18 => 3
  | 0x19 => 4
  | 0x1A => 2
  | 0x1B => 3
  | 0x1C => 2
  | 0x1D => 3
  | 0x1E => 2
  | 0x1F => 3
  | _ =>
    match opcode.toNat with
    | 0x01 => 1
    | 0x02 => 3
    | 0x80 => 4
    | 0xA0 | 0xC0 => 3
    | 0xE1 | 0xE2 | 0xE3 | 0xE4 | 0xE5 | 0xE6 => 1
    | _ => 0

theorem commandSize_le (opcode : UInt8) : commandSize opcode ≤ 255 := by
  unfold commandSize
  split <;> try omega
  split <;> omega

end GameConsole
