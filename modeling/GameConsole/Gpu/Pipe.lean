import GameConsole.Gpu.CommandSize

/-! The command pipe collects words until they make a command. At the start of a command the top
byte of a word tells how many words there will be; until the last of them arrives no word is
looked at again. One buffer serves all commands and is not cleared between them: behind the row
that is filled next stand words of earlier commands. -/

namespace GameConsole

/-- A complete command. -/
structure Packet where
  opcode : UInt8
  words : Array UInt32
deriving DecidableEq

structure Pipe where
  words : Vector UInt32 256
  opcode : UInt8
  /-- How many words the command in the buffer will have, or zero between commands. -/
  size : Nat
  /-- The row of the buffer that is filled next. -/
  row : Nat
deriving DecidableEq

namespace Pipe

/-- The pipe after a reset. -/
def idle : Pipe := ⟨.replicate 256 0, 0, 0, 0⟩

def isIdle (p : Pipe) : Bool := p.size == 0

/-- How many words the command in the pipe still lacks. -/
def remaining (p : Pipe) : Nat := p.size - p.row

def opcodeOf (word : UInt32) : UInt8 := (word >>> 24).toUInt8

/-- Hands out the command in the buffer if its last word has arrived. -/
def dispatch (p : Pipe) : Pipe × Option Packet :=
  let ⟨words, opcode, size, row⟩ := p
  if row = size then (⟨words, opcode, 0, 0⟩, some ⟨opcode, words.toArray.extract 0 size⟩)
  else (⟨words, opcode, size, row⟩, none)

/-- Takes one word, and hands out the command that it completes. A word that starts no command is
dropped. -/
def push (p : Pipe) (word : UInt32) : Pipe × Option Packet :=
  let ⟨words, opcode, size, row⟩ := p
  if size = 0 then
    match commandSize (opcodeOf word) with
    | 0 => (⟨words, opcode, size, row⟩, none)
    | more + 1 => dispatch ⟨words.set 0 word, opcodeOf word, more + 1, 1⟩
  else dispatch ⟨words.setIfInBounds row word, opcode, size, row + 1⟩

end Pipe

end GameConsole
