import GameConsole.Gpu
import GameConsole.Proofs.Checked.Memory
import GameConsole.Proofs.Checked.Raster

/-! The command pipe and the GPU with checked accesses to the buffer and to the table of command
sizes. While a command is unfinished the next row is one of its rows, so it is in the buffer. -/

namespace GameConsole

open Raster

/-- The sizes of the commands in a table with a row for each opcode. -/
def commandSizes : Array Nat := .ofFn fun opcode : Fin 256 => commandSize (.ofNat opcode)

theorem commandSizes_eq (opcode : UInt8) :
    commandSizes[opcode.toNat]? = some (commandSize opcode) := by
  have hlt := opcode.toNat_lt
  simp [commandSizes, hlt]

namespace Pipe

/-- How many words the command in the pipe still lacks. The difference must not be negative. -/
def remaining? (p : Pipe) : Option Nat := if p.row ≤ p.size then some (p.size - p.row) else none

def setRow? (words : Vector UInt32 256) (row : Nat) (word : UInt32) : Option (Vector UInt32 256) :=
  if h : row < 256 then some (words.set row word h) else none

/-- Hands out the command in the buffer if its last word has arrived. Its rows have to be in the
buffer. -/
def dispatch? (p : Pipe) : Option (Pipe × Option Packet) :=
  if p.row = p.size then
    if p.size ≤ 256 then
      some ({ p with size := 0, row := 0 }, some ⟨p.opcode, p.words.toArray.extract 0 p.size⟩)
    else none
  else some (p, none)

def push? (p : Pipe) (word : UInt32) : Option (Pipe × Option Packet) := do
  if p.size = 0 then
    let size ← commandSizes[(opcodeOf word).toNat]?
    if size = 0 then return (p, none)
    dispatch? ⟨← setRow? p.words 0 word, opcodeOf word, size, 1⟩
  else dispatch? ⟨← setRow? p.words p.row word, p.opcode, p.size, p.row + 1⟩

/-- A pipe in which a command is unfinished lacks at least one of its at most 255 words, and
otherwise the pipe is at the first row. -/
def Sound (p : Pipe) : Prop := p.row < p.size ∧ p.size ≤ 255 ∨ p.row = 0 ∧ p.size = 0

theorem Sound.remaining?_eq {p : Pipe} (hp : p.Sound) : p.remaining? = some p.remaining :=
  if_pos (by rcases hp with hp | hp <;> omega)

theorem safe_dispatch {p : Pipe} (hrow : p.row ≤ p.size) (hsize : p.size ≤ 255) :
    Safe p.dispatch? p.dispatch fun answer => answer.1.Sound := by
  obtain ⟨words, opcode, size, row⟩ := p
  simp only at hrow hsize
  simp only [dispatch?, dispatch]
  by_cases hfull : row = size
  · rw [if_pos hfull, if_pos hfull, if_pos (by omega)]
    exact .some (.inr ⟨rfl, rfl⟩)
  · rw [if_neg hfull, if_neg hfull]
    exact .some (.inl ⟨Nat.lt_of_le_of_ne hrow hfull, hsize⟩)

theorem safe_push {p : Pipe} (hp : p.Sound) (word : UInt32) :
    Safe (p.push? word) (p.push word) fun answer => answer.1.Sound := by
  obtain ⟨words, opcode, size, row⟩ := p
  have hle := commandSize_le (opcodeOf word)
  by_cases hidle : size = 0
  · simp only [push?, push, if_pos hidle, commandSizes_eq, Option.bind_eq_bind, Option.bind_some]
    cases hcommand : commandSize (opcodeOf word) with
    | zero => exact .some hp
    | succ more =>
      rw [hcommand] at hle
      exact safe_dispatch (by simp) hle
  · have hrow : row < size ∧ size ≤ 255 := hp.resolve_right fun h => hidle h.2
    have hbuffer : row < 256 := by omega
    have hset : words.setIfInBounds row word = words.set row word := by
      apply Vector.toArray_inj.1
      simp [Array.setIfInBounds, hbuffer]
    simp only [push?, push, if_neg hidle, setRow?, dif_pos hbuffer, hset, Option.bind_eq_bind,
      Option.bind_some]
    exact safe_dispatch (p := ⟨words.set row word, opcode, size, row + 1⟩) hrow.1 hrow.2

end Pipe

namespace Gpu

/-- Takes one word of the command stream and draws the command that it completes. -/
def feed? (g : Gpu Raster) (word : UInt32) : Option (Outcome (Gpu Raster) Unit) := do
  match ← g.pipe.push? word with
  | (pipe, none) => return .done () { g with pipe }
  | (pipe, some packet) =>
    let (answer, renderer) ← g.renderer.draw? packet
    return .ofAnswer (answer, ⟨pipe, g.status, renderer⟩)

/-- Feeds the GPU with words from a RAM, each of them loaded when it is needed. -/
def feedFrom? (ram : Region 21) : UInt32 → Nat → Gpu Raster → Option (Outcome (Gpu Raster) Unit)
  | _, 0, g => return .done () g
  | addr, count + 1, g => do
    let word ← ram.load? .word addr
    (← g.feed? word).andThen? fun _ g => feedFrom? ram (addr + 4) count g

def writeRegister? (g : Gpu Raster) (addr data : UInt32) : Option (Outcome (Gpu Raster) Unit) :=
  if addr &&& 0xF = 0x0 then g.feed? data else return g.writeRegister addr data

/-- The pipe and the framebuffer are sound. -/
structure Sound (g : Gpu Raster) : Prop where
  pipe : g.pipe.Sound
  renderer : g.renderer.Sound

variable {g : Gpu Raster} (hg : g.Sound)

include hg

theorem safe_feed (word : UInt32) : Safe (g.feed? word) (g.feed word) fun o => o.Leaves Sound := by
  obtain ⟨pipe, status, renderer⟩ := g
  refine (Pipe.safe_push hg.pipe word).bind fun hpipe => ?_
  simp only [feed]
  cases hpush : pipe.push word with
  | mk pipe' packet =>
    rw [hpush] at hpipe
    cases packet with
    | none => exact .some ⟨hpipe, hg.renderer⟩
    | some packet =>
      dsimp only
      rw [Outcome.mapState_ofAnswer]
      refine (safe_draw hg.renderer packet).bind fun hrenderer => .some ?_
      rw [Outcome.leaves_ofAnswer]
      exact ⟨hpipe, hrenderer⟩

theorem safe_feedFrom (ram : Region 21) (addr : UInt32) (count : Nat) :
    Safe (g.feedFrom? ram addr count) (g.feedAll (ram.words addr count)) fun o =>
      o.Leaves Sound := by
  induction count generalizing g addr with
  | zero => exact .some hg
  | succ count ih =>
    rw [feedFrom?, ram.load?_eq (by decide), Region.words, feedAll]
    exact (safe_feed hg _).bind fun hnext => Outcome.safe_andThen? hnext fun _ _ hg => ih hg _

theorem safe_writeRegister (addr data : UInt32) :
    Safe (g.writeRegister? addr data) (g.writeRegister addr data) fun o => o.Leaves Sound := by
  by_cases hport : addr &&& 0xF = 0x0
  · simp only [writeRegister?, writeRegister, if_pos hport]
    exact safe_feed hg data
  · simp only [writeRegister?, if_neg hport]
    refine .some ?_
    simp only [writeRegister, if_neg hport, control]
    split_ifs <;> exact ⟨hg.pipe, hg.renderer⟩

end Gpu

end GameConsole
