import GameConsole.Proofs.Checked.Basic
import GameConsole.Proofs.Memory.Words

/-! Regions with checked accesses. The offset of a unit is at least its width below the end of the
region, so each byte of the unit is there. -/

namespace GameConsole

/-- A byte, if the array has it. -/
def Bytes.byte? (b : ByteArray) (i : Nat) : Option UInt8 :=
  if h : i < b.size then some b[i] else none

theorem Bytes.byte?_eq {b : ByteArray} {i : Nat} (h : i < b.size) :
    byte? b i = some (byteAt b i) := by
  rw [byte?, byteAt, dif_pos h, dif_pos h]

namespace Region

variable {lines : Nat}

/-- The offset of a unit. The mask is one below the size, which must not be zero. -/
def offset? (r : Region lines) (w : Width) (addr : UInt32) : Option Nat :=
  if r.bytes.size = 0 then none
  else
    let i := addr.toNat &&& (r.bytes.size - 1)
    some (i - i % w.bytes)

/-- Loads a unit byte by byte. -/
def load? (r : Region lines) (w : Width) (addr : UInt32) : Option UInt32 := do
  let i ← r.offset? w addr
  match w with
  | .byte => return (← Bytes.byte? r.bytes i).toUInt32
  | .half =>
    let b₀ ← Bytes.byte? r.bytes i
    let b₁ ← Bytes.byte? r.bytes (i + 1)
    return b₀.toUInt32 + b₁.toUInt32 * 0x100
  | .word =>
    let b₀ ← Bytes.byte? r.bytes i
    let b₁ ← Bytes.byte? r.bytes (i + 1)
    let b₂ ← Bytes.byte? r.bytes (i + 2)
    let b₃ ← Bytes.byte? r.bytes (i + 3)
    return b₀.toUInt32 + b₁.toUInt32 * 0x100 + b₂.toUInt32 * 0x10000 + b₃.toUInt32 * 0x1000000

/-- Stores a unit, if all of it is in the region. -/
def store? (r : Region lines) (w : Width) (addr value : UInt32) : Option (Region lines) := do
  let i ← r.offset? w addr
  if i + w.bytes ≤ r.bytes.size then some (r.store w addr value) else none

variable (hl : 2 ≤ lines) (r : Region lines) (w : Width) (addr value : UInt32)

theorem offset?_eq : r.offset? w addr = some (r.offset w addr) := by
  have hsize : r.bytes.size ≠ 0 := by
    rw [r.size_bytes, capacity_eq]
    exact Nat.pos_iff_ne_zero.1 (Nat.two_pow_pos lines)
  rw [offset?, if_neg hsize]
  rfl

include hl

theorem load?_eq : r.load? w addr = some (r.load w addr) := by
  have hunit := offset_add_le hl r w addr
  rw [← r.size_bytes] at hunit
  simp only [load?, offset?_eq, Option.bind_eq_bind, Option.bind_some]
  cases w with
  | byte =>
    simp only [Width.bytes] at hunit
    rw [Bytes.byte?_eq (by omega)]
    rfl
  | half =>
    simp only [Width.bytes] at hunit
    rw [Bytes.byte?_eq (by omega), Bytes.byte?_eq (by omega)]
    rfl
  | word =>
    simp only [Width.bytes] at hunit
    rw [Bytes.byte?_eq (by omega), Bytes.byte?_eq (by omega), Bytes.byte?_eq (by omega),
      Bytes.byte?_eq (by omega)]
    rfl

theorem store?_eq : r.store? w addr value = some (r.store w addr value) := by
  have hunit := offset_add_le hl r w addr
  rw [← r.size_bytes] at hunit
  simp only [store?, offset?_eq, Option.bind_eq_bind, Option.bind_some, if_pos hunit]

end Region

end GameConsole
