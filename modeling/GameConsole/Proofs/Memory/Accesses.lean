import GameConsole.Proofs.Checked.Memory
import GameConsole.Proofs.Memory.Units
import Mathlib.Algebra.Ring.Nat

/-! Regions as arrays of bytes. Loads and stores of all widths, in any order and at any addresses,
stay within a region, and they have the answers of an array that has a byte for each number below
the size, where an address stands for the byte at its remainder. -/

namespace GameConsole

/-- Bytes by their places. -/
abbrev Cells := Nat → UInt8

namespace Cells

/-- The number that the bytes of a unit make, the lowest first. -/
def load (m : Cells) (size : Nat) (w : Width) (addr : UInt32) : Nat :=
  Nat.ofDigits 256 ((w.unit (addr.toNat % size)).map fun i => (m i).toNat)

/-- Lays the low bytes of a value over a unit. -/
def store (m : Cells) (size : Nat) (w : Width) (addr value : UInt32) : Cells := fun i =>
  if i ∈ w.unit (addr.toNat % size) then
    Bytes.byteOf value (i - addr.toNat % size / w.bytes * w.bytes)
  else m i

end Cells

namespace Region

/-- What is asked of a region. -/
inductive Request
  | load (w : Width) (addr : UInt32)
  | store (w : Width) (addr value : UInt32)

/-- Does what is asked for in turn, with each access checked, and answers the loads. -/
def serve? {lines : Nat} (r : Region lines) : List Request → Option (List UInt32 × Region lines)
  | [] => some ([], r)
  | .load w addr :: rest => do
    let value ← r.load? w addr
    let (values, r) ← r.serve? rest
    return (value :: values, r)
  | .store w addr value :: rest => do (← r.store? w addr value).serve? rest

end Region

open Region

/-- Does the same with an array of bytes. -/
def Cells.serve (size : Nat) (m : Cells) : List Request → List Nat × Cells
  | [] => ([], m)
  | .load w addr :: rest => (m.load size w addr :: (m.serve size rest).1, (m.serve size rest).2)
  | .store w addr value :: rest => (m.store size w addr value).serve size rest

/-! ### Bytes of a unit -/

/-- The units of bytes that lie in one unit are the same. -/
theorem Width.unit_eq_of_mem {w : Width} {i j : Nat} (h : j ∈ w.unit i) : w.unit j = w.unit i := by
  rw [unit, unit, mem_unit.1 h]

namespace Bytes

theorem ofDigits_byteOf (v : UInt32) (n : Nat) :
    Nat.ofDigits 256 ((List.range n).map fun k => (byteOf v k).toNat) = v.toNat % 256 ^ n := by
  induction n with
  | zero => simp [Nat.mod_one]
  | succ n ih =>
    rw [List.range_succ, List.map_append, List.map_singleton, Nat.ofDigits_append, ih,
      Nat.ofDigits_singleton, List.length_map, List.length_range, toNat_byteOf, Nat.mod_pow_succ]

/-- The bytes of a unit put together are the value that was laid over it. -/
theorem assemble_byteOf (w : Width) (v : UInt32) :
    assemble ((List.range w.bytes).map (byteOf v)) = w.truncate v := by
  apply UInt32.toNat_inj.1
  rw [toNat_assemble (by cases w <;> simp [Width.bytes]), List.map_map, Width.toNat_truncate,
    Width.bits, Nat.pow_mul]
  exact ofDigits_byteOf v w.bytes

end Bytes

namespace Region

variable {lines : Nat}

def cells (r : Region lines) : Cells := Bytes.byteAt r.bytes

theorem toNat_load (r : Region lines) (w : Width) (addr : UInt32) :
    (r.load w addr).toNat = r.cells.load (capacity lines) w addr := by
  rw [load_eq, Bytes.toNat_assemble (by cases w <;> simp [Width.unit, Width.bytes]), List.map_map]
  rfl

theorem toNat_load_byte (r : Region lines) (addr : UInt32) :
    (r.load .byte addr).toNat = (r.cells (addr.toNat % capacity lines)).toNat := by
  simp [toNat_load, Cells.load, Width.unit, Width.bytes]

section

variable (hl : 2 ≤ lines)

include hl

theorem cells_store (r : Region lines) (w : Width) (addr value : UInt32) :
    (r.store w addr value).cells = r.cells.store (capacity lines) w addr value := by
  funext i
  rw [cells, byteAt_store hl, Cells.store]
  split
  · rename_i hi
    have hstart : i / w.bytes = addr.toNat % capacity lines / w.bytes := Width.mem_unit.1 hi
    have hplace := Nat.div_add_mod' i w.bytes
    rw [← hstart, show i % w.bytes = i - i / w.bytes * w.bytes by omega]
  · rfl

/-! ### Requests -/

/-- Each access is within the region and does what it does on an array of bytes, and so does a
whole list of them. -/
theorem serve?_eq (r : Region lines) (requests : List Request) :
    ∃ answers r', r.serve? requests = some (answers, r') ∧
      r.cells.serve (capacity lines) requests = (answers.map UInt32.toNat, r'.cells) := by
  induction requests generalizing r with
  | nil => exact ⟨[], r, rfl, rfl⟩
  | cons request rest ih =>
    cases request with
    | load w addr =>
      obtain ⟨answers, r', hrun, hcells⟩ := ih r
      refine ⟨r.load w addr :: answers, r', ?_, ?_⟩
      · simp only [serve?, load?_eq hl, hrun, Option.bind_eq_bind, Option.bind_some]
        rfl
      · rw [Cells.serve, hcells, ← toNat_load]
        rfl
    | store w addr value =>
      obtain ⟨answers, r', hrun, hcells⟩ := ih (r.store w addr value)
      refine ⟨answers, r', ?_, ?_⟩
      · simpa only [serve?, store?_eq hl, Option.bind_eq_bind, Option.bind_some] using hrun
      · rw [Cells.serve, ← cells_store hl, hcells]

/-! ### Laws of loads and stores -/

theorem lt_capacity_of_mem_unit {w : Width} {addr : UInt32} {i : Nat}
    (hi : i ∈ w.unit (addr.toNat % capacity lines)) : i < capacity lines := by
  have hcap : capacity lines = 4 * 2 ^ (lines - 2) := by
    rw [capacity_eq, ← Nat.pow_add 2 2, Nat.add_sub_of_le hl]
  have hlt : addr.toNat % capacity lines < capacity lines :=
    Nat.mod_lt _ (by rw [capacity_eq]; exact Nat.two_pow_pos lines)
  rw [hcap] at hlt ⊢
  exact Width.lt_of_mem_unit (hcap ▸ hi) hlt

/-- The bytes of a unit have addresses of their own. -/
theorem toNat_ofNat_of_mem_unit {w : Width} {addr : UInt32} {i : Nat}
    (hi : i ∈ w.unit (addr.toNat % capacity lines)) :
    (UInt32.ofNat i).toNat % capacity lines = i := by
  have haddr : addr.toNat % capacity lines < 4 * 0x40000000 :=
    (Nat.mod_le _ _).trans_lt addr.toNat_lt
  have hlt := Width.lt_of_mem_unit hi haddr
  rw [UInt32.toNat_ofNat_of_lt' (by simpa [UInt32.size] using hlt),
    Nat.mod_eq_of_lt (lt_capacity_of_mem_unit hl hi)]

theorem toNat_load_eq_bytes (r : Region lines) (w : Width) (addr : UInt32) :
    (r.load w addr).toNat = Nat.ofDigits 256
      ((w.unit (addr.toNat % capacity lines)).map fun i => (r.load .byte (.ofNat i)).toNat) := by
  rw [toNat_load, Cells.load]
  congr 1
  refine List.map_congr_left fun i hi => ?_
  rw [toNat_load_byte, toNat_ofNat_of_mem_unit hl hi]

theorem toNat_load_byte_store (r : Region lines) (w : Width) (a v b : UInt32) :
    ((r.store w a v).load .byte b).toNat =
      if b.toNat % capacity lines ∈ w.unit (a.toNat % capacity lines) then
        v.toNat / 256 ^ (b.toNat % capacity lines -
          a.toNat % capacity lines / w.bytes * w.bytes) % 256
      else (r.load .byte b).toNat := by
  rw [toNat_load_byte, cells_store hl, Cells.store]
  split
  · rw [Bytes.toNat_byteOf]
  · rw [toNat_load_byte]

/-- A load of the width of the store before it, from any address of the same unit. -/
theorem load_store_of_mem_unit (r : Region lines) {w : Width} {a b : UInt32} (v : UInt32)
    (h : b.toNat % capacity lines ∈ w.unit (a.toNat % capacity lines)) :
    (r.store w a v).load w b = w.truncate v := by
  have hbyte (k : Nat) (hk : k < w.bytes) : Bytes.byteAt (r.store w a v).bytes
      (a.toNat % capacity lines / w.bytes * w.bytes + k) = Bytes.byteOf v k := by
    have hmem : a.toNat % capacity lines / w.bytes * w.bytes + k ∈
        w.unit (a.toNat % capacity lines) :=
      List.mem_map.2 ⟨k, List.mem_range.2 hk, rfl⟩
    rw [byteAt_store hl, if_pos hmem, Nat.mul_comm, Nat.mul_add_mod, Nat.mod_eq_of_lt hk]
  rw [load_eq, Width.unit_eq_of_mem h, ← Bytes.assemble_byteOf, Width.unit, List.map_map]
  exact congrArg _ (List.map_congr_left fun k hk => hbyte k (List.mem_range.1 hk))

end

/-- A region of at least four bytes answers all requests as an array of bytes does, and none of them
leaves its bounds. What loads and stores do to single bytes follows the unit of their address. -/
theorem serves_as_cells (hl : 2 ≤ lines) (r : Region lines) :
    (∀ requests, ∃ answers r', r.serve? requests = some (answers, r') ∧
      r.cells.serve (capacity lines) requests = (answers.map UInt32.toNat, r'.cells)) ∧
    (∀ w a, (r.load w a).toNat = Nat.ofDigits 256
      ((w.unit (a.toNat % capacity lines)).map fun i => (r.load .byte (.ofNat i)).toNat)) ∧
    (∀ w a v b, ((r.store w a v).load .byte b).toNat =
      if b.toNat % capacity lines ∈ w.unit (a.toNat % capacity lines) then
        v.toNat / 256 ^ (b.toNat % capacity lines -
          a.toNat % capacity lines / w.bytes * w.bytes) % 256
      else (r.load .byte b).toNat) ∧
    ∀ w a v b, b.toNat % capacity lines ∈ w.unit (a.toNat % capacity lines) →
      (r.store w a v).load w b = w.truncate v :=
  ⟨serve?_eq hl r, toNat_load_eq_bytes hl r, toNat_load_byte_store hl r,
    fun _ _ v _ h => load_store_of_mem_unit hl r v h⟩

/-- Sixteen bytes. Half of a word is overwritten through an address behind the end, and the word is
then loaded from its last byte. -/
theorem serves_as_cells_overwritten :
    (∃ r, (zeroed 4).serve? [.store .word 4 0xDEADBEEF, .store .half 0x15 0x1234, .load .word 7] =
      some ([0xDEAD1234], r)) ∧
    ((zeroed 4).store .half 0x15 0x81234).load .half 4 = 0x1234 := by
  obtain ⟨hserve, -, -, hsame⟩ := serves_as_cells (by decide) (zeroed 4)
  refine ⟨?_, hsame .half 0x15 0x81234 4 (by decide)⟩
  obtain ⟨answers, r, hrun, hcells⟩ :=
    hserve [.store .word 4 0xDEADBEEF, .store .half 0x15 0x1234, .load .word 7]
  have hanswers : answers.map UInt32.toNat = [0xDEAD1234] :=
    (congrArg Prod.fst hcells).symm.trans (by decide)
  obtain ⟨value, rfl, hvalue⟩ := List.map_eq_singleton_iff.1 hanswers
  obtain rfl : value = 0xDEAD1234 := UInt32.toNat_inj.1 hvalue
  exact ⟨r, hrun⟩

end Region

end GameConsole
