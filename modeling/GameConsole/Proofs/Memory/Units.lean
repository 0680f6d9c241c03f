import GameConsole.Proofs.Memory.Words
import Mathlib.Data.Nat.Digits.Defs

/-! Units of any width. A region is a row of bytes. A load puts the bytes of one unit together, the
lowest first, and a store lays the bytes of a value over one unit; all widths see the same bytes,
and no unit reaches over the end. -/

namespace GameConsole

/-- The places of the bytes in the unit of this width that has the byte at `i`. -/
def Width.unit (w : Width) (i : Nat) : List Nat :=
  (List.range w.bytes).map (i / w.bytes * w.bytes + ·)

theorem Width.mem_unit {w : Width} {i j : Nat} : j ∈ w.unit i ↔ j / w.bytes = i / w.bytes := by
  simp only [unit, List.mem_map, List.mem_range]
  constructor
  · rintro ⟨k, hk, rfl⟩
    rw [Nat.mul_comm, Nat.mul_add_div (by omega), Nat.div_eq_of_lt hk, Nat.add_zero]
  · intro h
    refine ⟨j % w.bytes, Nat.mod_lt _ (by cases w <;> decide), ?_⟩
    rw [← h, Nat.mul_comm]
    exact Nat.div_add_mod j w.bytes

/-- No unit crosses a multiple of the greatest width. -/
theorem Width.lt_of_mem_unit {w : Width} {i j m : Nat} (h : j ∈ w.unit i) (hi : i < 4 * m) :
    j < 4 * m := by
  rw [mem_unit] at h
  cases w <;> simp only [bytes] at h <;> omega

theorem Width.toNat_truncate (w : Width) (v : UInt32) :
    (w.truncate v).toNat = v.toNat % 2 ^ w.bits := by
  cases w with
  | byte =>
    rw [truncate, UInt32.toNat_and]
    exact Nat.and_two_pow_sub_one_eq_mod _ 8
  | half =>
    rw [truncate, UInt32.toNat_and]
    exact Nat.and_two_pow_sub_one_eq_mod _ 16
  | word => exact (Nat.mod_eq_of_lt v.toNat_lt).symm

/-- The top byte of an address. -/
theorem toNat_shiftRight_24 (v : UInt32) : (v >>> 24).toNat = v.toNat / 0x1000000 := by
  simp [Nat.shiftRight_eq_div_pow]

namespace Bytes

/-- Bytes put together, the lowest first. -/
def assemble (bytes : List UInt8) : UInt32 := .ofNat (Nat.ofDigits 256 (bytes.map UInt8.toNat))

theorem ofDigits_lt (bytes : List UInt8) :
    Nat.ofDigits 256 (bytes.map UInt8.toNat) < 256 ^ bytes.length := by
  have hdigits : ∀ d ∈ bytes.map UInt8.toNat, d < 256 := by
    intro d hd
    obtain ⟨b, -, rfl⟩ := List.mem_map.1 hd
    exact b.toNat_lt
  simpa using Nat.ofDigits_lt_base_pow_length (by decide) hdigits

theorem toNat_assemble {bytes : List UInt8} (h : bytes.length ≤ 4) :
    (assemble bytes).toNat = Nat.ofDigits 256 (bytes.map UInt8.toNat) := by
  have hlt := ofDigits_lt bytes
  have hle : 256 ^ bytes.length ≤ 256 ^ 4 := Nat.pow_le_pow_right (by decide) h
  simp only [assemble, UInt32.toNat_ofNat']
  omega

theorem byteOf_truncate (w : Width) (v : UInt32) {k : Nat} (hk : k < w.bytes) :
    byteOf (w.truncate v) k = byteOf v k := by
  apply UInt8.toNat_inj.1
  rw [toNat_byteOf, toNat_byteOf, Width.toNat_truncate]
  cases w with
  | byte =>
    obtain rfl : k = 0 := by simpa [Width.bytes] using hk
    simp only [Width.bits, Width.bytes]
    omega
  | half =>
    obtain rfl | rfl : k = 0 ∨ k = 1 := by
      simp only [Width.bytes] at hk
      omega
    all_goals
      simp only [Width.bits, Width.bytes]
      omega
  | word => rw [show v.toNat % 2 ^ Width.word.bits = v.toNat from Nat.mod_eq_of_lt v.toNat_lt]

theorem byteAt_setHalf (b : ByteArray) (i j : Nat) (v : UInt32) :
    byteAt (setHalf b i v) j =
      if i ≤ j ∧ j < i + 2 ∧ j < b.size then byteOf v (j - i) else byteAt b j := by
  have h0 : v.toUInt8 = byteOf v 0 := toUInt8_eq_byteOf (by simp)
  have h1 : (v >>> 8).toUInt8 = byteOf v 1 :=
    toUInt8_eq_byteOf (by simp [Nat.shiftRight_eq_div_pow])
  simp only [setHalf, byteAt_setByte, size_setByte, h0, h1]
  by_cases hj : i ≤ j ∧ j < i + 2 ∧ j < b.size
  · obtain ⟨k, rfl⟩ : ∃ k, j = i + k := ⟨j - i, by omega⟩
    obtain rfl | rfl : k = 0 ∨ k = 1 := by omega
    · simp
    · simp [hj]
  · rw [if_neg hj, if_neg (by omega), if_neg (by omega)]

end Bytes

namespace Region

variable {lines : Nat}

/-- A load puts the bytes of a unit together. -/
theorem load_eq (r : Region lines) (w : Width) (addr : UInt32) :
    r.load w addr =
      Bytes.assemble ((w.unit (addr.toNat % capacity lines)).map (Bytes.byteAt r.bytes)) := by
  unfold load
  rw [offset_eq]
  generalize addr.toNat % capacity lines = i
  apply UInt32.toNat_inj.1
  rw [Bytes.toNat_assemble (by cases w <;> simp [Width.unit, Width.bytes])]
  cases w with
  | byte => simp [Width.unit, Width.bytes, Nat.ofDigits_cons]
  | half =>
    have h0 := (Bytes.byteAt r.bytes (i / 2 * 2)).toNat_lt
    have h1 := (Bytes.byteAt r.bytes (i / 2 * 2 + 1)).toNat_lt
    simp [Width.unit, Width.bytes, List.range_succ, Nat.ofDigits_cons, Bytes.halfAt]
    omega
  | word =>
    simp [Width.unit, Width.bytes, List.range_succ, Nat.ofDigits_cons, Bytes.toNat_wordAt]
    omega

/-- A load gives a value of its width. -/
theorem toNat_load_lt (r : Region lines) (w : Width) (addr : UInt32) :
    (r.load w addr).toNat < 2 ^ w.bits := by
  have hlength (i : Nat) : ((w.unit i).map (Bytes.byteAt r.bytes)).length = w.bytes := by
    simp [Width.unit]
  have hbytes : w.bytes ≤ 4 := by cases w <;> decide
  have hlt := Bytes.ofDigits_lt ((w.unit (addr.toNat % capacity lines)).map (Bytes.byteAt r.bytes))
  rw [hlength] at hlt
  rwa [load_eq, Bytes.toNat_assemble (by rwa [hlength]), Width.bits, Nat.pow_mul]

theorem byteAt_store_offset (r : Region lines) (w : Width) (addr v : UInt32) (j : Nat) :
    Bytes.byteAt (r.store w addr v).bytes j =
      if r.offset w addr ≤ j ∧ j < r.offset w addr + w.bytes ∧ j < r.bytes.size then
        Bytes.byteOf v (j - r.offset w addr)
      else Bytes.byteAt r.bytes j := by
  cases w with
  | byte =>
    have h0 : v.toUInt8 = Bytes.byteOf v 0 := Bytes.toUInt8_eq_byteOf (by simp)
    simp only [store, Bytes.byteAt_setByte, h0]
    by_cases hj : r.offset .byte addr = j
    · simp [hj, Width.bytes]
    · rw [if_neg (by omega), if_neg (by rw [Width.bytes]; omega)]
  | half =>
    simp only [store, Bytes.byteAt_setHalf]
    rfl
  | word =>
    simp only [store, Bytes.byteAt_setWord]
    rfl

/-- A store lays the low bytes of the value over a unit. -/
theorem byteAt_store (hl : 2 ≤ lines) (r : Region lines) (w : Width) (addr v : UInt32) (j : Nat) :
    Bytes.byteAt (r.store w addr v).bytes j =
      if j ∈ w.unit (addr.toNat % capacity lines) then Bytes.byteOf v (j % w.bytes)
      else Bytes.byteAt r.bytes j := by
  have hle := r.offset_add_le hl w addr
  rw [← r.size_bytes] at hle
  rw [byteAt_store_offset]
  rw [offset_eq] at hle ⊢
  generalize addr.toNat % capacity lines = i at hle ⊢
  have hi := Nat.div_add_mod' i w.bytes
  have hj := Nat.div_add_mod' j w.bytes
  have hlt : j % w.bytes < w.bytes := Nat.mod_lt _ (by cases w <;> decide)
  by_cases hmem : j / w.bytes = i / w.bytes
  · rw [hmem] at hj
    rw [if_pos (by omega), if_pos (Width.mem_unit.2 hmem),
      show j - i / w.bytes * w.bytes = j % w.bytes by omega]
  · have hout : ¬(i / w.bytes * w.bytes ≤ j ∧ j < i / w.bytes * w.bytes + w.bytes) := by
      rintro ⟨hlow, hhigh⟩
      exact hmem (Nat.div_eq_of_lt_le hlow (by rw [Nat.add_mul, Nat.one_mul]; exact hhigh))
    rw [if_neg (fun h => hout ⟨h.1, h.2.1⟩), if_neg (fun h => hmem (Width.mem_unit.1 h))]

end Region

end GameConsole
