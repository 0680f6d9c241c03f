import GameConsole.Memory.Region
import Mathlib.Tactic.Positivity

/-! Words in byte arrays and in regions. A word is the little-endian sum of its four bytes; storing
one changes these bytes and no other. In a region the words lie side by side: a load sees the last
store to the same word, whatever mirror or misaligned address was used for either. -/

namespace GameConsole

namespace Bytes

/-- The bytes of a word, the lowest first. -/
def byteOf (v : UInt32) (k : Nat) : UInt8 := .ofNat (v.toNat / 256 ^ k)

theorem toNat_byteOf (v : UInt32) (k : Nat) : (byteOf v k).toNat = v.toNat / 256 ^ k % 256 := by
  simp [byteOf]

/-- Shifting a word down and cutting it gives one of its bytes. -/
theorem toUInt8_eq_byteOf {v w : UInt32} {k : Nat} (h : w.toNat = v.toNat / 256 ^ k) :
    w.toUInt8 = byteOf v k := by
  apply UInt8.toNat_inj.1
  rw [UInt32.toNat_toUInt8, toNat_byteOf, h]

theorem byteAt_setWord (b : ByteArray) (i j : Nat) (v : UInt32) :
    byteAt (setWord b i v) j =
      if i ≤ j ∧ j < i + 4 ∧ j < b.size then byteOf v (j - i) else byteAt b j := by
  have h0 : v.toUInt8 = byteOf v 0 := toUInt8_eq_byteOf (by simp)
  have h1 : (v >>> 8).toUInt8 = byteOf v 1 :=
    toUInt8_eq_byteOf (by simp [Nat.shiftRight_eq_div_pow])
  have h2 : (v >>> 16).toUInt8 = byteOf v 2 :=
    toUInt8_eq_byteOf (by simp [Nat.shiftRight_eq_div_pow])
  have h3 : (v >>> 16 >>> 8).toUInt8 = byteOf v 3 :=
    toUInt8_eq_byteOf (by simp [Nat.shiftRight_eq_div_pow, Nat.div_div_eq_div_mul])
  simp only [setWord, setHalf, byteAt_setByte, size_setByte, h0, h1, h2, h3]
  by_cases hj : i ≤ j ∧ j < i + 4 ∧ j < b.size
  · obtain ⟨k, rfl⟩ : ∃ k, j = i + k := ⟨j - i, by omega⟩
    obtain rfl | rfl | rfl | rfl : k = 0 ∨ k = 1 ∨ k = 2 ∨ k = 3 := by omega
    · simp
      omega
    all_goals simp [hj]
  · rw [if_neg hj, if_neg (by omega), if_neg (by omega), if_neg (by omega), if_neg (by omega)]

theorem toNat_wordAt (b : ByteArray) (i : Nat) : (wordAt b i).toNat =
    (byteAt b i).toNat + (byteAt b (i + 1)).toNat * 0x100 +
      (byteAt b (i + 2)).toNat * 0x10000 + (byteAt b (i + 3)).toNat * 0x1000000 := by
  have h0 := (byteAt b i).toNat_lt
  have h1 := (byteAt b (i + 1)).toNat_lt
  have h2 := (byteAt b (i + 2)).toNat_lt
  have h3 := (byteAt b (i + 3)).toNat_lt
  simp only [wordAt, UInt32.toNat_add, UInt32.toNat_mul, UInt8.toNat_toUInt32, UInt32.reduceToNat]
  omega

/-- A word is determined by its bytes. -/
theorem wordAt_eq_of_bytes {b : ByteArray} {i : Nat} {v : UInt32}
    (h : ∀ k < 4, byteAt b (i + k) = byteOf v k) : wordAt b i = v := by
  have h0 := congrArg UInt8.toNat (h 0 (by omega))
  have h1 := congrArg UInt8.toNat (h 1 (by omega))
  have h2 := congrArg UInt8.toNat (h 2 (by omega))
  have h3 := congrArg UInt8.toNat (h 3 (by omega))
  simp only [toNat_byteOf, Nat.add_zero] at h0 h1 h2 h3
  have hv := v.toNat_lt
  apply UInt32.toNat_inj.1
  rw [toNat_wordAt]
  omega

theorem byteOf_wordAt (b : ByteArray) (i : Nat) {k : Nat} (hk : k < 4) :
    byteOf (wordAt b i) k = byteAt b (i + k) := by
  have h0 := (byteAt b i).toNat_lt
  have h1 := (byteAt b (i + 1)).toNat_lt
  have h2 := (byteAt b (i + 2)).toNat_lt
  have h3 := (byteAt b (i + 3)).toNat_lt
  apply UInt8.toNat_inj.1
  rw [toNat_byteOf, toNat_wordAt]
  obtain rfl | rfl | rfl | rfl : k = 0 ∨ k = 1 ∨ k = 2 ∨ k = 3 := by omega
  · change _ = (byteAt b i).toNat
    rw [Nat.pow_zero, Nat.div_one]
    omega
  all_goals omega

theorem wordAt_setWord_self {b : ByteArray} {i : Nat} (v : UInt32) (h : i + 4 ≤ b.size) :
    wordAt (setWord b i v) i = v := by
  apply wordAt_eq_of_bytes
  intro k hk
  rw [byteAt_setWord, if_pos (by omega), Nat.add_sub_cancel_left]

theorem wordAt_setWord_of_disjoint (b : ByteArray) {i j : Nat} (v : UInt32)
    (h : i + 4 ≤ j ∨ j + 4 ≤ i) : wordAt (setWord b i v) j = wordAt b j := by
  apply wordAt_eq_of_bytes
  intro k hk
  rw [byteAt_setWord, if_neg (by omega), byteOf_wordAt _ _ hk]

/-- Byte arrays of one size are the same if their bytes are. -/
theorem ext_byteAt {b c : ByteArray} (hsize : b.size = c.size)
    (h : ∀ i < b.size, byteAt b i = byteAt c i) : b = c := by
  apply ByteArray.ext_getElem hsize
  intro i hb hc
  simpa [byteAt, hb, hc] using h i hb

theorem byteAt_zeros (n i : Nat) : byteAt (zeros n) i = 0 := by
  unfold byteAt
  split
  · exact Array.getElem_replicate _
  · rfl

theorem wordAt_zeros (n i : Nat) : wordAt (zeros n) i = 0 := by
  apply wordAt_eq_of_bytes
  intro k _
  rw [byteAt_zeros]
  simp [byteOf]

end Bytes

namespace Region

variable {lines : Nat}

/-- Where the word that an address belongs to starts. -/
def wordStart (lines : Nat) (addr : UInt32) : Nat := addr.toNat % capacity lines / 4 * 4

theorem capacity_eq (lines : Nat) : capacity lines = 2 ^ lines := by
  rw [capacity, Nat.shiftLeft_eq, Nat.one_mul]

theorem offset_eq (r : Region lines) (w : Width) (addr : UInt32) :
    r.offset w addr = addr.toNat % capacity lines / w.bytes * w.bytes := by
  have hmask : addr.toNat &&& (r.bytes.size - 1) = addr.toNat % capacity lines := by
    rw [r.size_bytes, capacity_eq, Nat.and_two_pow_sub_one_eq_mod]
  simp only [offset, hmask]
  have := Nat.div_add_mod' (addr.toNat % capacity lines) w.bytes
  omega

/-- The units do not reach over the end of a region. -/
theorem offset_add_le (hl : 2 ≤ lines) (r : Region lines) (w : Width) (addr : UInt32) :
    r.offset w addr + w.bytes ≤ capacity lines := by
  obtain ⟨k, rfl⟩ : ∃ k, lines = k + 2 := ⟨lines - 2, by omega⟩
  have hcap : capacity (k + 2) = 4 * 2 ^ k := by rw [capacity_eq, Nat.pow_add, Nat.mul_comm]
  have hlt : addr.toNat % capacity (k + 2) < capacity (k + 2) :=
    Nat.mod_lt _ (by rw [hcap]; positivity)
  rw [offset_eq]
  cases w <;> simp only [Width.bytes] <;> omega

theorem offset_word (r : Region lines) (addr : UInt32) :
    r.offset .word addr = wordStart lines addr := r.offset_eq .word addr

theorem wordStart_add_le (hl : 2 ≤ lines) (addr : UInt32) :
    wordStart lines addr + 4 ≤ capacity lines := by
  rw [← offset_word (zeroed lines)]
  exact offset_add_le hl _ _ _

theorem loadWord_eq (r : Region lines) (addr : UInt32) :
    r.loadWord addr = Bytes.wordAt r.bytes (wordStart lines addr) := by
  simp only [loadWord, load, offset_word]

theorem bytes_storeWord (r : Region lines) (addr value : UInt32) :
    (r.storeWord addr value).bytes = Bytes.setWord r.bytes (wordStart lines addr) value := by
  simp only [storeWord, store, offset_word]

theorem ext_bytes {r s : Region lines} (h : r.bytes = s.bytes) : r = s := by
  cases r
  cases s
  cases h
  rfl

/-- The words of a region, each told from the others by where it starts. -/
theorem wordAt_storeWord (hl : 2 ≤ lines) (r : Region lines) (a v : UInt32) {i : Nat}
    (hi : i % 4 = 0) : Bytes.wordAt (r.storeWord a v).bytes i =
      if wordStart lines a = i then v else Bytes.wordAt r.bytes i := by
  rw [bytes_storeWord]
  split
  · rename_i h
    rw [← h, Bytes.wordAt_setWord_self]
    rw [r.size_bytes]
    exact wordStart_add_le hl a
  · rename_i h
    rw [Bytes.wordAt_setWord_of_disjoint]
    unfold wordStart at h ⊢
    omega

/-- A load sees the last store to the same word. -/
theorem loadWord_storeWord (hl : 2 ≤ lines) (r : Region lines) (a b v : UInt32) :
    (r.storeWord a v).loadWord b =
      if wordStart lines a = wordStart lines b then v else r.loadWord b := by
  have hword : wordStart lines b % 4 = 0 := by
    unfold wordStart
    omega
  rw [loadWord_eq, loadWord_eq, wordAt_storeWord hl r a v hword]

theorem loadWord_storeWord_self (hl : 2 ≤ lines) (r : Region lines) (a v : UInt32) :
    (r.storeWord a v).loadWord a = v := by
  rw [loadWord_storeWord hl, if_pos rfl]

theorem byteAt_storeWord (r : Region lines) (a v : UInt32) (i : Nat) :
    Bytes.byteAt (r.storeWord a v).bytes i =
      if wordStart lines a ≤ i ∧ i < wordStart lines a + 4 ∧ i < r.bytes.size then
        Bytes.byteOf v (i - wordStart lines a)
      else Bytes.byteAt r.bytes i := by
  rw [bytes_storeWord, Bytes.byteAt_setWord]

/-- Only the last of two stores to one word counts. -/
theorem storeWord_storeWord (r : Region lines) (a v w : UInt32) :
    (r.storeWord a v).storeWord a w = r.storeWord a w := by
  apply ext_bytes
  apply Bytes.ext_byteAt
  · simp only [size_bytes]
  · intro i _
    simp only [byteAt_storeWord, size_bytes]
    split <;> rfl

/-- Storing what is there changes nothing. -/
theorem storeWord_loadWord (r : Region lines) (a : UInt32) :
    r.storeWord a (r.loadWord a) = r := by
  apply ext_bytes
  apply Bytes.ext_byteAt
  · simp only [size_bytes]
  · intro i _
    rw [byteAt_storeWord, loadWord_eq]
    split
    · rename_i h
      rw [Bytes.byteOf_wordAt _ _ (by omega), Nat.add_sub_of_le h.1]
    · rfl

/-- Words are counted from the next address as from this one. -/
theorem add_four_add_mul (addr : UInt32) (i : Nat) :
    addr + 4 + 4 * UInt32.ofNat i = addr + 4 * UInt32.ofNat (i + 1) := by
  rw [UInt32.ofNat_add, UInt32.mul_add, UInt32.add_assoc, UInt32.add_comm 4]
  rfl

/-- The words of a run, each by its own address. -/
theorem words_eq_map (r : Region lines) (addr : UInt32) (count : Nat) :
    r.words addr count =
      (List.range count).map fun i => r.loadWord (addr + 4 * UInt32.ofNat i) := by
  induction count generalizing addr with
  | zero => rfl
  | succ n ih =>
    have hfirst : addr + 4 * UInt32.ofNat 0 = addr := UInt32.add_zero addr
    simp only [words, ih, add_four_add_mul, List.range_succ_eq_map, List.map_cons, List.map_map,
      hfirst]
    rfl

theorem loadWord_zeroed (lines : Nat) (addr : UInt32) : (zeroed lines).loadWord addr = 0 := by
  rw [loadWord_eq, zeroed, Bytes.wordAt_zeros]

end Region

end GameConsole
