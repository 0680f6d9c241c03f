import GameConsole.Proofs.Memory.Words

/-! The contents of byte arrays that are made from others. The operations put arrays behind each
other, take parts out of them, bring them to a size and lay one over another; for each of them it is
said which byte comes to which place. -/

namespace GameConsole

namespace Bytes

theorem byteAt_of_size_le {b : ByteArray} {i : Nat} (h : b.size ≤ i) : byteAt b i = 0 :=
  dif_neg (Nat.not_lt.2 h)

theorem byteAt_append (a b : ByteArray) (i : Nat) :
    byteAt (a ++ b) i = if i < a.size then byteAt a i else byteAt b (i - a.size) := by
  have hsize : (a ++ b).size = a.size + b.size := ByteArray.size_append
  rcases Nat.lt_or_ge i a.size with hi | hi
  · rw [if_pos hi, byteAt, byteAt, dif_pos hi, dif_pos (by omega)]
    exact ByteArray.getElem_append_left hi
  · rw [if_neg (by omega)]
    by_cases hb : i - a.size < b.size
    · rw [byteAt, byteAt, dif_pos hb, dif_pos (by omega)]
      exact ByteArray.getElem_append_right hi
    · rw [byteAt_of_size_le (by omega), byteAt_of_size_le (by omega)]

theorem byteAt_extract (b : ByteArray) (start stop i : Nat) :
    byteAt (b.extract start stop) i = if start + i < stop then byteAt b (start + i) else 0 := by
  have hsize : (b.extract start stop).size = min stop b.size - start := ByteArray.size_extract
  by_cases hi : i < (b.extract start stop).size
  · rw [if_pos (by omega), byteAt, byteAt, dif_pos hi, dif_pos (by omega)]
    exact ByteArray.getElem_extract hi
  · rw [byteAt_of_size_le (by omega)]
    split
    · rw [byteAt_of_size_le (by omega)]
    · rfl

theorem byteAt_resize (b : ByteArray) (n i : Nat) :
    byteAt (resize b n) i = if i < n then byteAt b i else 0 := by
  rw [resize, byteAt_append, byteAt_extract, byteAt_zeros, ByteArray.size_extract, Nat.zero_add]
  split_ifs with hsize hn hn
  · rfl
  · rfl
  · rw [byteAt_of_size_le (by omega)]
  · rfl

theorem byteAt_overlay {dst src : ByteArray} {start : Nat} (h : start + src.size ≤ dst.size)
    (i : Nat) : byteAt (overlay dst start src) i =
      if start ≤ i ∧ i < start + src.size then byteAt src (i - start) else byteAt dst i := by
  have hsrc : src.data.size = src.size := rfl
  have hdst : dst.data.size = dst.size := rfl
  rw [overlay, ByteArray.copySlice_eq_append]
  simp only [byteAt_append, byteAt_extract, ByteArray.size_append, ByteArray.size_extract, hsrc,
    hdst, Nat.zero_add, Nat.sub_zero, Nat.min_self,
    Nat.min_eq_left (show start ≤ dst.size by omega)]
  by_cases hlow : i < start
  · rw [if_pos (by omega), if_pos hlow, if_pos hlow, if_neg (by omega)]
  by_cases hmid : i < start + src.size
  · rw [if_pos hmid, if_neg hlow, if_pos (by omega), if_pos ⟨by omega, hmid⟩]
  have hout : ¬(start ≤ i ∧ i < start + src.size) := fun h => hmid h.2
  rw [if_neg hmid, if_neg hout, Nat.add_sub_cancel' (Nat.not_lt.1 hmid)]
  split
  · rfl
  · rw [byteAt_of_size_le (by omega)]

theorem byteAt_overlay_zeros {src : ByteArray} {start n : Nat} (h : start + src.size ≤ n)
    (i : Nat) : byteAt (overlay (zeros n) start src) i =
      if start ≤ i then byteAt src (i - start) else 0 := by
  rw [byteAt_overlay (by rwa [size_zeros]), byteAt_zeros]
  by_cases hlow : start ≤ i
  · rw [if_pos hlow]
    split
    · rfl
    · rw [byteAt_of_size_le (by omega)]
  · rw [if_neg hlow, if_neg fun h => hlow h.1]

theorem wordAt_append_left {a b : ByteArray} {i : Nat} (h : i + 4 ≤ a.size) :
    wordAt (a ++ b) i = wordAt a i := by
  apply wordAt_eq_of_bytes
  intro k hk
  rw [byteAt_append, if_pos (by omega), byteOf_wordAt _ _ hk]

theorem wordAt_append_right {a b : ByteArray} {i : Nat} (h : a.size ≤ i) :
    wordAt (a ++ b) i = wordAt b (i - a.size) := by
  apply wordAt_eq_of_bytes
  intro k hk
  rw [byteAt_append, if_neg (by omega), byteOf_wordAt _ _ hk, Nat.sub_add_comm h]

@[simp] theorem size_ofWord (v : UInt32) : (ofWord v).size = 4 := by simp [ofWord]

theorem wordAt_ofWord (v : UInt32) : wordAt (ofWord v) 0 = v :=
  wordAt_setWord_self v (by simp)

/-- Words one behind the other. -/
def ofWords : List UInt32 → ByteArray
  | [] => ByteArray.empty
  | word :: words => ofWord word ++ ofWords words

@[simp] theorem size_ofWords (words : List UInt32) : (ofWords words).size = 4 * words.length := by
  induction words with
  | nil => rfl
  | cons word words ih =>
    rw [ofWords, ByteArray.size_append, size_ofWord, ih, List.length_cons]
    omega

theorem wordAt_ofWords {words : List UInt32} {i : Nat} {word : UInt32} (h : words[i]? = some word) :
    wordAt (ofWords words) (4 * i) = word := by
  induction words generalizing i with
  | nil => simp at h
  | cons first words ih =>
    cases i with
    | zero =>
      obtain rfl : first = word := by simpa using h
      rw [ofWords, wordAt_append_left (by simp), wordAt_ofWord]
    | succ i =>
      rw [ofWords, wordAt_append_right (by rw [size_ofWord]; omega), size_ofWord,
        show 4 * (i + 1) - 4 = 4 * i by omega]
      exact ih (by simpa using h)

end Bytes

namespace Region

theorem ofBytes_empty (lines : Nat) : ofBytes lines ByteArray.empty = zeroed lines := by
  apply ext_bytes
  apply Bytes.ext_byteAt
  · rw [size_bytes, size_bytes]
  · intro i _
    rw [zeroed, Bytes.byteAt_zeros, ofBytes, Bytes.byteAt_resize,
      Bytes.byteAt_of_size_le (Nat.zero_le i), ite_self]

theorem byteAt_ofBytes {lines : Nat} (content : ByteArray) {i : Nat} (hi : i < capacity lines) :
    Bytes.byteAt (ofBytes lines content).bytes i = Bytes.byteAt content i := by
  rw [ofBytes, Bytes.byteAt_resize, if_pos hi]

end Region

end GameConsole
