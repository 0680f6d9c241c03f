/-! Byte arrays read and written little-endian. Reading past the end gives zeros, writing past
the end changes nothing. -/

namespace GameConsole.Bytes

def zeros (n : Nat) : ByteArray := ⟨Array.replicate n 0⟩

def byteAt (b : ByteArray) (i : Nat) : UInt8 := if h : i < b.size then b[i] else 0

def setByte (b : ByteArray) (i : Nat) (v : UInt8) : ByteArray :=
  if h : i < b.size then b.set i v h else b

def halfAt (b : ByteArray) (i : Nat) : UInt32 :=
  (byteAt b i).toUInt32 + (byteAt b (i + 1)).toUInt32 * 0x100

def wordAt (b : ByteArray) (i : Nat) : UInt32 :=
  (byteAt b i).toUInt32 + (byteAt b (i + 1)).toUInt32 * 0x100 +
    (byteAt b (i + 2)).toUInt32 * 0x10000 + (byteAt b (i + 3)).toUInt32 * 0x1000000

def setHalf (b : ByteArray) (i : Nat) (v : UInt32) : ByteArray :=
  setByte (setByte b i v.toUInt8) (i + 1) (v >>> 8).toUInt8

def setWord (b : ByteArray) (i : Nat) (v : UInt32) : ByteArray :=
  setHalf (setHalf b i v) (i + 2) (v >>> 16)

def ofWord (v : UInt32) : ByteArray := setWord (zeros 4) 0 v

/-- Cut or filled up with zeros to exactly `n` bytes. -/
def resize (b : ByteArray) (n : Nat) : ByteArray := b.extract 0 n ++ zeros (n - b.size)

/-- `src` laid over `dst` from offset `i` on. -/
def overlay (dst : ByteArray) (i : Nat) (src : ByteArray) : ByteArray :=
  src.copySlice 0 dst i src.size

@[simp] theorem size_zeros (n : Nat) : (zeros n).size = n := Array.size_replicate

@[simp] theorem size_setByte (b : ByteArray) (i : Nat) (v : UInt8) :
    (setByte b i v).size = b.size := by
  unfold setByte
  split
  · exact Array.size_set _
  · rfl

@[simp] theorem size_setHalf (b : ByteArray) (i : Nat) (v : UInt32) :
    (setHalf b i v).size = b.size := by simp [setHalf]

@[simp] theorem size_setWord (b : ByteArray) (i : Nat) (v : UInt32) :
    (setWord b i v).size = b.size := by simp [setWord]

@[simp] theorem size_resize (b : ByteArray) (n : Nat) : (resize b n).size = n := by
  simp only [resize, ByteArray.size_append, ByteArray.size_extract, size_zeros]
  omega

theorem size_overlay (dst : ByteArray) (i : Nat) (src : ByteArray) (h : i + src.size ≤ dst.size) :
    (overlay dst i src).size = dst.size := by
  have h' : i + src.data.size ≤ dst.data.size := h
  simp only [overlay, ByteArray.copySlice, ByteArray.size, Array.size_append, Array.size_extract]
  omega

theorem byteAt_setByte (b : ByteArray) (i j : Nat) (v : UInt8) :
    byteAt (setByte b i v) j = if i = j ∧ j < b.size then v else byteAt b j := by
  by_cases hj : j < b.size
  · by_cases hi : i < b.size
    · have hs : j < (b.set i v hi).size := by
        have : (b.set i v hi).size = b.size := Array.size_set hi
        omega
      have hget : (b.set i v hi)[j] = if i = j then v else b[j] :=
        Array.getElem_set hi hs
      simp [setByte, byteAt, hi, hj, hs, hget]
    · have : i ≠ j := by omega
      simp [setByte, hi, this]
  · simp [byteAt, hj]

end GameConsole.Bytes
