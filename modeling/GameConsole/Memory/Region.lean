import GameConsole.Bytes
import GameConsole.Numeral
import GameConsole.Word

/-! A region is a power of two of bytes, seen at every address: the address is taken modulo the
size and then down to a multiple of the access width, so an access that is out of line reads or
writes the unit that contains its address. -/

namespace GameConsole

/-- How many bytes a number of address lines can tell apart. -/
def Region.capacity (lines : Nat) : Nat := 1 <<< lines

/-- The bytes behind a number of address lines. -/
structure Region (lines : Nat) where
  bytes : ByteArray
  size_bytes : bytes.size = Region.capacity lines

namespace Region

variable {lines : Nat}

def zeroed (lines : Nat) : Region lines := ⟨Bytes.zeros (capacity lines), Bytes.size_zeros _⟩

/-- Where the unit of the given width that contains the address starts. -/
def offset (r : Region lines) (w : Width) (addr : UInt32) : Nat :=
  let i := addr.toNat &&& (r.bytes.size - 1)
  i - i % w.bytes

def load (r : Region lines) (w : Width) (addr : UInt32) : UInt32 :=
  let i := r.offset w addr
  match w with
  | .byte => (Bytes.byteAt r.bytes i).toUInt32
  | .half => Bytes.halfAt r.bytes i
  | .word => Bytes.wordAt r.bytes i

/-- Stores as many low bytes of the value as the width has. -/
def store (r : Region lines) (w : Width) (addr value : UInt32) : Region lines :=
  let i := r.offset w addr
  let ⟨bytes, h⟩ := r
  match w with
  | .byte => ⟨Bytes.setByte bytes i value.toUInt8, by simpa using h⟩
  | .half => ⟨Bytes.setHalf bytes i value, by simpa using h⟩
  | .word => ⟨Bytes.setWord bytes i value, by simpa using h⟩

def loadWord (r : Region lines) (addr : UInt32) : UInt32 := r.load .word addr

def storeWord (r : Region lines) (addr value : UInt32) : Region lines := r.store .word addr value

/-- The `count` words that start at an address and follow each other in the address space. -/
def words (r : Region lines) (addr : UInt32) : Nat → List UInt32
  | 0 => []
  | count + 1 => r.loadWord addr :: r.words (addr + 4) count

/-- Fills the region from the start, and the rest of it with zeros. What is too long is cut. -/
def ofBytes (lines : Nat) (content : ByteArray) : Region lines :=
  ⟨Bytes.resize content (capacity lines), Bytes.size_resize _ _⟩

/-- Lays bytes over the region from an offset on, where they fit. -/
def overlay (r : Region lines) (start : Nat) (content : ByteArray)
    (fits : start + content.size ≤ capacity lines) : Region lines :=
  ⟨Bytes.overlay r.bytes start content, by
    rw [Bytes.size_overlay _ _ _ (r.size_bytes ▸ fits), r.size_bytes]⟩

def describe (r : Region lines) : String :=
  "Region \x7b size: " ++ Numeral.hexUpper r.bytes.size ++ ", .. \x7d"

@[simp] theorem length_words (r : Region lines) (addr : UInt32) (count : Nat) :
    (r.words addr count).length = count := by
  induction count generalizing addr with
  | zero => rfl
  | succ n ih => simp [words, ih]

end Region

end GameConsole
