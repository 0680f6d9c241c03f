import GameConsole.Memory
import GameConsole.Proofs.Memory.Contents

/-! Executables that are built and read back. The words of the header lie where the reader looks
for them, and the payload is what comes behind it, as long as its size can be written in a word. -/

namespace GameConsole

namespace Executable

variable (pc gp load sp : UInt32) (payload : ByteArray)

/-- The header that is written in front of a payload. -/
def headerOf : Header := ⟨pc, gp, load, .ofNat payload.size, sp⟩

theorem size_magic : magic.size = 8 := rfl

theorem size_build : (build pc gp load sp payload).size = headerSize + payload.size := by
  simp [build, size_magic, headerSize]

theorem extract_build : (build pc gp load sp payload).extract headerSize
    (headerSize + payload.size) = payload := by
  have hfront : (build pc gp load sp payload).size - payload.size = headerSize := by
    rw [size_build, Nat.add_sub_cancel]
  rw [build, ByteArray.size_append, Nat.add_sub_cancel] at hfront
  exact ByteArray.extract_append_eq_right hfront.symm (by rw [hfront])

theorem readHeader_build :
    readHeader (build pc gp load sp payload) = .ok (headerOf pc gp load sp payload) := by
  rw [readHeader, if_neg (by rw [size_build]; omega), headerOf]
  simp [build, size_magic, headerSize, Bytes.wordAt_append_left, Bytes.wordAt_append_right,
    Bytes.wordAt_ofWord]

variable {payload}

theorem payload_build (h : payload.size < 0x100000000) :
    (headerOf pc gp load sp payload).payload (build pc gp load sp payload) = .ok payload := by
  have hsize : (headerOf pc gp load sp payload).size.toNat = payload.size :=
    UInt32.toNat_ofNat_of_lt h
  rw [Header.payload, hsize, size_build, if_neg (by omega), extract_build]

end Executable

end GameConsole
