/-! The 32 general-purpose registers and their conventional names. -/

namespace GameConsole

/-- The number in the low five bits of a word. -/
def lowFiveBits (w : UInt32) : Fin 32 := Fin.ofNat 32 w.toNat

structure Register where
  index : Fin 32
deriving DecidableEq

namespace Register

/-- The register whose number is in the low five bits. -/
def ofBits (n : UInt32) : Register := ⟨lowFiveBits n⟩

def zero : Register := ⟨0⟩
def v0 : Register := ⟨2⟩
def v1 : Register := ⟨3⟩
def a0 : Register := ⟨4⟩
def a1 : Register := ⟨5⟩
def a2 : Register := ⟨6⟩
def a3 : Register := ⟨7⟩
def gp : Register := ⟨28⟩
def sp : Register := ⟨29⟩
def ra : Register := ⟨31⟩

def names : Vector String 32 := #v[
  "zero", "at", "v0", "v1", "a0", "a1", "a2", "a3",
  "t0", "t1", "t2", "t3", "t4", "t5", "t6", "t7",
  "s0", "s1", "s2", "s3", "s4", "s5", "s6", "s7",
  "t8", "t9", "k0", "k1", "gp", "sp", "fp", "ra"]

def name (r : Register) : String := names.get r.index

/-- The name as it is written in assembly. -/
def text (r : Register) : String := "$" ++ r.name

end Register

end GameConsole
