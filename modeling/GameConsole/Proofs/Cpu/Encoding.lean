import GameConsole.Cpu.Instruction
import Mathlib.Algebra.Ring.Nat

/-! Words of instructions, field by field. An instruction is laid out over some fields of its word,
each with a number of its own, and a word stands for the instruction exactly if it has these numbers
in these fields. The word that an instruction is encoded as has zeros in the other fields. -/

namespace GameConsole

/-- A field of a word. The fields that are cut out of the low bits lie over each other. -/
inductive BitField
  | opcode
  | rs
  | rt
  | rd
  | shamt
  | function
  | immediate
  | target
deriving DecidableEq

namespace BitField

/-- The number of bits below a field. -/
def low : BitField → Nat
  | opcode => 26
  | rs => 21
  | rt => 16
  | rd => 11
  | shamt => 6
  | function | immediate | target => 0

/-- The number of bits in a field. -/
def bits : BitField → Nat
  | opcode | function => 6
  | rs | rt | rd | shamt => 5
  | immediate => 16
  | target => 26

/-- The number in a field of a word. -/
def of (f : BitField) (word : UInt32) : Nat := word.toNat / 2 ^ f.low % 2 ^ f.bits

/-! ### Fields that are read -/

variable (word : UInt32)

theorem toNat_opcode : (word >>> 26).toNat = opcode.of word := by
  have hlt := word.toNat_lt
  simp only [of, low, bits, UInt32.toNat_shiftRight, Nat.shiftRight_eq_div_pow,
    UInt32.reduceToNat, Nat.reduceMod]
  omega

theorem toNat_function : (word &&& 0x3F).toNat = function.of word := by
  simp only [of, low, bits, UInt32.toNat_and, Nat.pow_zero, Nat.div_one]
  exact Nat.and_two_pow_sub_one_eq_mod _ 6

/-- The low five bits of a shifted word are the field that starts there. -/
theorem lowFiveBits_eq_iff {f : BitField} {k : UInt32} (hbits : f.bits = 5)
    (hlow : k.toNat % 32 = f.low) (n : Fin 32) : lowFiveBits (word >>> k) = n ↔ f.of word = n := by
  simp [lowFiveBits, of, hbits, hlow, Fin.ext_iff, Nat.shiftRight_eq_div_pow]

theorem shamt_eq_iff (n : Fin 32) : lowFiveBits (word >>> 6) = n ↔ shamt.of word = n :=
  lowFiveBits_eq_iff word rfl rfl n

theorem ofBits_eq_iff {f : BitField} {k : UInt32} (hbits : f.bits = 5) (hlow : k.toNat % 32 = f.low)
    (r : Register) : Register.ofBits (word >>> k) = r ↔ f.of word = r.index := by
  rw [← lowFiveBits_eq_iff word hbits hlow, Register.ofBits]
  exact ⟨fun h => congrArg Register.index h, fun h => h ▸ rfl⟩

theorem rs_eq_iff (r : Register) : Register.ofBits (word >>> 21) = r ↔ rs.of word = r.index :=
  ofBits_eq_iff word rfl rfl r

theorem rt_eq_iff (r : Register) : Register.ofBits (word >>> 16) = r ↔ rt.of word = r.index :=
  ofBits_eq_iff word rfl rfl r

theorem rd_eq_iff (r : Register) : Register.ofBits (word >>> 11) = r ↔ rd.of word = r.index :=
  ofBits_eq_iff word rfl rfl r

theorem immediate_eq_iff (imm : UInt16) :
    word.toUInt16 = imm ↔ immediate.of word = imm.toNat := by
  simp [← UInt16.toNat_inj, of, low, bits]

theorem offset_eq_iff (offset : Int16) :
    word.toUInt16.toInt16 = offset ↔ immediate.of word = offset.toUInt16.toNat := by
  rw [← immediate_eq_iff]
  exact ⟨fun h => h ▸ rfl, fun h => h ▸ rfl⟩

theorem target_eq_iff (n : Fin 0x4000000) :
    Fin.ofNat 0x4000000 word.toNat = n ↔ target.of word = n := by
  simp [Fin.ext_iff, of, low, bits]

end BitField

namespace Instruction

open BitField (toNat_opcode toNat_function rs_eq_iff rt_eq_iff rd_eq_iff shamt_eq_iff
  immediate_eq_iff offset_eq_iff target_eq_iff)

/-! ### Layouts -/

def shiftLayout (function : Nat) (rd rt : Register) (shamt : Fin 32) : List (BitField × Nat) :=
  [(.opcode, 0x00), (.function, function), (.rt, rt.index), (.rd, rd.index), (.shamt, shamt)]

def logicLayout (function : Nat) (rd rs rt : Register) : List (BitField × Nat) :=
  [(.opcode, 0x00), (.function, function), (.rs, rs.index), (.rt, rt.index), (.rd, rd.index)]

def jumpLayout (opcode : Nat) (target : Fin 0x4000000) : List (BitField × Nat) :=
  [(.opcode, opcode), (.target, target)]

def immediateLayout (opcode : Nat) (rs rt : Register) (imm : UInt16) : List (BitField × Nat) :=
  [(.opcode, opcode), (.rs, rs.index), (.rt, rt.index), (.immediate, imm.toNat)]

/-- The fields that an instruction is laid out over, and the numbers in them. -/
def layout : Instruction → List (BitField × Nat)
  | sll rd rt shamt => shiftLayout 0x00 rd rt shamt
  | srl rd rt shamt => shiftLayout 0x02 rd rt shamt
  | jr rs => [(.opcode, 0x00), (.function, 0x08), (.rs, rs.index)]
  | and rd rs rt => logicLayout 0x24 rd rs rt
  | or rd rs rt => logicLayout 0x25 rd rs rt
  | j target => jumpLayout 0x02 target
  | jal target => jumpLayout 0x03 target
  | beq rs rt offset => immediateLayout 0x04 rs rt offset.toUInt16
  | bne rs rt offset => immediateLayout 0x05 rs rt offset.toUInt16
  | bgtz rs offset => [(.opcode, 0x07), (.rs, rs.index), (.immediate, offset.toUInt16.toNat)]
  | addiu rt rs imm => immediateLayout 0x09 rs rt imm.toUInt16
  | slti rt rs imm => immediateLayout 0x0A rs rt imm.toUInt16
  | andi rt rs imm => immediateLayout 0x0C rs rt imm
  | ori rt rs imm => immediateLayout 0x0D rs rt imm
  | lui rt imm => [(.opcode, 0x0F), (.rt, rt.index), (.immediate, imm.toNat)]
  | lh rt base offset => immediateLayout 0x21 base rt offset.toUInt16
  | lw rt base offset => immediateLayout 0x23 base rt offset.toUInt16
  | lbu rt base offset => immediateLayout 0x24 base rt offset.toUInt16
  | sb rt base offset => immediateLayout 0x28 base rt offset.toUInt16
  | sh rt base offset => immediateLayout 0x29 base rt offset.toUInt16
  | sw rt base offset => immediateLayout 0x2B base rt offset.toUInt16

/-- The fields of an instruction. -/
def fields (i : Instruction) : List BitField := i.layout.map Prod.fst

/-! ### Words that are read -/

/-- A word is read as an instruction exactly if it has the numbers of the instruction in their
fields. -/
theorem decode_eq_ok_iff (word pc : UInt32) (i : Instruction) :
    decode word pc = .ok i ↔ ∀ p ∈ i.layout, p.1.of word = p.2 := by
  simp only [decode, toNat_opcode, toNat_function]
  constructor
  · intro h
    split at h
    · rename_i hopcode
      split at h <;> cases h
      all_goals
        rename_i hfunction
        simp only [layout, shiftLayout, logicLayout, List.forall_mem_cons, hopcode, hfunction,
          ← rs_eq_iff, ← rt_eq_iff, ← rd_eq_iff, ← shamt_eq_iff]
        simp
    all_goals cases h
    all_goals
      rename_i hopcode
      simp only [layout, jumpLayout, immediateLayout, List.forall_mem_cons, hopcode, ← rs_eq_iff,
        ← rt_eq_iff, ← immediate_eq_iff, ← target_eq_iff]
      simp
  · intro h
    cases i with
    | j target | jal target =>
      simp only [layout, jumpLayout, List.forall_mem_cons] at h
      simp only [h.1, (target_eq_iff word target).2 h.2.1]
    | _ =>
      simp only [layout, shiftLayout, logicLayout, immediateLayout, List.forall_mem_cons] at h
      simp [h, rs_eq_iff, rt_eq_iff, rd_eq_iff, shamt_eq_iff, immediate_eq_iff, offset_eq_iff]

-- The fields that the instruction does not use are all ones here.
example : decode 0x03FFFFC8 0 = .ok (.jr .ra) := rfl

/-- The opcodes of the instructions. The first one is shared by those that have a function. -/
def opcodes : List Nat :=
  [0x00, 0x02, 0x03, 0x04, 0x05, 0x07, 0x09, 0x0A, 0x0C, 0x0D, 0x0F, 0x21, 0x23, 0x24, 0x28, 0x29,
    0x2B]

def functions : List Nat := [0x00, 0x02, 0x08, 0x24, 0x25]

/-- A word is refused for its opcode, or for its function where the opcode is zero. -/
theorem decode_eq_error_iff (word pc : UInt32) (cause : Fault) : decode word pc = .error cause ↔
    BitField.opcode.of word ∉ opcodes ∧
        cause = .unimplementedOpcode (.ofNat (BitField.opcode.of word)) word pc ∨
      BitField.opcode.of word = 0 ∧ BitField.function.of word ∉ functions ∧
        cause = .unimplementedSpecial (.ofNat (BitField.function.of word)) word pc := by
  have hopcode : word >>> 26 = .ofNat (BitField.opcode.of word) := by
    rw [← toNat_opcode, UInt32.ofNat_toNat]
  have hfunction : word &&& 0x3F = .ofNat (BitField.function.of word) := by
    rw [← toNat_function, UInt32.ofNat_toNat]
  simp only [decode, toNat_opcode, toNat_function]
  rw [hopcode, hfunction]
  generalize BitField.opcode.of word = opcode
  generalize BitField.function.of word = function
  split
  · split <;> simp_all [opcodes, functions, @eq_comm Fault]
  all_goals simp_all [opcodes, @eq_comm Fault]

/-! ### Words that are written -/

section Write

variable {opcode shamt function : Nat} (rs rt rd : Register) (imm : UInt16)
  (target : Fin 0x4000000)

theorem of_registerWord (hshamt : shamt < 32) (hfunction : function < 64) :
    let word := registerWord rs rt rd shamt function
    BitField.opcode.of word = 0 ∧ BitField.function.of word = function ∧
      BitField.rs.of word = rs.index ∧ BitField.rt.of word = rt.index ∧
      BitField.rd.of word = rd.index ∧ BitField.shamt.of word = shamt := by
  simp only [BitField.of, BitField.low, BitField.bits, registerWord, UInt32.toNat_ofNat']
  refine ⟨?_, ?_, ?_, ?_, ?_, ?_⟩ <;> omega

theorem of_immediateWord (hopcode : opcode < 64) :
    let word := immediateWord opcode rs rt imm
    BitField.opcode.of word = opcode ∧ BitField.rs.of word = rs.index ∧
      BitField.rt.of word = rt.index ∧ BitField.immediate.of word = imm.toNat := by
  have himm := imm.toNat_lt
  simp only [BitField.of, BitField.low, BitField.bits, immediateWord, UInt32.toNat_ofNat']
  refine ⟨?_, ?_, ?_, ?_⟩ <;> omega

theorem of_jumpWord (hopcode : opcode < 64) :
    let word := jumpWord opcode target
    BitField.opcode.of word = opcode ∧ BitField.target.of word = target := by
  simp only [BitField.of, BitField.low, BitField.bits, jumpWord, UInt32.toNat_ofNat']
  constructor <;> omega

end Write

theorem of_encode (i : Instruction) : ∀ p ∈ i.layout, p.1.of i.encode = p.2 := by
  cases i <;> simp [layout, shiftLayout, logicLayout, jumpLayout, immediateLayout, encode,
    of_registerWord, of_immediateWord, of_jumpWord]

theorem decode_encode (i : Instruction) (pc : UInt32) : decode i.encode pc = .ok i :=
  (decode_eq_ok_iff i.encode pc i).2 i.of_encode

/-! ### Words that agree -/

/-- To have the numbers of an instruction is to agree with its word on its fields. -/
theorem layout_iff_agrees (i : Instruction) (word : UInt32) :
    (∀ p ∈ i.layout, p.1.of word = p.2) ↔ ∀ f ∈ i.fields, f.of i.encode = f.of word := by
  simp only [fields, List.forall_mem_map]
  refine forall₂_congr fun p hp => ?_
  rw [i.of_encode p hp, eq_comm]

theorem opcode_mem_fields (i : Instruction) : .opcode ∈ i.fields := by
  cases i <;> simp [fields, layout, shiftLayout, logicLayout, jumpLayout, immediateLayout]

/-- The lowest field of an instruction is its function or lies over the place of one. -/
theorem exists_lowest_field (i : Instruction) : ∃ f ∈ i.fields, f.low = 0 ∧ 6 ≤ f.bits := by
  cases i <;> simp [fields, layout, shiftLayout, logicLayout, jumpLayout, immediateLayout,
    BitField.low, BitField.bits]

theorem function_eq_of_lowest {f : BitField} (hlow : f.low = 0) (hbits : 6 ≤ f.bits)
    {word word' : UInt32} (h : f.of word = f.of word') :
    BitField.function.of word = BitField.function.of word' := by
  have hfunction (w : UInt32) : BitField.function.of w = f.of w % 2 ^ 6 := by
    rw [BitField.of, BitField.of, hlow, Nat.mod_mod_of_dvd _ (Nat.pow_dvd_pow 2 hbits)]
    rfl
  rw [hfunction, hfunction, h]

/-- An instruction is read back from its word, and from the words that agree with it on all fields
of the instruction. The other words have an opcode or a function that is not known. -/
theorem decode_inverts_encode :
    (∀ (i : Instruction) (pc : UInt32), decode i.encode pc = .ok i) ∧
    (∀ (word pc : UInt32) (i : Instruction), decode word pc = .ok i ↔
      ∀ f ∈ .opcode :: .function :: i.fields, BitField.of f i.encode = f.of word) ∧
    ∀ (word pc : UInt32) (cause : Fault), decode word pc = .error cause ↔
      BitField.opcode.of word ∉ opcodes ∧
          cause = .unimplementedOpcode (.ofNat (BitField.opcode.of word)) word pc ∨
        BitField.opcode.of word = 0x00 ∧ BitField.function.of word ∉ functions ∧
          cause = .unimplementedSpecial (.ofNat (BitField.function.of word)) word pc := by
  refine ⟨decode_encode, fun word pc i => ?_, decode_eq_error_iff⟩
  rw [decode_eq_ok_iff, layout_iff_agrees]
  constructor
  · intro h
    obtain ⟨f, hf, hlow, hbits⟩ := i.exists_lowest_field
    have hopcode := h _ i.opcode_mem_fields
    have hfunction := function_eq_of_lowest hlow hbits (h f hf)
    exact List.forall_mem_cons.2 ⟨hopcode, List.forall_mem_cons.2 ⟨hfunction, h⟩⟩
  · intro h f hf
    exact h f (List.mem_cons_of_mem _ (List.mem_cons_of_mem _ hf))

end Instruction

end GameConsole
