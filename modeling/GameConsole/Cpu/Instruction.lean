import GameConsole.Cpu.Register
import GameConsole.Fault

/-! Instructions and their encoding as words. A word is split at bits 26, 21, 16, 11 and 6; the
field at the top selects the instruction, and where it is zero the field at the bottom does. -/

namespace GameConsole

inductive Instruction
  | sll (rd rt : Register) (shamt : Fin 32)
  | srl (rd rt : Register) (shamt : Fin 32)
  | jr (rs : Register)
  | and (rd rs rt : Register)
  | or (rd rs rt : Register)
  | j (target : Fin 0x4000000)
  | jal (target : Fin 0x4000000)
  | beq (rs rt : Register) (offset : Int16)
  | bne (rs rt : Register) (offset : Int16)
  | bgtz (rs : Register) (offset : Int16)
  | addiu (rt rs : Register) (imm : Int16)
  | slti (rt rs : Register) (imm : Int16)
  | andi (rt rs : Register) (imm : UInt16)
  | ori (rt rs : Register) (imm : UInt16)
  | lui (rt : Register) (imm : UInt16)
  | lh (rt base : Register) (offset : Int16)
  | lw (rt base : Register) (offset : Int16)
  | lbu (rt base : Register) (offset : Int16)
  | sb (rt base : Register) (offset : Int16)
  | sh (rt base : Register) (offset : Int16)
  | sw (rt base : Register) (offset : Int16)
deriving DecidableEq

namespace Instruction

/-- The instruction that does nothing: a shift of the zero register into itself. -/
def nop : Instruction := .sll .zero .zero ⟨0, by decide⟩

/-- Reads the instruction at `pc` from its word. -/
def decode (word pc : UInt32) : Except Fault Instruction :=
  let rs := Register.ofBits (word >>> 21)
  let rt := Register.ofBits (word >>> 16)
  let rd := Register.ofBits (word >>> 11)
  let shamt := lowFiveBits (word >>> 6)
  let target := Fin.ofNat 0x4000000 word.toNat
  let imm := word.toUInt16
  let simm := imm.toInt16
  match (word >>> 26).toNat with
  | 0x00 =>
    match (word &&& 0x3F).toNat with
    | 0x00 => .ok (.sll rd rt shamt)
    | 0x02 => .ok (.srl rd rt shamt)
    | 0x08 => .ok (.jr rs)
    | 0x24 => .ok (.and rd rs rt)
    | 0x25 => .ok (.or rd rs rt)
    | _ => .error (.unimplementedSpecial (word &&& 0x3F) word pc)
  | 0x02 => .ok (.j target)
  | 0x03 => .ok (.jal target)
  | 0x04 => .ok (.beq rs rt simm)
  | 0x05 => .ok (.bne rs rt simm)
  | 0x07 => .ok (.bgtz rs simm)
  | 0x09 => .ok (.addiu rt rs simm)
  | 0x0A => .ok (.slti rt rs simm)
  | 0x0C => .ok (.andi rt rs imm)
  | 0x0D => .ok (.ori rt rs imm)
  | 0x0F => .ok (.lui rt imm)
  | 0x21 => .ok (.lh rt rs simm)
  | 0x23 => .ok (.lw rt rs simm)
  | 0x24 => .ok (.lbu rt rs simm)
  | 0x28 => .ok (.sb rt rs simm)
  | 0x29 => .ok (.sh rt rs simm)
  | 0x2B => .ok (.sw rt rs simm)
  | _ => .error (.unimplementedOpcode (word >>> 26) word pc)

/-- The three fields of a register instruction after its zero opcode, as a word. -/
def registerWord (rs rt rd : Register) (shamt function : Nat) : UInt32 :=
  .ofNat (rs.index * 0x200000 + rt.index * 0x10000 + rd.index * 0x800 + shamt * 0x40 + function)

def immediateWord (opcode : Nat) (rs rt : Register) (imm : UInt16) : UInt32 :=
  .ofNat (opcode * 0x4000000 + rs.index * 0x200000 + rt.index * 0x10000 + imm.toNat)

def jumpWord (opcode : Nat) (target : Fin 0x4000000) : UInt32 :=
  .ofNat (opcode * 0x4000000 + target)

/-- The word of an instruction, with zeros in the fields that it does not use. -/
def encode : Instruction → UInt32
  | sll rd rt shamt => registerWord .zero rt rd shamt 0x00
  | srl rd rt shamt => registerWord .zero rt rd shamt 0x02
  | jr rs => registerWord rs .zero .zero 0 0x08
  | and rd rs rt => registerWord rs rt rd 0 0x24
  | or rd rs rt => registerWord rs rt rd 0 0x25
  | j target => jumpWord 0x02 target
  | jal target => jumpWord 0x03 target
  | beq rs rt offset => immediateWord 0x04 rs rt offset.toUInt16
  | bne rs rt offset => immediateWord 0x05 rs rt offset.toUInt16
  | bgtz rs offset => immediateWord 0x07 rs .zero offset.toUInt16
  | addiu rt rs imm => immediateWord 0x09 rs rt imm.toUInt16
  | slti rt rs imm => immediateWord 0x0A rs rt imm.toUInt16
  | andi rt rs imm => immediateWord 0x0C rs rt imm
  | ori rt rs imm => immediateWord 0x0D rs rt imm
  | lui rt imm => immediateWord 0x0F .zero rt imm
  | lh rt base offset => immediateWord 0x21 base rt offset.toUInt16
  | lw rt base offset => immediateWord 0x23 base rt offset.toUInt16
  | lbu rt base offset => immediateWord 0x24 base rt offset.toUInt16
  | sb rt base offset => immediateWord 0x28 base rt offset.toUInt16
  | sh rt base offset => immediateWord 0x29 base rt offset.toUInt16
  | sw rt base offset => immediateWord 0x2B base rt offset.toUInt16

end Instruction

end GameConsole
