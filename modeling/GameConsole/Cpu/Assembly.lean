import GameConsole.Cpu.Instruction

/-! Instructions as assembly text. Branch offsets are written in bytes, jump targets and
zero-extended immediates in hexadecimal, all other numbers in decimal. -/

namespace GameConsole.Instruction

open Numeral

def bytesText (offset : Int16) : String := toString (offset.toInt * 4)

def placeText (base : Register) (offset : Int16) : String :=
  toString offset.toInt ++ "(" ++ base.text ++ ")"

/-- A mnemonic and its operands. -/
def line (mnemonic : String) (operands : List String) : String :=
  mnemonic ++ " " ++ ", ".intercalate operands

def text (i : Instruction) : String :=
  if i = .nop then "nop"
  else match i with
  | sll rd rt shamt => line "sll" [rd.text, rt.text, toString shamt.val]
  | srl rd rt shamt => line "srl" [rd.text, rt.text, toString shamt.val]
  | jr rs => line "jr" [rs.text]
  | and rd rs rt => line "and" [rd.text, rs.text, rt.text]
  | or rd rs rt => line "or" [rd.text, rs.text, rt.text]
  | j target => line "j" [hex (target.val * 4)]
  | jal target => line "jal" [hex (target.val * 4)]
  | beq rs rt offset => line "beq" [rs.text, rt.text, bytesText offset]
  | bne rs rt offset => line "bne" [rs.text, rt.text, bytesText offset]
  | bgtz rs offset => line "bgtz" [rs.text, bytesText offset]
  | addiu rt rs imm => line "addiu" [rt.text, rs.text, toString imm.toInt]
  | slti rt rs imm => line "slti" [rt.text, rs.text, toString imm.toInt]
  | andi rt rs imm => line "andi" [rt.text, rs.text, hex imm.toNat]
  | ori rt rs imm => line "ori" [rt.text, rs.text, hex imm.toNat]
  | lui rt imm => line "lui" [rt.text, hex imm.toNat]
  | lh rt base offset => line "lh" [rt.text, placeText base offset]
  | lw rt base offset => line "lw" [rt.text, placeText base offset]
  | lbu rt base offset => line "lbu" [rt.text, placeText base offset]
  | sb rt base offset => line "sb" [rt.text, placeText base offset]
  | sh rt base offset => line "sh" [rt.text, placeText base offset]
  | sw rt base offset => line "sw" [rt.text, placeText base offset]

end GameConsole.Instruction
