import GameConsole.Cpu
import GameConsole.Proofs.Checked.Basic

/-! The processor with checked register numbers and shifts, on a bus with checked accesses. Where
the accesses of the bus have answers, so has every step. -/

namespace GameConsole

open Checked

/-- A bus with checked accesses. -/
class CheckedBus (β : Type) where
  read? : β → Width → UInt32 → Option (Except Fault UInt32)
  write? : β → Width → UInt32 → UInt32 → Option (Outcome β Unit)

/-- The accesses of a bus in this state have answers, and so they have in the states after. -/
structure Bus.Safe {β : Type} [Bus β] [CheckedBus β] (sound : β → Prop) : Prop where
  read : ∀ b, sound b → ∀ w addr, CheckedBus.read? b w addr = some (Bus.read b w addr)
  write : ∀ b, sound b → ∀ w addr value,
    GameConsole.Safe (CheckedBus.write? b w addr value) (Bus.write b w addr value) fun o =>
      o.Leaves sound

/-- The register whose number is in the low five bits, from the table of all registers. -/
def Register.ofBits? (n : UInt32) : Option Register :=
  if h : (n &&& 0x1F).toNat < 32 then some ⟨⟨(n &&& 0x1F).toNat, h⟩⟩ else none

/-- Decodes a word, if the table has the three registers that it names. -/
def Instruction.decode? (word pc : UInt32) : Option (Except Fault Instruction) := do
  let _ ← Register.ofBits? (word >>> 21)
  let _ ← Register.ofBits? (word >>> 16)
  let _ ← Register.ofBits? (word >>> 11)
  return decode word pc

def Cpu.reg? (c : Cpu) (r : Register) : Option UInt32 := c.regs.toArray[r.index.val]?

def Cpu.setReg? (c : Cpu) (r : Register) (value : UInt32) : Option Cpu :=
  if r = .zero then some c
  else if h : r.index.val < c.regs.toArray.size then
    some { c with regs := c.regs.set r.index value }
  else none

namespace Computer

variable {β : Type} [Bus β] [CheckedBus β]

def loadInto? (c : Computer β) (r : Register) (w : Width) (base : Register) (offset : Int16)
    (f : UInt32 → UInt32) : Option (Outcome (Computer β) (Option UInt32)) := do
  match ← CheckedBus.read? c.bus w ((← c.cpu.reg? base) + signExtend offset) with
  | .error e => return .fault e c
  | .ok value => return .done none { c with cpu := ← c.cpu.setReg? r (f value) }

def storeFrom? (c : Computer β) (r : Register) (w : Width) (base : Register) (offset : Int16) :
    Option (Outcome (Computer β) (Option UInt32)) := do
  match ← CheckedBus.write? c.bus w ((← c.cpu.reg? base) + signExtend offset) (← c.cpu.reg? r) with
  | .fault e bus => return .fault e { c with bus }
  | .endless => return .endless
  | .done _ bus => return .done none { c with bus }

def assign? (c : Computer β) (r : Register) (value : UInt32) :
    Option (Outcome (Computer β) (Option UInt32)) := do
  return .done none { c with cpu := ← c.cpu.setReg? r value }

def execute? (c : Computer β) : Instruction → Option (Outcome (Computer β) (Option UInt32))
  | .sll rd rt shamt => do c.assign? rd (← shiftLeft? (← c.cpu.reg? rt) shamt.val)
  | .srl rd rt shamt => do c.assign? rd (← shiftRight? (← c.cpu.reg? rt) shamt.val)
  | .jr rs => do return .done (some (← c.cpu.reg? rs)) c
  | .and rd rs rt => do c.assign? rd ((← c.cpu.reg? rs) &&& (← c.cpu.reg? rt))
  | .or rd rs rt => do c.assign? rd ((← c.cpu.reg? rs) ||| (← c.cpu.reg? rt))
  | .j target => do return .done (some (c.cpu.jumpTarget target)) c
  | .jal target => do
    let next := c.cpu.jumpTarget target
    return .done (some next) { c with cpu := ← c.cpu.setReg? .ra (c.cpu.pc + 4) }
  | .beq rs rt offset => do return c.branch ((← c.cpu.reg? rs) == (← c.cpu.reg? rt)) offset
  | .bne rs rt offset => do return c.branch ((← c.cpu.reg? rs) != (← c.cpu.reg? rt)) offset
  | .bgtz rs offset => do return c.branch (0 < signedValue (← c.cpu.reg? rs)) offset
  | .addiu rt rs imm => do c.assign? rt ((← c.cpu.reg? rs) + signExtend imm)
  | .slti rt rs imm => do
    c.assign? rt (if signedValue (← c.cpu.reg? rs) < imm.toInt then 1 else 0)
  | .andi rt rs imm => do c.assign? rt ((← c.cpu.reg? rs) &&& imm.toUInt32)
  | .ori rt rs imm => do c.assign? rt ((← c.cpu.reg? rs) ||| imm.toUInt32)
  | .lui rt imm => do c.assign? rt (← shiftLeft? imm.toUInt32 16)
  | .lh rt base offset => c.loadInto? rt .half base offset fun v => signExtend v.toUInt16.toInt16
  | .lw rt base offset => c.loadInto? rt .word base offset id
  | .lbu rt base offset => c.loadInto? rt .byte base offset id
  | .sb rt base offset => c.storeFrom? rt .byte base offset
  | .sh rt base offset => c.storeFrom? rt .half base offset
  | .sw rt base offset => c.storeFrom? rt .word base offset

def executeNext? (c : Computer β) : Option (Outcome (Computer β) (Option UInt32)) := do
  match ← CheckedBus.read? c.bus .word c.cpu.pc with
  | .error e => return .fault e c
  | .ok word =>
    let next : Computer β := { c with cpu := { c.cpu with pc := c.cpu.pc + 4 } }
    match ← Instruction.decode? word c.cpu.pc with
    | .error e => return .fault e next
    | .ok instruction => next.execute? instruction

def runChain? (start : UInt32) :
    Nat → Option UInt32 → Computer β → Option (Outcome (Computer β) Unit)
  | 0, _, c => return .fault (.runawayDelaySlots start) c
  | fuel + 1, target, c => do
    match ← c.executeNext? with
    | .fault e c => return .fault e c
    | .endless => return .endless
    | .done (some next) c => runChain? start fuel (some (target.getD next)) c
    | .done none c =>
      match target with
      | none => return .done () c
      | some pc => return .done () { c with cpu := { c.cpu with pc } }

/-- One checked step of execution. -/
def step? (c : Computer β) : Option (Outcome (Computer β) Unit) :=
  runChain? c.cpu.pc maxDelayChain none c

end Computer

/-! ### Registers -/

theorem Register.ofBits?_eq (n : UInt32) : ofBits? n = some (ofBits n) := by
  have hmask : (n &&& 0x1F).toNat = n.toNat % 32 := Nat.and_two_pow_sub_one_eq_mod n.toNat 5
  have hlt : (n &&& 0x1F).toNat < 32 := by omega
  rw [ofBits?, dif_pos hlt, ofBits, lowFiveBits]
  congr 2
  exact Fin.ext hmask

theorem Instruction.decode?_eq (word pc : UInt32) : decode? word pc = some (decode word pc) := by
  simp only [decode?, Register.ofBits?_eq, Option.bind_eq_bind, Option.bind_some]
  rfl

theorem Cpu.reg?_eq (c : Cpu) (r : Register) : c.reg? r = some (c.reg r) := by
  rw [reg?, Array.getElem?_eq_getElem (by simp), reg]
  rfl

theorem Cpu.setReg?_eq (c : Cpu) (r : Register) (value : UInt32) :
    c.setReg? r value = some (c.setReg r value) := by
  rw [setReg?, setReg]
  by_cases hzero : r = .zero
  · rw [if_pos hzero, if_pos hzero]
  · rw [if_neg hzero, if_neg hzero, dif_pos (by simp)]

namespace Computer

variable {β : Type} [Bus β] [CheckedBus β]

/-! ### Steps -/

variable {sound : β → Prop} (hbus : Bus.Safe sound) {c : Computer β} (hc : sound c.bus)

include hbus hc

theorem safe_loadInto (r : Register) (w : Width) (base : Register) (offset : Int16)
    (f : UInt32 → UInt32) : Safe (c.loadInto? r w base offset f)
      (c.loadInto r w (c.cpu.address base offset) f) fun o => o.Leaves fun c => sound c.bus := by
  simp only [loadInto?, loadInto, Cpu.reg?_eq, Cpu.setReg?_eq, hbus.read _ hc, Cpu.address,
    Option.bind_eq_bind, Option.bind_some]
  cases Bus.read c.bus w (c.cpu.reg base + signExtend offset) with
  | error e => exact .some hc
  | ok value => exact .some hc

theorem safe_storeFrom (r : Register) (w : Width) (base : Register) (offset : Int16) :
    Safe (c.storeFrom? r w base offset) (c.storeFrom r w (c.cpu.address base offset)) fun o =>
      o.Leaves fun c => sound c.bus := by
  obtain ⟨cpu, bus⟩ := c
  simp only [storeFrom?, storeFrom, Cpu.reg?_eq, Cpu.address, Option.bind_eq_bind,
    Option.bind_some]
  refine (hbus.write _ hc w (cpu.reg base + signExtend offset) (cpu.reg r)).bind fun hnext => ?_
  cases hwrite : Bus.write bus w (cpu.reg base + signExtend offset) (cpu.reg r) with
  | fault e bus' => exact .some (by rwa [hwrite] at hnext)
  | endless => exact .some trivial
  | done u bus' => exact .some (by rwa [hwrite] at hnext)

theorem safe_execute (i : Instruction) :
    Safe (c.execute? i) (c.execute i) fun o => o.Leaves fun c => sound c.bus := by
  have hleft (x : UInt32) {n : Nat} (hn : n < 32) : shiftLeft? x n = some (x <<< .ofNat n) :=
    if_pos hn
  have hright (x : UInt32) {n : Nat} (hn : n < 32) : shiftRight? x n = some (x >>> .ofNat n) :=
    if_pos hn
  cases i with
  | lh rt base offset => exact safe_loadInto hbus hc _ _ _ _ _
  | lw rt base offset => exact safe_loadInto hbus hc _ _ _ _ _
  | lbu rt base offset => exact safe_loadInto hbus hc _ _ _ _ _
  | sb rt base offset => exact safe_storeFrom hbus hc _ _ _ _
  | sh rt base offset => exact safe_storeFrom hbus hc _ _ _ _
  | sw rt base offset => exact safe_storeFrom hbus hc _ _ _ _
  | sll rd rt shamt =>
    simp only [execute?, Cpu.reg?_eq, hleft _ shamt.isLt, assign?, Cpu.setReg?_eq,
      Option.bind_eq_bind, Option.bind_some]
    exact .some hc
  | srl rd rt shamt =>
    simp only [execute?, Cpu.reg?_eq, hright _ shamt.isLt, assign?, Cpu.setReg?_eq,
      Option.bind_eq_bind, Option.bind_some]
    exact .some hc
  | lui rt imm =>
    simp only [execute?, hleft _ (by decide : 16 < 32), assign?, Cpu.setReg?_eq,
      Option.bind_eq_bind, Option.bind_some]
    exact .some hc
  | _ =>
    simp only [execute?, Cpu.reg?_eq, assign?, Cpu.setReg?_eq, Option.bind_eq_bind,
      Option.bind_some]
    exact .some hc

theorem safe_executeNext :
    Safe c.executeNext? c.executeNext fun o => o.Leaves fun c => sound c.bus := by
  simp only [executeNext?, executeNext, hbus.read _ hc, Instruction.decode?_eq,
    Option.bind_eq_bind, Option.bind_some]
  cases Bus.read c.bus .word c.cpu.pc with
  | error e => exact .some hc
  | ok word =>
    dsimp only
    cases Instruction.decode word c.cpu.pc with
    | error e => exact .some hc
    | ok i => exact safe_execute hbus (c := ⟨{ c.cpu with pc := c.cpu.pc + 4 }, c.bus⟩) hc i

theorem safe_runChain (start : UInt32) (fuel : Nat) (target : Option UInt32) :
    Safe (runChain? start fuel target c) (runChain start fuel target c) fun o =>
      o.Leaves fun c => sound c.bus := by
  induction fuel generalizing target c with
  | zero => exact .some hc
  | succ fuel ih =>
    rw [runChain?, runChain]
    refine (safe_executeNext hbus hc).bind fun hnext => ?_
    cases hexecute : c.executeNext with
    | fault e c' => exact .some (by rwa [hexecute] at hnext)
    | endless => exact .some trivial
    | done next c' =>
      rw [hexecute] at hnext
      cases next with
      | some next => exact ih hnext _
      | none =>
        cases target with
        | none => exact .some hnext
        | some pc => exact .some hnext

theorem safe_step : Safe c.step? c.step fun o => o.Leaves fun c => sound c.bus :=
  safe_runChain hbus hc _ _ _

end Computer

end GameConsole
