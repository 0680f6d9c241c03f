import GameConsole.Cpu.Instruction
import GameConsole.Executable
import GameConsole.Memory.Region
import GameConsole.Outcome

/-! The processor: 32 registers, a program counter, and one step of execution over any bus. A
step runs one instruction and, if that transfers control, the instructions in its delay slots;
the target takes effect after them. -/

namespace GameConsole

/-- What the processor needs of the rest of the console. Reading changes nothing. -/
class Bus (β : Type) where
  read : β → Width → UInt32 → Except Fault UInt32
  write : β → Width → UInt32 → UInt32 → Outcome β Unit

/-- A lone region answers at every address. -/
instance {lines : Nat} : Bus (Region lines) where
  read r w addr := .ok (r.load w addr)
  write r w addr value := .done () (r.store w addr value)

structure Cpu where
  regs : Vector UInt32 32
  pc : UInt32

namespace Cpu

/-- Where execution begins in the boot ROM. -/
def resetVector : UInt32 := 0xBFC00000

def initial : Cpu := ⟨.replicate 32 0, resetVector⟩

def reg (c : Cpu) (r : Register) : UInt32 := c.regs.get r.index

/-- Writes a register. The zero register stays zero. -/
def setReg (c : Cpu) (r : Register) (value : UInt32) : Cpu :=
  if r = .zero then c else { c with regs := c.regs.set r.index value }

@[simp] theorem pc_setReg (c : Cpu) (r : Register) (value : UInt32) :
    (c.setReg r value).pc = c.pc := by
  unfold setReg
  split <;> rfl

theorem reg_setReg (c : Cpu) (r s : Register) (value : UInt32) :
    (c.setReg r value).reg s = if r = s ∧ r ≠ .zero then value else c.reg s := by
  unfold setReg
  split
  · simp_all
  · have get (regs : Vector UInt32 32) : regs.get s.index = regs[s.index.val] := rfl
    have same : r.index.val = s.index.val ↔ r = s := by
      rw [← Fin.ext_iff]
      exact ⟨fun h => by cases r; cases s; simpa using h, fun h => h ▸ rfl⟩
    simp [reg, Vector.getElem_set, *]

/-- Enters an executable. -/
def bootstrap (c : Cpu) (h : Executable.Header) : Cpu :=
  { (c.setReg .gp h.gp).setReg .sp h.sp with pc := h.pc }

/-- The target of a jump: the program counter with its low 28 bits replaced. -/
def jumpTarget (c : Cpu) (target : Fin 0x4000000) : UInt32 :=
  (c.pc &&& 0xF0000000) ||| UInt32.ofNat (target.val * 4)

def branchTarget (c : Cpu) (offset : Int16) : UInt32 := c.pc + (signExtend offset <<< 2)

def address (c : Cpu) (base : Register) (offset : Int16) : UInt32 :=
  c.reg base + signExtend offset

end Cpu

/-- A processor on a bus. -/
structure Computer (β : Type) where
  cpu : Cpu
  bus : β

namespace Computer

variable {β : Type} [Bus β]

/-- Puts what the bus answers through `f` into a register. -/
@[specialize]
def loadInto (c : Computer β) (r : Register) (w : Width) (addr : UInt32)
    (f : UInt32 → UInt32) : Outcome (Computer β) (Option UInt32) :=
  match Bus.read c.bus w addr with
  | .error e => .fault e c
  | .ok value =>
    let ⟨cpu, bus⟩ := c
    .done none ⟨cpu.setReg r (f value), bus⟩

@[specialize]
def storeFrom (c : Computer β) (r : Register) (w : Width) (addr : UInt32) :
    Outcome (Computer β) (Option UInt32) :=
  let ⟨cpu, bus⟩ := c
  match Bus.write bus w addr (cpu.reg r) with
  | .fault e bus => .fault e ⟨cpu, bus⟩
  | .endless => .endless
  | .done _ bus => .done none ⟨cpu, bus⟩

/-- Writes a register and goes on with the next instruction. -/
@[inline]
def assign (c : Computer β) (r : Register) (value : UInt32) :
    Outcome (Computer β) (Option UInt32) :=
  let ⟨cpu, bus⟩ := c
  .done none ⟨cpu.setReg r value, bus⟩

/-- Transfers control if `taken` holds. -/
@[inline]
def branch (c : Computer β) (taken : Bool) (offset : Int16) :
    Outcome (Computer β) (Option UInt32) :=
  .done (if taken then some (c.cpu.branchTarget offset) else none) c

/-- Runs one instruction, with the program counter already behind it. The answer is the target of
the transfer that it takes, if it takes one. -/
@[specialize]
def execute (c : Computer β) : Instruction → Outcome (Computer β) (Option UInt32)
  | .sll rd rt shamt => c.assign rd (c.cpu.reg rt <<< UInt32.ofNat shamt.val)
  | .srl rd rt shamt => c.assign rd (c.cpu.reg rt >>> UInt32.ofNat shamt.val)
  | .jr rs => .done (some (c.cpu.reg rs)) c
  | .and rd rs rt => c.assign rd (c.cpu.reg rs &&& c.cpu.reg rt)
  | .or rd rs rt => c.assign rd (c.cpu.reg rs ||| c.cpu.reg rt)
  | .j target => .done (some (c.cpu.jumpTarget target)) c
  | .jal target =>
    let next := c.cpu.jumpTarget target
    let ⟨cpu, bus⟩ := c
    .done (some next) ⟨cpu.setReg .ra (cpu.pc + 4), bus⟩
  | .beq rs rt offset => c.branch (c.cpu.reg rs == c.cpu.reg rt) offset
  | .bne rs rt offset => c.branch (c.cpu.reg rs != c.cpu.reg rt) offset
  | .bgtz rs offset => c.branch (0 < signedValue (c.cpu.reg rs)) offset
  | .addiu rt rs imm => c.assign rt (c.cpu.reg rs + signExtend imm)
  | .slti rt rs imm => c.assign rt (if signedValue (c.cpu.reg rs) < imm.toInt then 1 else 0)
  | .andi rt rs imm => c.assign rt (c.cpu.reg rs &&& imm.toUInt32)
  | .ori rt rs imm => c.assign rt (c.cpu.reg rs ||| imm.toUInt32)
  | .lui rt imm => c.assign rt (imm.toUInt32 <<< 16)
  | .lh rt base offset =>
    c.loadInto rt .half (c.cpu.address base offset) fun v => signExtend v.toUInt16.toInt16
  | .lw rt base offset => c.loadInto rt .word (c.cpu.address base offset) id
  | .lbu rt base offset => c.loadInto rt .byte (c.cpu.address base offset) id
  | .sb rt base offset => c.storeFrom rt .byte (c.cpu.address base offset)
  | .sh rt base offset => c.storeFrom rt .half (c.cpu.address base offset)
  | .sw rt base offset => c.storeFrom rt .word (c.cpu.address base offset)

/-- Fetches, decodes and executes. The program counter moves on before the word is decoded. -/
@[specialize]
def executeNext (c : Computer β) : Outcome (Computer β) (Option UInt32) :=
  let pc := c.cpu.pc
  match Bus.read c.bus .word pc with
  | .error e => .fault e c
  | .ok word =>
    let ⟨cpu, bus⟩ := c
    let next : Computer β := ⟨{ cpu with pc := pc + 4 }, bus⟩
    match Instruction.decode word pc with
    | .error e => .fault e next
    | .ok instruction => next.execute instruction

/-- The most instructions that one step may run: as many as RAM has words. -/
def maxDelayChain : Nat := 0x80000

/-- Runs the instructions of one step. The first target is kept, and the chain ends with the first
instruction that transfers no control. -/
@[specialize]
def runChain (start : UInt32) : Nat → Option UInt32 → Computer β → Outcome (Computer β) Unit
  | 0, _, c => .fault (.runawayDelaySlots start) c
  | fuel + 1, target, c =>
    match c.executeNext with
    | .fault e c => .fault e c
    | .endless => .endless
    | .done (some next) c => runChain start fuel (some (target.getD next)) c
    | .done none c =>
      match target with
      | none => .done () c
      | some pc =>
        let ⟨cpu, bus⟩ := c
        .done () ⟨{ cpu with pc := pc }, bus⟩

/-- One step of execution. -/
@[specialize]
def step (c : Computer β) : Outcome (Computer β) Unit :=
  runChain c.cpu.pc maxDelayChain none c

/-- Takes `n` steps, or as many as there are before the first fault. -/
@[specialize]
def run (c : Computer β) : Nat → Outcome (Computer β) Unit
  | 0 => .done () c
  | n + 1 => c.step.andThen fun _ c => c.run n

end Computer

end GameConsole
