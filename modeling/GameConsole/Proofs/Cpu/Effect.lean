import GameConsole.Proofs.Board.Storage
import GameConsole.Proofs.Cpu.DelaySlot
import GameConsole.Proofs.Memory.Contents

/-! Instructions in whole numbers. The effect of an instruction is given by sums, products,
quotients and comparisons of integers, on the numbers in the registers. Only what goes into a
register, to the bus or to the program counter is taken modulo `2 ^ 32`; the processor, which works
on words throughout, has the same effect. -/

namespace GameConsole

/-! ### Numbers of words -/

/-- The number with a sign that `n` stands for in two's complement. -/
def twosComplement (bits n : Nat) : Int := if n < 2 ^ (bits - 1) then n else n - 2 ^ bits

theorem toNat_ofInt (n : Int) : ((UInt32.ofInt n).toNat : Int) = n % 2 ^ 32 := by
  simp only [UInt32.ofInt, UInt32.toNat_ofNat']
  omega

theorem eq_ofInt_iff {w : UInt32} {n : Int} : w = .ofInt n ↔ (w.toNat : Int) = n % 2 ^ 32 := by
  rw [← toNat_ofInt, Int.ofNat_inj, UInt32.toNat_inj]

theorem eq_ofInt_toNat (w : UInt32) : w = .ofInt w.toNat :=
  eq_ofInt_iff.2 (Int.emod_eq_of_lt (by omega) (by have := w.toNat_lt; omega)).symm

theorem eq_ofInt_of_toNat {w : UInt32} {n : Nat} (h : w.toNat = n) : w = .ofInt n :=
  h ▸ eq_ofInt_toNat w

/-- The word with the bits of a signed number is that number modulo `2 ^ 32`. -/
theorem toNat_toUInt32 (x : Int32) : (x.toUInt32.toNat : Int) = x.toInt % 2 ^ 32 := by
  have hvalue := x.toBitVec.toInt_eq_toNat_cond
  have hlt := x.toBitVec.isLt
  change (x.toBitVec.toNat : Int) = x.toBitVec.toInt % 2 ^ 32
  split at hvalue <;> omega

theorem toNat_signExtend (h : Int16) : ((signExtend h).toNat : Int) = h.toInt % 2 ^ 32 := by
  rw [signExtend, toNat_toUInt32, Int16.toInt_toInt32]

theorem toInt_eq_twosComplement {n : Nat} (x : BitVec n) : x.toInt = twosComplement n x.toNat := by
  rw [x.toInt_eq_toNat_cond, twosComplement, Nat.cast_pow]
  refine if_congr ?_ rfl rfl
  cases n with
  | zero => simp
  | succ n =>
    rw [Nat.pow_succ, Nat.add_sub_cancel]
    omega

theorem signedValue_eq (w : UInt32) : signedValue w = twosComplement 32 w.toNat :=
  toInt_eq_twosComplement w.toBitVec

/-- A halfword in a word, with its sign. -/
theorem toInt_half {v : UInt32} (h : v.toNat < 2 ^ 16) :
    v.toUInt16.toInt16.toInt = twosComplement 16 v.toNat := by
  have hsame : v.toUInt16.toNat = v.toNat := by
    rw [UInt32.toNat_toUInt16]
    exact Nat.mod_eq_of_lt h
  rw [← hsame]
  exact toInt_eq_twosComplement v.toUInt16.toBitVec

theorem and_shiftLeft (n m k : Nat) : n &&& m <<< k = (n >>> k &&& m) <<< k := by
  apply Nat.eq_of_testBit_eq
  intro i
  by_cases hi : k ≤ i <;> simp [hi]

/-- The mask leaves the top four bits of a word. -/
theorem toNat_and_top (w : UInt32) : (w &&& 0xF0000000).toNat = w.toNat / 2 ^ 28 * 2 ^ 28 := by
  have hmask : (0xF0000000 : UInt32).toNat = (2 ^ 4 - 1) <<< 28 := rfl
  have hlt := w.toNat_lt
  rw [UInt32.toNat_and, hmask, and_shiftLeft, Nat.and_two_pow_sub_one_eq_mod, Nat.shiftLeft_eq,
    Nat.shiftRight_eq_div_pow]
  omega

theorem toNat_add_four (w : UInt32) : (w + 4).toNat = (w.toNat + 4) % 2 ^ 32 := UInt32.toNat_add _ _

/-! ### Effects -/

/-- What an instruction does, in whole numbers. -/
inductive Effect
  | assign (r : Register) (value : Int)
  /-- Puts what the bus answers at an address into a register, through `extend`. -/
  | load (r : Register) (w : Width) (addr : Int) (extend : Nat → Int)
  | store (w : Width) (addr : Int) (value : Nat)
  /-- Transfers control exactly if `taken` holds. -/
  | transfer (taken : Prop) (target : Int)
  /-- Transfers control and puts a number into a register. -/
  | link (r : Register) (value target : Int)

namespace Instruction

/-- The address that a jump at `pc` goes to: the top four bits are those of the address behind it,
and the others are the low 28 bits of `4 * target`. -/
def jumpAddress (pc target : Nat) : Nat := (pc + 4) % 2 ^ 32 / 2 ^ 28 * 2 ^ 28 + 4 * target % 2 ^ 28

/-- The effect of an instruction at `pc`, where the registers hold the numbers `reg`. -/
def effect (reg : Register → Nat) (pc : Nat) : Instruction → Effect
  | sll rd rt shamt => .assign rd (reg rt * 2 ^ shamt.val : Nat)
  | srl rd rt shamt => .assign rd (reg rt / 2 ^ shamt.val : Nat)
  | jr rs => .transfer True (reg rs)
  | and rd rs rt => .assign rd (reg rs &&& reg rt : Nat)
  | or rd rs rt => .assign rd (reg rs ||| reg rt : Nat)
  | j target => .transfer True (jumpAddress pc target)
  | jal target => .link .ra (pc + 8) (jumpAddress pc target)
  | beq rs rt offset => .transfer (reg rs = reg rt) (pc + 4 + 4 * offset.toInt)
  | bne rs rt offset => .transfer (reg rs ≠ reg rt) (pc + 4 + 4 * offset.toInt)
  | bgtz rs offset => .transfer (0 < twosComplement 32 (reg rs)) (pc + 4 + 4 * offset.toInt)
  | addiu rt rs imm => .assign rt (reg rs + imm.toInt)
  | slti rt rs imm => .assign rt (if twosComplement 32 (reg rs) < imm.toInt then 1 else 0)
  | andi rt rs imm => .assign rt (reg rs &&& imm.toNat : Nat)
  | ori rt rs imm => .assign rt (reg rs ||| imm.toNat : Nat)
  | lui rt imm => .assign rt (imm.toNat * 2 ^ 16)
  | lh rt base offset => .load rt .half (reg base + offset.toInt) (twosComplement 16)
  | lw rt base offset => .load rt .word (reg base + offset.toInt) (↑)
  | lbu rt base offset => .load rt .byte (reg base + offset.toInt) (↑)
  | sb rt base offset => .store .byte (reg base + offset.toInt) (reg rt)
  | sh rt base offset => .store .half (reg base + offset.toInt) (reg rt)
  | sw rt base offset => .store .word (reg base + offset.toInt) (reg rt)

end Instruction

variable {β : Type} [Bus β]

/-- `c'` is `c` with a number put into a register. The zero register discards it. -/
def Cpu.Assigned (c c' : Cpu) (r : Register) (value : Int) : Prop :=
  c'.pc = c.pc ∧ ∀ s, ((c'.reg s).toNat : Int) =
    if r = s ∧ r ≠ .zero then value % 2 ^ 32 else ((c.reg s).toNat : Int)

/-- An instruction begun in `c` has the effect, and no other. -/
def Effect.Holds (c : Computer β) (o : Outcome (Computer β) (Option UInt32)) : Effect → Prop
  | assign r value => ∃ cpu, c.cpu.Assigned cpu r value ∧ o = .done none ⟨cpu, c.bus⟩
  | load r w addr extend =>
    match Bus.read c.bus w (.ofInt addr) with
    | .error cause => o = .fault cause c
    | .ok v => ∃ cpu, c.cpu.Assigned cpu r (extend v.toNat) ∧ o = .done none ⟨cpu, c.bus⟩
  | store w addr value =>
    match Bus.write c.bus w (.ofInt addr) (.ofInt value) with
    | .fault cause bus => o = .fault cause ⟨c.cpu, bus⟩
    | .endless => o = .endless
    | .done _ bus => o = .done none ⟨c.cpu, bus⟩
  | transfer taken target =>
    (taken → o = .done (some (.ofInt target)) c) ∧ (¬taken → o = .done none c)
  | link r value target =>
    ∃ cpu, c.cpu.Assigned cpu r value ∧ o = .done (some (.ofInt target)) ⟨cpu, c.bus⟩

/-- A bus on which reading gives values of the width that is asked for. -/
def Bus.Fits (b : β) : Prop := ∀ w addr v, Bus.read b w addr = .ok v → v.toNat < 2 ^ w.bits

/-- The main board gives values of the width that is asked for. -/
theorem Board.fits {ρ : Type} [Renderer ρ] (b : Board ρ) : Bus.Fits b := by
  intro w addr v h
  change b.read w addr = .ok v at h
  unfold read at h
  split at h
  iterate 3
    cases h
    exact Region.toNat_load_lt _ _ _
  · split at h
    · rename_i hw
      exact hw ▸ v.toNat_lt
    · cases h
  · cases h

namespace Cpu

/-! ### The words that the processor makes -/

theorem assigned_setReg (c : Cpu) (r : Register) {w : UInt32} {value : Int} (h : w = .ofInt value) :
    c.Assigned (c.setReg r w) r value := by
  refine ⟨pc_setReg _ _ _, fun s => ?_⟩
  rw [reg_setReg, h, ← toNat_ofInt]
  split <;> rfl

theorem address_eq (c : Cpu) (base : Register) (offset : Int16) :
    c.address base offset = .ofInt ((c.reg base).toNat + offset.toInt) := by
  rw [eq_ofInt_iff, address, UInt32.toNat_add]
  have hoffset := toNat_signExtend offset
  omega

variable {c : Cpu} {pc : UInt32} (hpc : c.pc = pc + 4)

include hpc

theorem branchTarget_eq (offset : Int16) :
    c.branchTarget offset = .ofInt (pc.toNat + 4 + 4 * offset.toInt) := by
  rw [eq_ofInt_iff, branchTarget, hpc]
  have hoffset := toNat_signExtend offset
  have hshift : (signExtend offset <<< 2).toNat = (signExtend offset).toNat * 4 % 2 ^ 32 := by
    rw [UInt32.toNat_shiftLeft, Nat.shiftLeft_eq]
    rfl
  rw [UInt32.toNat_add, hshift, toNat_add_four]
  omega

theorem jumpTarget_eq (target : Fin 0x4000000) :
    c.jumpTarget target = .ofInt (Instruction.jumpAddress pc.toNat target) := by
  have hlow : (UInt32.ofNat (target.val * 4)).toNat = 4 * target.val % 2 ^ 28 := by
    rw [UInt32.toNat_ofNat']
    omega
  have hbelow : 4 * target.val % 2 ^ 28 < 2 ^ 28 := Nat.mod_lt _ (by decide)
  rw [eq_ofInt_iff, jumpTarget, hpc, UInt32.toNat_or, toNat_and_top, hlow, toNat_add_four,
    ← Nat.shiftLeft_eq, ← Nat.shiftLeft_add_eq_or_of_lt hbelow, Nat.shiftLeft_eq,
    Instruction.jumpAddress]
  omega

end Cpu

namespace Computer

variable {c : Computer β}

theorem holds_assign (r : Register) {w : UInt32} {value : Int} (h : w = .ofInt value) :
    (Effect.assign r value).Holds c (c.assign r w) :=
  ⟨_, c.cpu.assigned_setReg r h, rfl⟩

theorem holds_loadInto (r : Register) (w : Width) {a : UInt32} {addr : Int} {f : UInt32 → UInt32}
    {extend : Nat → Int} (ha : a = .ofInt addr)
    (hf : ∀ v, Bus.read c.bus w a = .ok v → f v = .ofInt (extend v.toNat)) :
    (Effect.load r w addr extend).Holds c (c.loadInto r w a f) := by
  subst ha
  simp only [Effect.Holds, loadInto]
  cases hread : Bus.read c.bus w (.ofInt addr) with
  | error cause => rfl
  | ok v => exact ⟨_, c.cpu.assigned_setReg r (hf v hread), rfl⟩

theorem holds_storeFrom (r : Register) (w : Width) {a : UInt32} {addr : Int}
    (ha : a = .ofInt addr) :
    (Effect.store w addr (c.cpu.reg r).toNat).Holds c (c.storeFrom r w a) := by
  subst ha
  simp only [Effect.Holds, storeFrom, ← eq_ofInt_toNat]
  cases Bus.write c.bus w (.ofInt addr) (c.cpu.reg r) <;> rfl

theorem holds_branch {taken : Bool} {p : Prop} {offset : Int16} {target : Int}
    (htaken : taken = true ↔ p) (htarget : c.cpu.branchTarget offset = .ofInt target) :
    (Effect.transfer p target).Holds c (c.branch taken offset) := by
  refine ⟨fun hp => ?_, fun hp => ?_⟩
  · rw [branch, if_pos (htaken.2 hp), htarget]
  · rw [branch, if_neg fun h => hp (htaken.1 h)]

theorem holds_jump {w : UInt32} {target : Int} (h : w = .ofInt target) :
    (Effect.transfer True target).Holds c (.done (some w) c) :=
  ⟨fun _ => by rw [h], fun hfalse => absurd trivial hfalse⟩

/-- Each instruction has its effect. -/
theorem holds_execute {pc : UInt32} (hpc : c.cpu.pc = pc + 4) (hfits : Bus.Fits c.bus)
    (i : Instruction) :
    (i.effect (fun r => (c.cpu.reg r).toNat) pc.toNat).Holds c (c.execute i) := by
  have hshamt (shamt : Fin 32) : (UInt32.ofNat shamt.val).toNat % 32 = shamt.val := by
    rw [UInt32.toNat_ofNat']
    omega
  cases i with
  | sll rd rt shamt =>
    refine holds_assign _ (eq_ofInt_iff.2 ?_)
    rw [UInt32.toNat_shiftLeft, Nat.shiftLeft_eq, hshamt shamt]
    exact Int.natCast_emod _ _
  | srl rd rt shamt =>
    refine holds_assign _ (eq_ofInt_of_toNat ?_)
    rw [UInt32.toNat_shiftRight, Nat.shiftRight_eq_div_pow, hshamt]
  | jr rs => exact holds_jump (eq_ofInt_toNat _)
  | and rd rs rt => exact holds_assign _ (eq_ofInt_of_toNat (UInt32.toNat_and _ _))
  | or rd rs rt => exact holds_assign _ (eq_ofInt_of_toNat (UInt32.toNat_or _ _))
  | j target => exact holds_jump (Cpu.jumpTarget_eq hpc target)
  | jal target =>
    refine ⟨_, c.cpu.assigned_setReg .ra ?_, by rw [← Cpu.jumpTarget_eq hpc target]; rfl⟩
    rw [eq_ofInt_iff, hpc, toNat_add_four, toNat_add_four]
    omega
  | beq rs rt offset =>
    exact holds_branch (by simp [UInt32.toNat_inj]) (Cpu.branchTarget_eq hpc offset)
  | bne rs rt offset =>
    exact holds_branch (by simp [UInt32.toNat_inj]) (Cpu.branchTarget_eq hpc offset)
  | bgtz rs offset =>
    exact holds_branch (by simp [signedValue_eq]) (Cpu.branchTarget_eq hpc offset)
  | addiu rt rs imm => exact holds_assign _ (Cpu.address_eq _ _ _)
  | slti rt rs imm =>
    refine holds_assign _ ?_
    rw [signedValue_eq]
    split <;> rfl
  | andi rt rs imm =>
    refine holds_assign _ (eq_ofInt_of_toNat ?_)
    rw [UInt32.toNat_and, UInt16.toNat_toUInt32]
  | ori rt rs imm =>
    refine holds_assign _ (eq_ofInt_of_toNat ?_)
    rw [UInt32.toNat_or, UInt16.toNat_toUInt32]
  | lui rt imm =>
    refine holds_assign _ (eq_ofInt_iff.2 ?_)
    rw [UInt32.toNat_shiftLeft, Nat.shiftLeft_eq, UInt16.toNat_toUInt32]
    exact Int.natCast_emod _ _
  | lh rt base offset =>
    refine holds_loadInto _ _ (Cpu.address_eq _ _ _) fun v hread => ?_
    rw [eq_ofInt_iff, toNat_signExtend, toInt_half (hfits _ _ _ hread)]
  | lw rt base offset | lbu rt base offset =>
    exact holds_loadInto _ _ (Cpu.address_eq _ _ _) fun v _ => eq_ofInt_toNat v
  | sb rt base offset | sh rt base offset | sw rt base offset =>
    exact holds_storeFrom _ _ (Cpu.address_eq _ _ _)

/-- An instruction that has been fetched and decoded has its effect, with the program counter behind
its word. -/
theorem executeNext_holds (hfits : Bus.Fits c.bus) {word : UInt32} {i : Instruction}
    (hread : Bus.read c.bus .word c.cpu.pc = .ok word)
    (hdecode : Instruction.decode word c.cpu.pc = .ok i) :
    (i.effect (fun r => (c.cpu.reg r).toNat) c.cpu.pc.toNat).Holds
      (c.retarget (c.cpu.pc + 4)) c.executeNext := by
  have hexecute : c.executeNext = (c.retarget (c.cpu.pc + 4)).execute i := by
    simp only [executeNext, hread, hdecode]
    rfl
  have hpc : (c.retarget (c.cpu.pc + 4)).cpu.pc = c.cpu.pc + 4 := rfl
  rw [hexecute]
  exact holds_execute hpc hfits i

/-- A halfword with a sign that the machine loads, from the upper half of the word of the very
instruction. -/
theorem executeNext_holds_lh :
    let memory : Memory := { Memory.zeroed with ram := .ofBytes 21 ⟨#[0x02, 0x00, 0x02, 0x84]⟩ }
    let c : Computer (Board Recorder) :=
      ⟨{ Cpu.initial with pc := 0 }, { Board.new {} with memory }⟩
    Bus.Fits c.bus ∧ Bus.read c.bus .word 0 = .ok 0x84020002 ∧
      Instruction.decode 0x84020002 0 = .ok (.lh .v0 .zero 2) ∧
      ∃ cpu, (c.retarget 4).cpu.Assigned cpu .v0 (0x8402 - 2 ^ 16) ∧
        c.executeNext = .done none ⟨cpu, c.bus⟩ := by
  intro memory c
  have hstored {w : Width} {addr : UInt32} (hram : Storage.ofAddress? addr = some .ram)
      (haddr : Storage.ram.index addr < 4) : Bus.read c.bus w addr =
        .ok (Bytes.assemble ((w.unit (Storage.ram.index addr)).map
          (Bytes.byteAt ⟨#[0x02, 0x00, 0x02, 0x84]⟩))) := by
    have hbytes : (w.unit (Storage.ram.index addr)).map (c.bus.byte .ram) =
        (w.unit (Storage.ram.index addr)).map (Bytes.byteAt ⟨#[0x02, 0x00, 0x02, 0x84]⟩) := by
      refine List.map_congr_left fun i hi => Region.byteAt_ofBytes _ ?_
      have hlt : i < 4 * 1 := Width.lt_of_mem_unit hi haddr
      exact lt_trans hlt (by decide)
    rw [← hbytes]
    exact c.bus.read_storage w hram
  have hread : Bus.read c.bus .word 0 = .ok 0x84020002 :=
    (hstored (by decide) (by decide)).trans (by decide)
  have hhalf : Bus.read (c.retarget 4).bus .half (.ofInt 2) = .ok 0x8402 :=
    (hstored (by decide) (by decide)).trans (by decide)
  have hdecode : Instruction.decode 0x84020002 0 = .ok (.lh .v0 .zero 2) := by decide
  have heffect : (Instruction.lh .v0 .zero 2).effect (fun r => (c.cpu.reg r).toNat) 0 =
      .load .v0 .half 2 (twosComplement 16) := by
    have haddr : ((c.cpu.reg .zero).toNat : Int) + (2 : Int16).toInt = 2 := by decide
    rw [Instruction.effect, haddr]
  have hholds := executeNext_holds c.bus.fits hread hdecode
  change (Instruction.effect _ 0 _).Holds (c.retarget 4) _ at hholds
  rw [heffect, Effect.Holds, hhalf] at hholds
  exact ⟨c.bus.fits, hread, hdecode, hholds⟩

end Computer

end GameConsole
