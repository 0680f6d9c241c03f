import GameConsole.Proofs.Cpu.DelaySlot

/-! Properties that the processor cannot break. An instruction writes a register or the bus, and
moves the program counter; a property that each of these keeps is kept by a whole step, also by one
that fails on its way. -/

namespace GameConsole.Computer

variable {β : Type} [Bus β]

/-- Nothing that an instruction does breaks this property. -/
structure Stable (P : Computer β → Prop) : Prop where
  pc : ∀ c pc, P c → P (c.retarget pc)
  setReg : ∀ c r value, P c → P { c with cpu := c.cpu.setReg r value }
  write : ∀ c w addr value, P c → (Bus.write c.bus w addr value).Leaves fun bus => P { c with bus }

variable {P : Computer β → Prop} (h : Stable P) {c : Computer β}

include h

theorem Stable.loadInto (hc : P c) (r : Register) (w : Width) (addr : UInt32)
    (f : UInt32 → UInt32) : (c.loadInto r w addr f).Leaves P := by
  unfold Computer.loadInto
  cases Bus.read c.bus w addr with
  | error e => exact hc
  | ok value => exact h.setReg c r (f value) hc

theorem Stable.storeFrom (hc : P c) (r : Register) (w : Width) (addr : UInt32) :
    (c.storeFrom r w addr).Leaves P := by
  have hwrite := h.write c w addr (c.cpu.reg r) hc
  unfold Computer.storeFrom
  cases hend : Bus.write c.bus w addr (c.cpu.reg r) with
  | fault e bus =>
    rw [hend] at hwrite
    simp only [hend]
    exact hwrite
  | endless =>
    simp only [hend]
    trivial
  | done u bus =>
    rw [hend] at hwrite
    simp only [hend]
    exact hwrite

/-- One case for each effect that an instruction may have. -/
theorem Stable.execute (hc : P c) (i : Instruction) : (c.execute i).Leaves P := by
  cases i with
  | jr rs => exact hc
  | j target => exact hc
  | jal target => exact h.setReg c .ra _ hc
  | beq rs rt offset => exact hc
  | bne rs rt offset => exact hc
  | bgtz rs offset => exact hc
  | lh rt base offset => exact h.loadInto hc _ _ _ _
  | lw rt base offset => exact h.loadInto hc _ _ _ _
  | lbu rt base offset => exact h.loadInto hc _ _ _ _
  | sb rt base offset => exact h.storeFrom hc _ _ _
  | sh rt base offset => exact h.storeFrom hc _ _ _
  | sw rt base offset => exact h.storeFrom hc _ _ _
  | sll | srl | and | or | addiu | slti | andi | ori | lui => exact h.setReg c _ _ hc

theorem Stable.executeNext (hc : P c) : c.executeNext.Leaves P := by
  have hnext := h.pc c (c.cpu.pc + 4) hc
  simp only [Computer.executeNext]
  cases Bus.read c.bus .word c.cpu.pc with
  | error e => exact hc
  | ok word =>
    dsimp only
    cases Instruction.decode word c.cpu.pc with
    | error e => exact hnext
    | ok i => exact h.execute hnext i

/-- The induction is on the instructions that the chain may still run. -/
theorem Stable.runChain (hc : P c) (start : UInt32) (fuel : Nat) (target : Option UInt32) :
    (runChain start fuel target c).Leaves P := by
  induction fuel generalizing c target with
  | zero => exact hc
  | succ fuel ih =>
    have hnext := h.executeNext hc
    rw [Computer.runChain]
    cases hend : c.executeNext with
    | fault e c' =>
      rw [hend] at hnext
      exact hnext
    | endless => trivial
    | done next c' =>
      rw [hend] at hnext
      cases next with
      | some next => exact ih hnext _
      | none =>
        cases target with
        | none => exact hnext
        | some pc => exact h.pc c' pc hnext

theorem Stable.step (hc : P c) : c.step.Leaves P := h.runChain hc _ _ _

end GameConsole.Computer
