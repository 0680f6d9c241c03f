import GameConsole.Cpu

/-! Delay slots by recursion. An instruction that takes a transfer of control runs one more such
step for its delay slot, and only if that succeeds the program counter is set to the target. The
recursion need not end, so it is a relation: `Nested c n o` says that from `c` on `n` transfers are
taken inside each other before the recursion comes back with `o`. A step keeps the first target
aside instead and gives up after `maxDelayChain` instructions. The two agree whenever fewer
transfers are nested, and a step gives up exactly when that many instructions in a row all transfer
control. -/

namespace GameConsole.Computer

variable {β : Type} [Bus β]

/-- The same machine with its program counter at a target. -/
def retarget (c : Computer β) (pc : UInt32) : Computer β := { c with cpu := { c.cpu with pc } }

/-- The recursive step. The count is the number of transfers taken inside each other. -/
inductive Nested : Computer β → Nat → Outcome (Computer β) Unit → Prop
  | fault {c c' e} (h : c.executeNext = .fault e c') : Nested c 0 (.fault e c')
  | endless {c} (h : c.executeNext = .endless) : Nested c 0 .endless
  | plain {c c'} (h : c.executeNext = .done none c') : Nested c 0 (.done () c')
  | transfer {c c' target n o} (h : c.executeNext = .done (some target) c') (slot : Nested c' n o) :
      Nested c (n + 1) (o.andThen fun _ c => .done () (c.retarget target))

/-- A number of instructions in a row that all transfer control, run as delay slots are. -/
inductive Transfers : Nat → Computer β → Computer β → Prop
  | none (c) : Transfers 0 c c
  | next {c c' c'' target n} (h : c.executeNext = .done (some target) c')
      (rest : Transfers n c' c'') : Transfers (n + 1) c c''

/-- The target that a chain keeps is the outermost one, and takes effect only after success. -/
theorem runChain_of_nested {c : Computer β} {n : Nat} {o : Outcome (Computer β) Unit}
    (h : Nested c n o) (start : UInt32) {fuel : Nat} (hn : n < fuel) (target : Option UInt32) :
    runChain start fuel target c = o.andThen fun _ c => .done () (target.elim c c.retarget) := by
  induction h generalizing fuel target with
  | fault h =>
    obtain ⟨fuel, rfl⟩ := Nat.exists_eq_add_of_lt hn
    simp [runChain, h]
  | endless h =>
    obtain ⟨fuel, rfl⟩ := Nat.exists_eq_add_of_lt hn
    simp [runChain, h]
  | plain h =>
    obtain ⟨fuel, rfl⟩ := Nat.exists_eq_add_of_lt hn
    cases target <;> simp [runChain, h, retarget]
  | @transfer c c' next n o h slot ih =>
    obtain ⟨fuel, rfl⟩ : ∃ k, fuel = k + 1 := ⟨fuel - 1, by omega⟩
    have hchain : runChain start (fuel + 1) target c =
        runChain start fuel (some (target.getD next)) c' := by simp [runChain, h]
    rw [hchain, ih (by omega), Outcome.andThen_assoc]
    cases target <;> rfl

theorem runChain_of_transfers {fuel : Nat} {c c' : Computer β} (h : Transfers fuel c c')
    (start : UInt32) (target : Option UInt32) :
    runChain start fuel target c = .fault (.runawayDelaySlots start) c' := by
  induction h generalizing target with
  | none c => rfl
  | next h rest ih => simp [runChain, h, ih]

/-- Either the recursion comes back from fewer transfers, or that many are taken. -/
theorem nested_or_transfers (fuel : Nat) (c : Computer β) :
    (∃ n < fuel, ∃ o, Nested c n o) ∨ ∃ c', Transfers fuel c c' := by
  induction fuel generalizing c with
  | zero => exact .inr ⟨c, .none c⟩
  | succ fuel ih =>
    cases h : c.executeNext with
    | fault e c' => exact .inl ⟨0, by omega, _, .fault h⟩
    | endless => exact .inl ⟨0, by omega, _, .endless h⟩
    | done target c' =>
      cases target with
      | none => exact .inl ⟨0, by omega, _, .plain h⟩
      | some target =>
        rcases ih c' with ⟨n, hn, o, slot⟩ | ⟨c'', rest⟩
        · exact .inl ⟨n + 1, by omega, _, .transfer h slot⟩
        · exact .inr ⟨c'', .next h rest⟩

theorem step_of_nested {c : Computer β} {n : Nat} {o : Outcome (Computer β) Unit}
    (h : Nested c n o) (hn : n < maxDelayChain) : c.step = o := by
  rw [step, runChain_of_nested h _ hn]
  cases o <;> rfl

/-- A step with an instruction that transfers no control. -/
theorem step_of_plain {c c' : Computer β} {word : UInt32} {i : Instruction}
    (hread : Bus.read c.bus .word c.cpu.pc = .ok word)
    (hdecode : Instruction.decode word c.cpu.pc = .ok i)
    (hplain : (c.retarget (c.cpu.pc + 4)).execute i = .done none c') : c.step = .done () c' := by
  have hnext : c.executeNext = .done none c' := by
    simp only [executeNext, hread, hdecode]
    exact hplain
  exact step_of_nested (.plain hnext) (by decide)

theorem step_of_transfers {c c' : Computer β} (h : Transfers maxDelayChain c c') :
    c.step = .fault (.runawayDelaySlots c.cpu.pc) c' :=
  runChain_of_transfers h _ none

/-- A step has the outcome of the recursion, or gives up if `maxDelayChain` transfers are nested. -/
theorem step_eq_iff (c : Computer β) (o : Outcome (Computer β) Unit) :
    c.step = o ↔ (∃ n < maxDelayChain, Nested c n o) ∨
      ∃ c', Transfers maxDelayChain c c' ∧ o = .fault (.runawayDelaySlots c.cpu.pc) c' := by
  constructor
  · rintro rfl
    rcases nested_or_transfers maxDelayChain c with ⟨n, hn, o, h⟩ | ⟨c', h⟩
    · rw [step_of_nested h hn]
      exact .inl ⟨n, hn, h⟩
    · exact .inr ⟨c', h, step_of_transfers h⟩
  · rintro (⟨n, hn, h⟩ | ⟨c', h, rfl⟩)
    · exact step_of_nested h hn
    · exact step_of_transfers h

end GameConsole.Computer
