import GameConsole.Proofs.Cpu.Dialogue
import GameConsole.Proofs.Cpu.DelaySlot
import GameConsole.Proofs.Memory.Words

/-! What a step may touch. Before its last instruction a step runs nothing but transfers of control,
and these neither load nor store, and write no register but the one for the return address. So a
step fetches words that follow each other in the address space, ends with at most one other access,
and leaves all registers but that one and the destination of its last instruction. -/

namespace GameConsole

namespace Instruction

/-- Whether the instruction may transfer control. -/
def transfers : Instruction → Bool
  | jr _ | j _ | jal _ | beq .. | bne .. | bgtz .. => true
  | _ => false

/-- The register that the instruction writes. -/
def destination? : Instruction → Option Register
  | sll rd _ _ | srl rd _ _ | and rd _ _ | or rd _ _ => some rd
  | addiu rt _ _ | slti rt _ _ | andi rt _ _ | ori rt _ _ | lui rt _ => some rt
  | lh rt _ _ | lw rt _ _ | lbu rt _ _ => some rt
  | jal _ => some .ra
  | jr _ | j _ | beq .. | bne .. | bgtz .. | sb .. | sh .. | sw .. => none

end Instruction

namespace Access

def isFetch : Access → Bool
  | fetch .. => true
  | load .. | store .. => false

/-- The word that was fetched. -/
def word? : Access → Option UInt32
  | fetch _ (.ok word) => some word
  | _ => none

/-- The instruction that was fetched, if the word is one. -/
def instruction? : Access → Option Instruction
  | fetch addr (.ok word) => (Instruction.decode word addr).toOption
  | _ => none

/-- The words that were fetched. -/
def words (accesses : List Access) : List UInt32 := accesses.filterMap word?

/-- The instructions that were executed. -/
def executed (accesses : List Access) : List Instruction := accesses.filterMap instruction?

end Access

namespace Dialogue

variable {β : Type} [Bus β] {c : Cpu} {c' : Computer β} {b : β} {cause : Fault}

/-! ### Single instructions -/

/-- The ways in which an instruction acts, with its destination and whether it may transfer
control. -/
inductive Acts (c : Cpu) : Option Register → Bool → Dialogue (Option UInt32) → Prop
  | load (r w addr f) : Acts c (some r) false (loadInto c r w addr f)
  | store (r w addr) : Acts c none false (storeFrom c r w addr)
  | assign (r value) : Acts c (some r) false (.ends (.done none (c.setReg r value)))
  | jump (target) : Acts c none true (.ends (.done target c))
  | link (target value) : Acts c (some .ra) true (.ends (.done (some target) (c.setReg .ra value)))

/-- Each instruction acts in one of these ways. -/
theorem acts_execute (c : Cpu) (i : Instruction) :
    Acts c i.destination? i.transfers (execute c i) := by
  cases i with
  | lh | lw | lbu => exact .load _ _ _ _
  | sb | sh | sw => exact .store _ _ _
  | jal target => exact .link _ _
  | jr | j | beq | bne | bgtz => exact .jump _
  | sll | srl | and | or | addiu | slti | andi | ori | lui => exact .assign _ _

variable {destination : Option Register} {transfers : Bool} {d : Dialogue (Option UInt32)}

theorem Acts.accesses_eq (h : Acts c destination transfers d) (b : β) :
    ∃ data : Option Access, d.accesses b = data.toList ∧ ∀ a ∈ data, a.isFetch = false := by
  cases h with
  | load r w addr f =>
    refine ⟨some (.load w addr (Bus.read b w addr)), ?_, by simp [Access.isFetch]⟩
    simp only [loadInto, accesses]
    cases Bus.read b w addr <;> rfl
  | store r w addr =>
    refine ⟨some (.store w addr (c.reg r) (Bus.write b w addr (c.reg r)).result?), ?_,
      by simp [Access.isFetch]⟩
    simp only [storeFrom, accesses]
    cases Bus.write b w addr (c.reg r) <;> rfl
  | assign | jump | link => exact ⟨none, rfl, by simp⟩

theorem Acts.reg_run (h : Acts c destination transfers d) (b : β) {r : Register}
    (hr : destination ≠ some r) : (d.run b).Leaves fun c' => c'.cpu.reg r = c.reg r := by
  have hset {s : Register} (hs : some s ≠ some r) (value : UInt32) :
      (c.setReg s value).reg r = c.reg r := by
    rw [Cpu.reg_setReg, if_neg fun h => hs (congrArg some h.1)]
  cases h with
  | load s w addr f =>
    simp only [loadInto, run]
    cases Bus.read b w addr with
    | error e => rfl
    | ok value => exact hset hr _
  | store s w addr =>
    simp only [storeFrom, run]
    cases Bus.write b w addr (c.reg s) <;> trivial
  | assign s value => exact hset hr _
  | jump target => rfl
  | link target value => exact hset hr _

/-- An instruction is halted by a refused load or store. It has changed nothing then, but for what
the store has done to the bus. -/
theorem Acts.of_fault (h : Acts c destination transfers d) (hfault : d.run b = .fault cause c') :
    c'.cpu = c ∧ ((c'.bus = b ∧ ∃ w addr, Bus.read b w addr = .error cause) ∨ ∃ w addr value,
      d.accesses b = [.store w addr value (some (.error cause))] ∧
        Bus.write b w addr value = .fault cause c'.bus) := by
  cases h with
  | load r w addr f =>
    simp only [loadInto, run] at hfault
    cases hread : Bus.read b w addr with
    | ok value =>
      rw [hread] at hfault
      cases hfault
    | error e =>
      rw [hread] at hfault
      cases hfault
      exact ⟨rfl, .inl ⟨rfl, w, addr, hread⟩⟩
  | store r w addr =>
    simp only [storeFrom, run] at hfault
    cases hwrite : Bus.write b w addr (c.reg r) with
    | done u b' =>
      rw [hwrite] at hfault
      cases hfault
    | endless =>
      rw [hwrite] at hfault
      cases hfault
    | fault e b' =>
      rw [hwrite] at hfault
      cases hfault
      refine ⟨rfl, .inr ⟨w, addr, c.reg r, ?_, hwrite⟩⟩
      simp only [storeFrom, accesses, hwrite]
      rfl
  | assign | jump | link => cases hfault

/-- An instruction that takes a transfer writes at most the register for the return address. -/
theorem Acts.of_transfer (h : Acts c destination transfers d) {target : UInt32}
    (hdone : d.run b = .done (some target) c') :
    transfers = true ∧ d.accesses b = [] ∧ c'.bus = b ∧ c'.cpu.pc = c.pc ∧
      ∀ r ≠ .ra, c'.cpu.reg r = c.reg r := by
  cases h with
  | load r w addr f =>
    simp only [loadInto, run] at hdone
    cases hread : Bus.read b w addr <;> rw [hread] at hdone <;> cases hdone
  | store r w addr =>
    simp only [storeFrom, run] at hdone
    cases hwrite : Bus.write b w addr (c.reg r) <;> rw [hwrite] at hdone <;> cases hdone
  | assign r value => cases hdone
  | jump target' =>
    cases hdone
    exact ⟨rfl, rfl, rfl, rfl, fun _ _ => rfl⟩
  | link target' value =>
    cases hdone
    refine ⟨rfl, rfl, rfl, Cpu.pc_setReg _ _ _, fun r hr => ?_⟩
    rw [Cpu.reg_setReg, if_neg fun h => hr h.1.symm]

end Dialogue

namespace Access

variable {accesses rest : List Access} {P : Instruction → Prop}

theorem words_of_data {data : Option Access} (h : ∀ a ∈ data, a.isFetch = false) :
    words data.toList = [] := by
  rcases data with _ | ⟨_ | _ | _⟩
  · rfl
  · simp [isFetch] at h
  all_goals rfl

theorem executed_of_data {data : Option Access} (h : ∀ a ∈ data, a.isFetch = false) :
    executed data.toList = [] := by
  rcases data with _ | ⟨_ | _ | _⟩
  · rfl
  · simp [isFetch] at h
  all_goals rfl

/-- The last instruction of the accesses that follow is the last of all, if there is one. -/
theorem executed_getLast_of_cons {a : Access}
    (h : ∀ i ∈ (executed (a :: rest)).getLast?, P i) : ∀ i ∈ (executed rest).getLast?, P i := by
  unfold executed at h
  rw [List.filterMap_cons] at h
  cases hi : a.instruction? with
  | none => simpa [hi, executed] using h
  | some first =>
    simp only [hi] at h
    change ∀ i ∈ (first :: executed rest).getLast?, P i at h
    cases hrest : executed rest with
    | nil => simp
    | cons second others => rwa [hrest, List.getLast?_cons_cons] at h

end Access

namespace Computer

variable {β α γ : Type} [Bus β] {c c' c'' : Computer β}

/-- Fetches from the program counter on, a word after the other. -/
def fetches (c : Computer β) (n : Nat) : List Access :=
  (List.range n).map fun k =>
    let addr := c.cpu.pc + 4 * .ofNat k
    .fetch addr (Bus.read c.bus .word addr)

theorem fetches_succ (hbus : c'.bus = c.bus) (hpc : c'.cpu.pc = c.cpu.pc + 4) (n : Nat) :
    c.fetches (n + 1) = .fetch c.cpu.pc (Bus.read c.bus .word c.cpu.pc) :: c'.fetches n := by
  have hfirst : c.cpu.pc + 4 * UInt32.ofNat 0 = c.cpu.pc := UInt32.add_zero _
  simp only [fetches, List.range_succ_eq_map, List.map_cons, List.map_map, hfirst, hbus, hpc,
    Region.add_four_add_mul]
  rfl

theorem fetches_one (c : Computer β) :
    c.fetches 1 = [.fetch c.cpu.pc (Bus.read c.bus .word c.cpu.pc)] := by
  simp [fetches]

/-- What a run of instructions may touch, in which all but the last are transfers of control, with
the accesses that it makes and its end. -/
structure Framed (c : Computer β) (accesses : List Access) (o : Outcome (Computer β) α) :
    Prop where
  /-- Words are fetched one after the other from the program counter on, and then there is at most
  one access of another kind. -/
  fetched : ∃ (n : Nat) (data : Option Access),
    accesses = c.fetches n ++ data.toList ∧ ∀ a ∈ data, a.isFetch = false
  /-- Only `$ra` and the destination of the last instruction are written. -/
  reg : ∀ r ≠ .ra, (∀ i ∈ (Access.executed accesses).getLast?, i.destination? ≠ some r) →
    o.Leaves fun c' => c'.cpu.reg r = c.cpu.reg r
  /-- A run that is halted has written only `$ra`, stands behind the words that it could fetch, and
  leaves the bus as it was unless a store at its very end has halted it. -/
  halted : ∀ cause c', o = .fault cause c' →
    (∀ r ≠ .ra, c'.cpu.reg r = c.cpu.reg r) ∧
    c'.cpu.pc = c.cpu.pc + 4 * .ofNat (Access.words accesses).length ∧
    (c'.bus = c.bus ∨ ∃ w addr value,
      accesses.getLast? = some (.store w addr value (some (.error cause))) ∧
        Bus.write c.bus w addr value = .fault cause c'.bus)

/-- A run of no instructions. -/
theorem Framed.fault_nil (c : Computer β) (cause : Fault) :
    Framed c [] (.fault cause c : Outcome (Computer β) α) where
  fetched := ⟨0, none, rfl, by simp⟩
  reg _ _ _ := rfl
  halted := by
    rintro _ _ ⟨⟩
    exact ⟨fun _ _ => rfl, (UInt32.add_zero _).symm, .inl rfl⟩

theorem Framed.of_fault {accesses : List Access} {cause : Fault}
    (h : Framed c accesses (.fault cause c' : Outcome (Computer β) α)) :
    Framed c accesses (.fault cause c' : Outcome (Computer β) γ) where
  fetched := h.fetched
  reg := h.reg
  halted := by
    rintro _ _ ⟨⟩
    exact h.halted _ _ rfl

theorem Framed.of_done {accesses : List Access} {a : α} (h : Framed c accesses (.done a c'))
    (b : γ) (hreg : ∀ r, c''.cpu.reg r = c'.cpu.reg r) : Framed c accesses (.done b c'') where
  fetched := h.fetched
  reg r hr hlast := (hreg r).trans (h.reg r hr hlast)
  halted := by rintro _ _ ⟨⟩

theorem Framed.of_endless {accesses : List Access}
    (h : Framed c accesses (.endless : Outcome (Computer β) α)) :
    Framed c accesses (.endless : Outcome (Computer β) γ) where
  fetched := h.fetched
  reg _ _ _ := trivial
  halted := by rintro _ _ ⟨⟩

/-- A word in front of the others that is fetched and writes at most `$ra`. -/
theorem Framed.cons {rest : List Access} {o : Outcome (Computer β) α} {word : UInt32}
    (h : Framed c' rest o) (hread : Bus.read c.bus .word c.cpu.pc = .ok word)
    (hbus : c'.bus = c.bus) (hpc : c'.cpu.pc = c.cpu.pc + 4)
    (hreg : ∀ r ≠ .ra, c'.cpu.reg r = c.cpu.reg r) :
    Framed c (.fetch c.cpu.pc (.ok word) :: rest) o where
  fetched := by
    obtain ⟨n, data, rfl, hdata⟩ := h.fetched
    refine ⟨n + 1, data, ?_, hdata⟩
    rw [fetches_succ hbus hpc, hread, List.cons_append]
  reg r hr hlast := (h.reg r hr (Access.executed_getLast_of_cons hlast)).mono
    fun _ hsame => hsame.trans (hreg r hr)
  halted cause c'' ho := by
    obtain ⟨hregs, hpc', hlast⟩ := h.halted cause c'' ho
    refine ⟨fun r hr => (hregs r hr).trans (hreg r hr), ?_, ?_⟩
    · have hwords : (Access.words (.fetch c.cpu.pc (.ok word) :: rest)).length =
          (Access.words rest).length + 1 := rfl
      rw [hpc', hpc, hwords, Region.add_four_add_mul]
    · rcases hlast with hsame | ⟨w, addr, value, hlast, hwrite⟩
      · exact .inl (hsame.trans hbus)
      · refine .inr ⟨w, addr, value, ?_, hbus ▸ hwrite⟩
        rw [List.getLast?_cons, hlast]
        rfl

/-- One instruction, from its fetch on. -/
theorem framed_execute {word : UInt32} {i : Instruction}
    (hread : Bus.read c.bus .word c.cpu.pc = .ok word)
    (hdecode : Instruction.decode word c.cpu.pc = .ok i) :
    let d := Dialogue.execute { c.cpu with pc := c.cpu.pc + 4 } i
    Framed c (.fetch c.cpu.pc (.ok word) :: d.accesses c.bus) (d.run c.bus) := by
  intro d
  have hacts : Dialogue.Acts _ i.destination? i.transfers d := Dialogue.acts_execute _ i
  obtain ⟨data, haccesses, hdata⟩ := hacts.accesses_eq c.bus
  have hexecuted : Access.executed (.fetch c.cpu.pc (.ok word) :: data.toList) = [i] := by
    have hi : (Access.fetch c.cpu.pc (.ok word)).instruction? = some i := by
      rw [Access.instruction?, hdecode]
      rfl
    rw [Access.executed, List.filterMap_cons, hi]
    exact congrArg _ (Access.executed_of_data hdata)
  have hwords : (Access.words (.fetch c.cpu.pc (.ok word) :: data.toList)).length = 1 :=
    congrArg (·.length + 1) (Access.words_of_data hdata)
  rw [haccesses]
  refine ⟨⟨1, data, ?_, hdata⟩, fun r _ hlast => ?_, fun cause c' hfault => ?_⟩
  · rw [fetches_one, hread]
    rfl
  · rw [hexecuted] at hlast
    exact hacts.reg_run c.bus (hlast i rfl)
  · obtain ⟨hcpu, hbus⟩ := hacts.of_fault hfault
    refine ⟨fun r _ => by rw [hcpu]; rfl, by rw [hwords, hcpu]; rfl, ?_⟩
    rcases hbus with ⟨hsame, -⟩ | ⟨w, addr, value, hlast, hwrite⟩
    · exact .inl hsame
    · rw [haccesses] at hlast
      exact .inr ⟨w, addr, value, by rw [hlast]; rfl, hwrite⟩

theorem framed_executeNext (c : Computer β) :
    Framed c ((Dialogue.executeNext c.cpu).accesses c.bus) c.executeNext := by
  rw [← Dialogue.run_executeNext]
  simp only [Dialogue.executeNext, Dialogue.run, Dialogue.accesses]
  cases hread : Bus.read c.bus .word c.cpu.pc with
  | error e =>
    refine ⟨⟨1, none, by rw [fetches_one, hread]; rfl, by simp⟩, fun _ _ _ => rfl, ?_⟩
    rintro _ _ ⟨⟩
    exact ⟨fun _ _ => rfl, (UInt32.add_zero _).symm, .inl rfl⟩
  | ok word =>
    dsimp only
    cases hdecode : Instruction.decode word c.cpu.pc with
    | error e => exact (Framed.fault_nil _ e).cons hread rfl rfl fun _ _ => rfl
    | ok i => exact framed_execute hread hdecode

/-- An instruction that takes a transfer is one that may, and it has only been fetched. -/
theorem exists_of_executeNext_eq_some {target : UInt32}
    (h : c.executeNext = .done (some target) c') :
    ∃ word i, Bus.read c.bus .word c.cpu.pc = .ok word ∧
      Instruction.decode word c.cpu.pc = .ok i ∧ i.transfers = true ∧
      (Dialogue.executeNext c.cpu).accesses c.bus = [.fetch c.cpu.pc (.ok word)] ∧
      c'.bus = c.bus ∧ c'.cpu.pc = c.cpu.pc + 4 ∧ ∀ r ≠ .ra, c'.cpu.reg r = c.cpu.reg r := by
  rw [← Dialogue.run_executeNext] at h
  simp only [Dialogue.executeNext, Dialogue.run, Dialogue.accesses] at h ⊢
  cases hread : Bus.read c.bus .word c.cpu.pc with
  | error e =>
    rw [hread] at h
    cases h
  | ok word =>
    simp only [hread] at h
    cases hdecode : Instruction.decode word c.cpu.pc with
    | error e =>
      rw [hdecode] at h
      cases h
    | ok i =>
      simp only [hdecode] at h ⊢
      obtain ⟨htransfers, haccesses, hbus, hpc, hreg⟩ :=
        (Dialogue.acts_execute _ i).of_transfer h
      exact ⟨word, i, rfl, hdecode, htransfers, by rw [haccesses], hbus, hpc, hreg⟩

/-- What can halt an instruction. -/
theorem cases_of_executeNext_eq_fault {cause : Fault} (h : c.executeNext = .fault cause c') :
    (∃ w addr, Bus.read c.bus w addr = .error cause) ∨
      (∃ word, Instruction.decode word c.cpu.pc = .error cause) ∨
      ∃ w addr value, Bus.write c.bus w addr value = .fault cause c'.bus := by
  rw [← Dialogue.run_executeNext] at h
  simp only [Dialogue.executeNext, Dialogue.run] at h
  cases hread : Bus.read c.bus .word c.cpu.pc with
  | error e =>
    rw [hread] at h
    cases h
    exact .inl ⟨_, _, hread⟩
  | ok word =>
    simp only [hread] at h
    cases hdecode : Instruction.decode word c.cpu.pc with
    | error e =>
      rw [hdecode] at h
      cases h
      exact .inr (.inl ⟨word, hdecode⟩)
    | ok i =>
      simp only [hdecode] at h
      obtain ⟨-, ⟨-, w, addr, hload⟩ | ⟨w, addr, value, -, hstore⟩⟩ :=
        (Dialogue.acts_execute _ i).of_fault h
      · exact .inl ⟨w, addr, hload⟩
      · exact .inr (.inr ⟨w, addr, value, hstore⟩)

theorem framed_runChain (start : UInt32) (fuel : Nat) (target : Option UInt32)
    (c : Computer β) : Framed c ((Dialogue.runChain start fuel target c.cpu).accesses c.bus)
      (runChain start fuel target c) := by
  induction fuel generalizing target c with
  | zero => exact .fault_nil c _
  | succ fuel ih =>
    have hfirst := framed_executeNext c
    rw [Dialogue.runChain, Dialogue.accesses_andThen, Dialogue.run_executeNext, runChain]
    cases hnext : c.executeNext with
    | fault e c' =>
      rw [hnext] at hfirst
      change Framed c (_ ++ []) _
      rw [List.append_nil]
      exact hfirst.of_fault
    | endless =>
      rw [hnext] at hfirst
      change Framed c (_ ++ []) _
      rw [List.append_nil]
      exact hfirst.of_endless
    | done next c' =>
      cases next with
      | none =>
        rw [hnext] at hfirst
        change Framed c (_ ++ []) _
        rw [List.append_nil]
        cases target <;> exact hfirst.of_done () fun _ => rfl
      | some next =>
        obtain ⟨word, i, hread, -, -, haccesses, hbus, hpc, hreg⟩ :=
          exists_of_executeNext_eq_some hnext
        rw [haccesses]
        exact (ih (some (target.getD next)) c').cons hread hbus hpc hreg

/-- The accesses of a step and what it leaves, on every bus. -/
theorem step_framed (c : Computer β) : (Dialogue.step c.cpu).run c.bus = c.step ∧
    Framed c ((Dialogue.step c.cpu).accesses c.bus) c.step :=
  ⟨Dialogue.run_step c.cpu c.bus, framed_runChain _ _ none c⟩

end Computer

end GameConsole
