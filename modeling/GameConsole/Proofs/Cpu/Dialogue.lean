import GameConsole.Cpu

/-! The processor apart from any bus. What it does between two accesses follows from its registers
and the answers that it has had, so a step is a dialogue with the bus: a tree of requests that
branches with the answers. Held with a bus, the dialogue of a step ends as the step does on this
bus, and the requests on the way with their answers are the accesses of the step. -/

namespace GameConsole

/-- What is asked of a bus until the end, each request with what follows its answer. -/
inductive Dialogue (α : Type)
  | ends (o : Outcome Cpu α)
  /-- Reads the word of an instruction. -/
  | fetch (addr : UInt32) (next : Except Fault UInt32 → Dialogue α)
  | load (w : Width) (addr : UInt32) (next : Except Fault UInt32 → Dialogue α)
  | store (w : Width) (addr value : UInt32) (next : Except Fault Unit → Dialogue α)

/-- A request to a bus and its answer. A store that never comes back has none. -/
inductive Access
  | fetch (addr : UInt32) (answer : Except Fault UInt32)
  | load (w : Width) (addr : UInt32) (answer : Except Fault UInt32)
  | store (w : Width) (addr value : UInt32) (answer : Option (Except Fault Unit))

/-- A bus with nothing on it, for what makes no accesses. -/
instance : Bus Unit where
  read _ _ _ := .ok 0
  write _ _ _ _ := .done () ()

namespace Dialogue

variable {α γ β : Type} [Bus β]

def run : Dialogue α → β → Outcome (Computer β) α
  | ends o, b => o.mapState fun cpu => ⟨cpu, b⟩
  | fetch addr next, b => (next (Bus.read b .word addr)).run b
  | load w addr next, b => (next (Bus.read b w addr)).run b
  | store w addr value next, b =>
    match Bus.write b w addr value with
    | .done _ b => (next (.ok ())).run b
    | .fault e b => (next (.error e)).run b
    | .endless => .endless

/-- The accesses of a dialogue with a bus, in their order. -/
def accesses : Dialogue α → β → List Access
  | ends _, _ => []
  | fetch addr next, b =>
    .fetch addr (Bus.read b .word addr) :: (next (Bus.read b .word addr)).accesses b
  | load w addr next, b =>
    .load w addr (Bus.read b w addr) :: (next (Bus.read b w addr)).accesses b
  | store w addr value next, b =>
    .store w addr value (Bus.write b w addr value).result? ::
      match Bus.write b w addr value with
      | .done _ b => (next (.ok ())).accesses b
      | .fault e b => (next (.error e)).accesses b
      | .endless => []

/-- Goes on where a dialogue has ended, unless it was halted. -/
def andThen : Dialogue α → (α → Cpu → Dialogue γ) → Dialogue γ
  | ends (.done a c), next => next a c
  | ends (.fault e c), _ => .ends (.fault e c)
  | ends .endless, _ => .ends .endless
  | fetch addr rest, next => .fetch addr fun answer => (rest answer).andThen next
  | load w addr rest, next => .load w addr fun answer => (rest answer).andThen next
  | store w addr value rest, next => .store w addr value fun answer => (rest answer).andThen next

theorem run_andThen (d : Dialogue α) (next : α → Cpu → Dialogue γ) (b : β) :
    (d.andThen next).run b = (d.run b).andThen fun a c => (next a c.cpu).run c.bus := by
  induction d generalizing b with
  | ends o => cases o <;> rfl
  | fetch addr rest ih => exact ih _ b
  | load w addr rest ih => exact ih _ b
  | store w addr value rest ih =>
    simp only [andThen, run]
    cases Bus.write b w addr value with
    | done u b => exact ih _ b
    | fault e b => exact ih _ b
    | endless => rfl

theorem accesses_andThen (d : Dialogue α) (next : α → Cpu → Dialogue γ) (b : β) :
    (d.andThen next).accesses b = d.accesses b ++
      match d.run b with
      | .done a c => (next a c.cpu).accesses c.bus
      | .fault _ _ | .endless => [] := by
  induction d generalizing b with
  | ends o => cases o <;> rfl
  | fetch addr rest ih => exact congrArg _ (ih _ b)
  | load w addr rest ih => exact congrArg _ (ih _ b)
  | store w addr value rest ih =>
    simp only [andThen, accesses, run]
    cases Bus.write b w addr value with
    | done u b => exact congrArg _ (ih _ b)
    | fault e b => exact congrArg _ (ih _ b)
    | endless => rfl

/-! ### The dialogue of a step -/

def loadInto (c : Cpu) (r : Register) (w : Width) (addr : UInt32) (f : UInt32 → UInt32) :
    Dialogue (Option UInt32) :=
  .load w addr fun
    | .error e => .ends (.fault e c)
    | .ok value => .ends (.done none (c.setReg r (f value)))

def storeFrom (c : Cpu) (r : Register) (w : Width) (addr : UInt32) : Dialogue (Option UInt32) :=
  .store w addr (c.reg r) fun
    | .error e => .ends (.fault e c)
    | .ok () => .ends (.done none c)

/-- Loads and stores ask the bus once, and no other instruction does. -/
def execute (c : Cpu) : Instruction → Dialogue (Option UInt32)
  | .lh rt base offset =>
    loadInto c rt .half (c.address base offset) fun v => signExtend v.toUInt16.toInt16
  | .lw rt base offset => loadInto c rt .word (c.address base offset) id
  | .lbu rt base offset => loadInto c rt .byte (c.address base offset) id
  | .sb rt base offset => storeFrom c rt .byte (c.address base offset)
  | .sh rt base offset => storeFrom c rt .half (c.address base offset)
  | .sw rt base offset => storeFrom c rt .word (c.address base offset)
  | i => .ends ((Computer.execute (⟨c, ()⟩ : Computer Unit) i).mapState Computer.cpu)

def executeNext (c : Cpu) : Dialogue (Option UInt32) :=
  .fetch c.pc fun
    | .error e => .ends (.fault e c)
    | .ok word =>
      match Instruction.decode word c.pc with
      | .error e => .ends (.fault e { c with pc := c.pc + 4 })
      | .ok instruction => execute { c with pc := c.pc + 4 } instruction

def runChain (start : UInt32) : Nat → Option UInt32 → Cpu → Dialogue Unit
  | 0, _, c => .ends (.fault (.runawayDelaySlots start) c)
  | fuel + 1, target, c => (executeNext c).andThen fun
    | some next, c => runChain start fuel (some (target.getD next)) c
    | none, c => .ends (.done () (target.elim c fun pc => { c with pc }))

def step (c : Cpu) : Dialogue Unit := runChain c.pc Computer.maxDelayChain none c

theorem run_loadInto (c : Cpu) (r : Register) (w : Width) (addr : UInt32) (f : UInt32 → UInt32)
    (b : β) : (loadInto c r w addr f).run b = (⟨c, b⟩ : Computer β).loadInto r w addr f := by
  simp only [loadInto, run, Computer.loadInto]
  cases Bus.read b w addr <;> rfl

theorem run_storeFrom (c : Cpu) (r : Register) (w : Width) (addr : UInt32) (b : β) :
    (storeFrom c r w addr).run b = (⟨c, b⟩ : Computer β).storeFrom r w addr := by
  simp only [storeFrom, run, Computer.storeFrom]
  cases Bus.write b w addr (c.reg r) <;> rfl

theorem run_execute (c : Cpu) (i : Instruction) (b : β) :
    (execute c i).run b = (⟨c, b⟩ : Computer β).execute i := by
  cases i with
  | lh rt base offset => exact run_loadInto c rt _ _ _ b
  | lw rt base offset => exact run_loadInto c rt _ _ _ b
  | lbu rt base offset => exact run_loadInto c rt _ _ _ b
  | sb rt base offset => exact run_storeFrom c rt _ _ b
  | sh rt base offset => exact run_storeFrom c rt _ _ b
  | sw rt base offset => exact run_storeFrom c rt _ _ b
  | _ => rfl

theorem run_executeNext (c : Cpu) (b : β) :
    (executeNext c).run b = (⟨c, b⟩ : Computer β).executeNext := by
  simp only [executeNext, run, Computer.executeNext]
  cases Bus.read b .word c.pc with
  | error e => rfl
  | ok word =>
    dsimp only
    cases Instruction.decode word c.pc with
    | error e => rfl
    | ok i => exact run_execute _ i b

theorem run_runChain (start : UInt32) (fuel : Nat) (target : Option UInt32) (c : Cpu) (b : β) :
    (runChain start fuel target c).run b = Computer.runChain start fuel target ⟨c, b⟩ := by
  induction fuel generalizing target c b with
  | zero => rfl
  | succ fuel ih =>
    rw [runChain, run_andThen, run_executeNext, Computer.runChain]
    cases (⟨c, b⟩ : Computer β).executeNext with
    | fault e c' => rfl
    | endless => rfl
    | done next c' =>
      cases next with
      | some next => exact ih _ _ _
      | none => cases target <;> rfl

/-- The dialogue of a step is that step on every bus. -/
theorem run_step (c : Cpu) (b : β) : (step c).run b = (⟨c, b⟩ : Computer β).step :=
  run_runChain _ _ _ c b

end Dialogue

end GameConsole
