import GameConsole.Proofs.Loop
import Mathlib.Algebra.Order.Ring.Abs
import Mathlib.Algebra.Order.Ring.Int

/-! Checked operations. Each has an answer only where it is defined on a machine: a number has to
fit its type, a divisor must not be zero, and a shift must be less than the width of the word. A
computation that is built from them has an answer only if each of its steps has one. -/

namespace GameConsole

/-! ### Numbers -/

namespace Checked

/-- A number, if it is within these limits. -/
def within (low high x : Int) : Option Int := if low ≤ x ∧ x ≤ high then some x else none

def i32 : Int → Option Int := within (-0x80000000) 0x7FFFFFFF

def i64 : Int → Option Int := within (-0x8000000000000000) 0x7FFFFFFFFFFFFFFF

def u32 : Int → Option Int := within 0 0xFFFFFFFF

/-- Division of numbers of 64 bits, toward zero. -/
def div? (n d : Int) : Option Int := if d = 0 then none else i64 (n.tdiv d)

def shiftLeft? (x : UInt32) (n : Nat) : Option UInt32 :=
  if n < 32 then some (x <<< UInt32.ofNat n) else none

def shiftRight? (x : UInt32) (n : Nat) : Option UInt32 :=
  if n < 32 then some (x >>> UInt32.ofNat n) else none

theorem i32_eq {x : Int} (h : -0x80000000 ≤ x ∧ x ≤ 0x7FFFFFFF) : i32 x = some x := if_pos h

theorem u32_eq {x : Int} (h : 0 ≤ x ∧ x ≤ 0xFFFFFFFF) : u32 x = some x := if_pos h

theorem i64_eq {x m : Int} (h : |x| ≤ m) (hm : m ≤ 0x7FFFFFFFFFFFFFFF) : i64 x = some x := by
  rw [abs_le] at h
  exact if_pos (by omega)

theorem div?_eq {n d m : Int} (hd : d ≠ 0) (hn : |n| ≤ m) (hm : m ≤ 0x7FFFFFFFFFFFFFFF) :
    div? n d = some (n.tdiv d) := by
  rw [div?, if_neg hd]
  refine i64_eq (le_trans ?_ hn) hm
  have hquotient := Int.natAbs_tdiv_le_natAbs n d
  rw [Int.abs_eq_natAbs, Int.abs_eq_natAbs]
  exact_mod_cast hquotient

theorem abs_mul_le {x y m n : Int} (hx : |x| ≤ m) (hy : |y| ≤ n) : |x * y| ≤ m * n := by
  rw [abs_mul]
  exact mul_le_mul hx hy (abs_nonneg y) ((abs_nonneg x).trans hx)

theorem abs_sub_le_add {x y m n : Int} (hx : |x| ≤ m) (hy : |y| ≤ n) : |x - y| ≤ m + n :=
  (abs_sub x y).trans (add_le_add hx hy)

theorem abs_add_le_add {x y m n : Int} (hx : |x| ≤ m) (hy : |y| ≤ n) : |x + y| ≤ m + n :=
  (abs_add_le x y).trans (add_le_add hx hy)

end Checked

/-! ### Computations -/

/-- A checked computation has an answer, which is that of the unchecked one and has a property. -/
structure Safe {α : Type} (checked : Option α) (answer : α) (property : α → Prop) : Prop where
  eq : checked = some answer
  holds : property answer

namespace Safe

variable {α β : Type} {a : α} {b : β} {checked : Option α} {p : α → Prop} {q : β → Prop}

theorem some (h : p a) : Safe (some a) a p := ⟨rfl, h⟩

theorem bind {next : α → Option β} (h : Safe checked a p) (hnext : p a → Safe (next a) b q) :
    Safe (checked.bind next) b q := by
  obtain ⟨rfl, hp⟩ := h
  exact hnext hp

end Safe

/-- Does `f` with the numbers below `n` in order, as long as it has an answer. -/
def steps? {σ : Type} (f : Nat → σ → Option σ) : Nat → σ → Option σ
  | 0, s => some s
  | n + 1, s => (steps? f n s).bind (f n)

/-- A loop whose round `i` takes what holds after `i` rounds to what holds after one more. -/
theorem safe_steps?_of_succ {σ : Type} {p : Nat → σ → Prop} {f? : Nat → σ → Option σ}
    {f : Nat → σ → σ} {n : Nat}
    (h : ∀ i < n, ∀ s, p i s → Safe (f? i s) (f i s) (p (i + 1))) {s : σ} (hs : p 0 s) :
    Safe (steps? f? n s) (n.fold (fun i _ s => f i s) s) (p n) := by
  induction n with
  | zero => exact .some hs
  | succ n ih =>
    rw [Nat.fold_succ]
    exact (ih fun i hi => h i (Nat.lt_succ_of_lt hi)).bind (h n (Nat.lt_succ_self n) _)

theorem safe_steps? {σ : Type} {p : σ → Prop} {f? : Nat → σ → Option σ} {f : Nat → σ → σ} {n : Nat}
    (h : ∀ i < n, ∀ s, p s → Safe (f? i s) (f i s) p) {s : σ} (hs : p s) :
    Safe (steps? f? n s) (n.fold (fun i _ s => f i s) s) p :=
  safe_steps?_of_succ (p := fun _ => p) h hs

namespace Outcome

variable {σ α β : Type}

/-- Goes on with a checked operation where an operation has ended, unless it was halted. -/
def andThen? (o : Outcome σ α) (next : α → σ → Option (Outcome σ β)) : Option (Outcome σ β) :=
  match o with
  | done a s => next a s
  | fault e s => some (fault e s)
  | endless => some endless

/-- One turn of a loop with a checked test and a checked body. -/
def turn? (ended? : σ → Option Bool) (body? : σ → Option (Outcome σ Unit)) (s : σ) :
    Sum (Option (Outcome σ Unit)) σ :=
  match ended? s with
  | none => .inl none
  | some true => .inl (some (done () s))
  | some false =>
    match body? s with
    | none => .inl none
    | some (done _ s) => .inr s
    | some (fault e s) => .inl (some (fault e s))
    | some endless => .inl (some endless)

/-- Repeats a checked operation until a checked test holds. -/
def repeatUntil? (ended? : σ → Option Bool) (body? : σ → Option (Outcome σ Unit)) (s : σ) :
    Option (Outcome σ Unit) :=
  (iterate? (turn? ended? body?) s).getD (some endless)

variable {p : σ → Prop}

theorem safe_andThen? {o : Outcome σ α} {next? : α → σ → Option (Outcome σ β)}
    {next : α → σ → Outcome σ β} (h : o.Leaves p)
    (hnext : ∀ a s, p s → Safe (next? a s) (next a s) fun o => o.Leaves p) :
    Safe (o.andThen? next?) (o.andThen next) fun o => o.Leaves p := by
  cases o with
  | done a s => exact hnext a s h
  | fault e s => exact .some h
  | endless => exact .some trivial

theorem safe_repeatUntil? {ended? : σ → Option Bool} {ended : σ → Bool}
    {body? : σ → Option (Outcome σ Unit)} {body : σ → Outcome σ Unit}
    (hended : ∀ s, ended? s = some (ended s))
    (hbody : ∀ s, p s → Safe (body? s) (body s) fun o => o.Leaves p) {s : σ} (hs : p s) :
    Safe (repeatUntil? ended? body? s) (repeatUntil ended body s) fun o => o.Leaves p where
  eq := by
    have hloop : iterate? (turn? ended? body?) s = (iterate? (turn ended body) s).map some := by
      refine iterate?_of_turns (R := fun s t => s = t ∧ p s) ?_ ?_ ⟨rfl, hs⟩
      · rintro s _ o ⟨rfl, hp⟩ h
        rw [turn?, hended]
        rcases turn_eq_inl_iff.1 h with ⟨hstop, rfl⟩ | ⟨hstop, ⟨e, t, hb, rfl⟩ | ⟨hb, rfl⟩⟩
        all_goals simp [*, (hbody s hp).eq]
      · rintro s _ t ⟨rfl, hp⟩ h
        obtain ⟨hstop, hb⟩ := turn_eq_inr_iff.1 h
        have hleaves := (hbody s hp).holds
        rw [hb] at hleaves
        exact ⟨t, by simp [turn?, hended, hstop, (hbody s hp).eq, hb], rfl, hleaves⟩
    rw [repeatUntil?, repeatUntil, hloop]
    cases iterate? (turn ended body) s <;> rfl
  holds := leaves_repeatUntil (fun s hp _ => (hbody s hp).holds) hs

end Outcome

end GameConsole
