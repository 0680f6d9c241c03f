/-! Loops that go from state to state until they have an answer, and that may go on for ever. The
answer is the one to which some number of turns leads. What runs is a loop whose type has this in
it, so its answer is known although no number of turns is known before. -/

namespace GameConsole

variable {α σ : Type}

/-- The answer to which a loop comes within a number of turns. -/
def iterateFor (next : σ → Sum α σ) : Nat → σ → Option α
  | 0, _ => none
  | n + 1, s =>
    match next s with
    | .inl answer => some answer
    | .inr s => iterateFor next n s

variable {next : σ → Sum α σ} {s t : σ} {answer : α}

theorem iterateFor_unique {answer' : α} {m n : Nat} (h : iterateFor next m s = some answer)
    (h' : iterateFor next n s = some answer') : answer = answer' := by
  induction m generalizing n s with
  | zero => cases h
  | succ m ih =>
    cases n with
    | zero => cases h'
    | succ n =>
      rw [iterateFor] at h h'
      cases hnext : next s with
      | inl a =>
        rw [hnext] at h h'
        exact (Option.some.inj h).symm.trans (Option.some.inj h')
      | inr t =>
        rw [hnext] at h h'
        exact ih h h'

/-- The answer to which a loop comes in any number of turns. -/
noncomputable def answer? (next : σ → Sum α σ) (s : σ) : Option α :=
  open Classical in
  if h : ∃ answer n, iterateFor next n s = some answer then some h.choose else none

theorem answer?_eq_some_iff :
    answer? next s = some answer ↔ ∃ n, iterateFor next n s = some answer := by
  unfold answer?
  constructor
  · intro h
    split at h
    · rename_i hex
      obtain ⟨n, hn⟩ := hex.choose_spec
      exact ⟨n, hn.trans h⟩
    · cases h
  · rintro ⟨n, hn⟩
    have hex : ∃ answer n, iterateFor next n s = some answer := ⟨answer, n, hn⟩
    rw [dif_pos hex]
    obtain ⟨m, hm⟩ := hex.choose_spec
    rw [iterateFor_unique hm hn]

theorem answer?_of_inl (h : next s = .inl answer) : answer? next s = some answer :=
  answer?_eq_some_iff.2 ⟨1, by rw [iterateFor, h]⟩

theorem answer?_of_inr (h : next s = .inr t) : answer? next s = answer? next t := by
  refine Option.ext fun answer => ?_
  rw [answer?_eq_some_iff, answer?_eq_some_iff]
  constructor
  · rintro ⟨n, hn⟩
    cases n with
    | zero => cases hn
    | succ n =>
      rw [iterateFor, h] at hn
      exact ⟨n, hn⟩
  · rintro ⟨n, hn⟩
    exact ⟨n + 1, by rw [iterateFor, h]; exact hn⟩

/-- The states that have the answer of `s`. -/
abbrev Onward (next : σ → Sum α σ) (s : σ) : Type := { t : σ // answer? next t = answer? next s }

/-- One turn of the loop from `s` on. -/
@[inline] def onward (next : σ → Sum α σ) (s : σ) (t : Onward next s) :
    Onward next s ⊕ { answer : Option α // answer = answer? next s } :=
  match h : next t.val with
  | .inl answer => .inr ⟨some answer, by rw [← t.property, answer?_of_inl h]⟩
  | .inr t' => .inl ⟨t', by rw [← t.property, answer?_of_inr h]⟩

@[specialize]
def loop (next : σ → Sum α σ) (s : σ) : { answer : Option α // answer = answer? next s } :=
  have : Nonempty { answer : Option α // answer = answer? next s } := ⟨⟨_, rfl⟩⟩
  Id.run (repeatM (onward next s) ⟨s, rfl⟩)

/-- The answer to which `next` leads from a state on. There is none if it leads on for ever. -/
@[specialize]
def iterate? (next : σ → Sum α σ) (s : σ) : Option α := (loop next s).val

theorem iterate?_eq (next : σ → Sum α σ) (s : σ) : iterate? next s = answer? next s :=
  (loop next s).property

end GameConsole
