import GameConsole.Outcome

/-! What holds of loops. A loop has an answer only if it comes to it within a number of turns, so an
induction over the turns says what holds of the answer, two loops that turn alike have the same
answer or both none, and a loop in which every turn leads to another one has none. -/

namespace GameConsole

variable {α β σ τ : Type}

section

variable {next : σ → Sum α σ} {next' : τ → Sum β τ}

theorem iterate?_eq_some_iff {s : σ} {answer : α} :
    iterate? next s = some answer ↔ ∃ n, iterateFor next n s = some answer := by
  rw [iterate?_eq, answer?_eq_some_iff]

theorem iterate?_of_inl {s : σ} {answer : α} (h : next s = .inl answer) :
    iterate? next s = some answer := by rw [iterate?_eq, answer?_of_inl h]

theorem iterate?_of_inr {s t : σ} (h : next s = .inr t) : iterate? next s = iterate? next t := by
  rw [iterate?_eq, iterate?_eq, answer?_of_inr h]

/-- A property that every turn keeps, and that gives its answer another one. -/
theorem iterate?_induction {P : σ → Prop} {Q : α → Prop}
    (answer : ∀ s a, P s → next s = .inl a → Q a)
    (turn : ∀ s t, P s → next s = .inr t → P t) {s : σ} (hs : P s) :
    ∀ a ∈ iterate? next s, Q a := by
  intro a ha
  obtain ⟨n, hn⟩ := iterate?_eq_some_iff.1 ha
  induction n generalizing s with
  | zero => cases hn
  | succ n ih =>
    rw [iterateFor] at hn
    cases hnext : next s with
    | inl a' =>
      obtain rfl : a' = a := by simpa [hnext] using hn
      exact answer s a' hs hnext
    | inr t =>
      rw [hnext] at hn
      exact ih (turn s t hs hnext) (iterate?_eq_some_iff.2 ⟨n, hn⟩) hn

/-- Loops whose turns go along with each other, on states that are related by `R`. -/
theorem iterate?_of_turns {R : σ → τ → Prop} {f : α → β}
    (hanswer : ∀ s t a, R s t → next s = .inl a → next' t = .inl (f a))
    (hturn : ∀ s t s', R s t → next s = .inr s' → ∃ t', next' t = .inr t' ∧ R s' t')
    {s : σ} {t : τ} (h : R s t) : iterate? next' t = (iterate? next s).map f := by
  have hfor (n : Nat) : iterateFor next' n t = (iterateFor next n s).map f := by
    induction n generalizing s t with
    | zero => rfl
    | succ n ih =>
      rw [iterateFor, iterateFor]
      cases hnext : next s with
      | inl a => rw [hanswer s t a h hnext, Option.map_some]
      | inr s' =>
        obtain ⟨t', hnext', h'⟩ := hturn s t s' h hnext
        rw [hnext']
        exact ih h'
  refine Option.ext fun answer => ?_
  simp only [iterate?_eq_some_iff, hfor, Option.map_eq_some_iff]
  constructor
  · rintro ⟨n, a, ha, rfl⟩
    exact ⟨a, ⟨n, ha⟩, rfl⟩
  · rintro ⟨a, ⟨n, ha⟩, rfl⟩
    exact ⟨n, a, ha, rfl⟩

end

namespace Outcome

variable {ended : σ → Bool} {body : σ → Outcome σ Unit} {s : σ}

theorem turn_eq_inl_iff {o : Outcome σ Unit} : turn ended body s = .inl o ↔
    ended s = true ∧ o = .done () s ∨
      ended s = false ∧ ((∃ e t, body s = .fault e t ∧ o = .fault e t) ∨
        body s = .endless ∧ o = .endless) := by
  rw [turn]
  cases ended s with
  | true => simp [eq_comm]
  | false => cases body s <;> simp [eq_comm, and_assoc]

theorem turn_eq_inr_iff {t : σ} :
    turn ended body s = .inr t ↔ ended s = false ∧ body s = .done () t := by
  rw [turn]
  cases ended s with
  | true => simp
  | false => cases body s <;> simp

theorem repeatUntil_of_ended (h : ended s = true) : repeatUntil ended body s = .done () s := by
  rw [repeatUntil, iterate?_of_inl (turn_eq_inl_iff.2 (.inl ⟨h, rfl⟩)), Option.getD_some]

theorem repeatUntil_of_not_ended (h : ended s = false) :
    repeatUntil ended body s = (body s).andThen fun _ s => repeatUntil ended body s := by
  rw [repeatUntil]
  cases hbody : body s with
  | done u t =>
    rw [iterate?_of_inr (turn_eq_inr_iff.2 ⟨h, hbody⟩)]
    rfl
  | fault e t =>
    rw [iterate?_of_inl (turn_eq_inl_iff.2 (.inr ⟨h, .inl ⟨e, t, hbody, rfl⟩⟩))]
    rfl
  | endless =>
    rw [iterate?_of_inl (turn_eq_inl_iff.2 (.inr ⟨h, .inr ⟨hbody, rfl⟩⟩))]
    rfl

/-- What holds of the end of a loop, by a property that every turn keeps. -/
theorem repeatUntil_induction {P : σ → Prop} {Q : Outcome σ Unit → Prop} (endless : Q .endless)
    (stop : ∀ s, P s → ended s = true → Q (.done () s))
    (fault : ∀ s e t, P s → ended s = false → body s = .fault e t → Q (.fault e t))
    (next : ∀ s t, P s → ended s = false → body s = .done () t → P t) (hs : P s) :
    Q (repeatUntil ended body s) := by
  have hanswer : ∀ o ∈ iterate? (turn ended body) s, Q o := by
    refine iterate?_induction (P := P) (fun s o hP h => ?_) (fun s t hP h => ?_) hs
    · rcases turn_eq_inl_iff.1 h with ⟨hended, rfl⟩ | ⟨hended, ⟨e, t, hbody, rfl⟩ | ⟨-, rfl⟩⟩
      · exact stop s hP hended
      · exact fault s e t hP hended hbody
      · exact endless
    · obtain ⟨hended, hbody⟩ := turn_eq_inr_iff.1 h
      exact next s t hP hended hbody
  rw [repeatUntil]
  cases hloop : iterate? (turn ended body) s with
  | none => exact endless
  | some o => exact hanswer o hloop

theorem leaves_repeatUntil {p : σ → Prop}
    (h : ∀ s, p s → ended s = false → (body s).Leaves p) (hs : p s) :
    (repeatUntil ended body s).Leaves p := by
  refine repeatUntil_induction (P := p) (Q := fun o => o.Leaves p) trivial (fun s hp _ => hp)
    (fun s e t hp hended hbody => ?_) (fun s t hp hended hbody => ?_) hs
  all_goals
    have hleaves := h s hp hended
    rwa [hbody] at hleaves

/-- Loops that go along with each other. -/
theorem repeatUntil_mapState {f : σ → τ} {ended' : τ → Bool} {body' : τ → Outcome τ Unit}
    (hended : ∀ s, ended' (f s) = ended s) (hbody : ∀ s, body' (f s) = (body s).mapState f)
    (s : σ) :
    repeatUntil ended' body' (f s) = (repeatUntil ended body s).mapState f := by
  have hloop : iterate? (turn ended' body') (f s) =
      (iterate? (turn ended body) s).map (mapState f) := by
    refine iterate?_of_turns (R := fun s t => t = f s) ?_ ?_ rfl
    · rintro s _ o rfl h
      rw [turn, hended, hbody]
      rcases turn_eq_inl_iff.1 h with ⟨hs, rfl⟩ | ⟨hs, ⟨e, t, hb, rfl⟩ | ⟨hb, rfl⟩⟩ 
      all_goals simp [*, mapState]
    · rintro s _ t rfl h
      obtain ⟨hs, hb⟩ := turn_eq_inr_iff.1 h
      exact ⟨f t, turn_eq_inr_iff.2 ⟨(hended s).trans hs, by rw [hbody, hb, mapState]⟩, rfl⟩
  rw [repeatUntil, repeatUntil, hloop]
  cases iterate? (turn ended body) s <;> rfl

end Outcome

end GameConsole
