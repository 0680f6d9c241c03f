import GameConsole.Fault
import GameConsole.Loop

/-! The end of an operation that may halt. The state is kept in either case, because a fault
leaves the console as far as the operation got. An operation that goes on for ever has no end, and
leaves no state. -/

namespace GameConsole

inductive Outcome (σ α : Type)
  | done (value : α) (state : σ)
  | fault (cause : Fault) (state : σ)
  /-- The operation never comes back. -/
  | endless

namespace Outcome

variable {σ τ α β : Type}

/-- The state that is left, if the operation comes back. -/
def state? : Outcome σ α → Option σ
  | done _ s | fault _ s => some s
  | endless => none

/-- What is answered, if the operation comes back. -/
def result? : Outcome σ α → Option (Except Fault α)
  | done a _ => some (.ok a)
  | fault e _ => some (.error e)
  | endless => none

/-- The state that is left has this property, if there is one. -/
def Leaves : Outcome σ α → (σ → Prop) → Prop
  | done _ s, p | fault _ s, p => p s
  | endless, _ => True

@[inline] def mapState (f : σ → τ) : Outcome σ α → Outcome τ α
  | done a s => .done a (f s)
  | fault e s => .fault e (f s)
  | endless => .endless

/-- Goes on where an operation has ended, unless it was halted. -/
@[inline] def andThen (o : Outcome σ α) (next : α → σ → Outcome σ β) : Outcome σ β :=
  match o with
  | done a s => next a s
  | fault e s => fault e s
  | endless => endless

/-- The end of an operation that always comes back, by its answer and the state that it leaves. -/
@[inline] def ofAnswer : Except Fault α × σ → Outcome σ α
  | (.ok a, s) => .done a s
  | (.error e, s) => .fault e s

/-- One turn of a loop: it is over, or goes on with the state that the body leaves. -/
@[inline] def turn (ended : σ → Bool) (body : σ → Outcome σ Unit) (s : σ) :
    Sum (Outcome σ Unit) σ :=
  if ended s then .inl (done () s)
  else
    match body s with
    | done _ s => .inr s
    | fault e s => .inl (fault e s)
    | endless => .inl endless

/-- Repeats an operation until `ended` holds of the state, for ever if it never does. -/
@[specialize]
def repeatUntil (ended : σ → Bool) (body : σ → Outcome σ Unit) (s : σ) : Outcome σ Unit :=
  (iterate? (turn ended body) s).getD endless

@[simp] theorem done_andThen (a : α) (s : σ) (next : α → σ → Outcome σ β) :
    (done a s).andThen next = next a s := rfl

@[simp] theorem fault_andThen (e : Fault) (s : σ) (next : α → σ → Outcome σ β) :
    (fault e s : Outcome σ α).andThen next = fault e s := rfl

@[simp] theorem endless_andThen (next : α → σ → Outcome σ β) :
    (endless : Outcome σ α).andThen next = endless := rfl

@[simp] theorem mapState_ofAnswer (f : σ → τ) (answer : Except Fault α × σ) :
    (ofAnswer answer).mapState f = ofAnswer (answer.map id f) := by
  obtain ⟨_ | _, s⟩ := answer <;> rfl

theorem ofAnswer_eq_fault_iff {answer : Except Fault α × σ} {e : Fault} {s : σ} :
    ofAnswer answer = .fault e s ↔ answer = (.error e, s) := by
  obtain ⟨_ | _, s⟩ := answer <;> simp [ofAnswer]

theorem mapState_done (f : σ → τ) (a : α) (s : σ) : (done a s).mapState f = done a (f s) := rfl

theorem andThen_assoc {γ : Type} (o : Outcome σ α) (f : α → σ → Outcome σ β)
    (g : β → σ → Outcome σ γ) :
    (o.andThen f).andThen g = o.andThen fun a s => (f a s).andThen g := by cases o <;> rfl

theorem andThen_eq_done_iff {o : Outcome σ α} {next : α → σ → Outcome σ β} {b : β} {t : σ} :
    o.andThen next = .done b t ↔ ∃ a s, o = .done a s ∧ next a s = .done b t := by
  cases o with
  | done a s =>
    constructor
    · exact fun h => ⟨a, s, rfl, h⟩
    · rintro ⟨a', s', h, hnext⟩
      cases h
      exact hnext
  | fault e s => simp
  | endless => simp

theorem andThen_eq_fault_iff {o : Outcome σ α} {next : α → σ → Outcome σ β} {e : Fault} {t : σ} :
    o.andThen next = .fault e t ↔
      o = .fault e t ∨ ∃ a s, o = .done a s ∧ next a s = .fault e t := by
  cases o with
  | done a s =>
    constructor
    · exact fun h => .inr ⟨a, s, rfl, h⟩
    · rintro (h | ⟨a', s', h, hnext⟩)
      · cases h
      · cases h
        exact hnext
  | fault e' s => simp
  | endless => simp

theorem mapState_eq_done_iff {f : σ → τ} {o : Outcome σ α} {a : α} {t : τ} :
    o.mapState f = .done a t ↔ ∃ s, o = .done a s ∧ f s = t := by
  cases o <;> simp [mapState, and_assoc]

theorem mapState_eq_fault_iff {f : σ → τ} {o : Outcome σ α} {e : Fault} {t : τ} :
    o.mapState f = .fault e t ↔ ∃ s, o = .fault e s ∧ f s = t := by
  cases o <;> simp [mapState, and_assoc]

theorem mapState_eq_endless_iff {f : σ → τ} {o : Outcome σ α} :
    o.mapState f = .endless ↔ o = .endless := by cases o <;> simp [mapState]

@[simp] theorem state?_mapState (f : σ → τ) (o : Outcome σ α) :
    (o.mapState f).state? = o.state?.map f := by cases o <;> rfl

@[simp] theorem leaves_mapState (f : σ → τ) (p : τ → Prop) (o : Outcome σ α) :
    (o.mapState f).Leaves p ↔ o.Leaves fun s => p (f s) := by cases o <;> rfl

theorem leaves_iff {o : Outcome σ α} {p : σ → Prop} : o.Leaves p ↔ ∀ s ∈ o.state?, p s := by
  cases o <;> simp [Leaves, state?]

theorem leaves_ofAnswer {answer : Except Fault α × σ} {p : σ → Prop} :
    (ofAnswer answer).Leaves p ↔ p answer.2 := by
  obtain ⟨_ | _, s⟩ := answer <;> rfl

theorem Leaves.mono {o : Outcome σ α} {p q : σ → Prop} (h : o.Leaves p) (hpq : ∀ s, p s → q s) :
    o.Leaves q := by
  cases o with
  | done a s => exact hpq s h
  | fault e s => exact hpq s h
  | endless => trivial

/-- A property of the state is kept by one operation after the other. -/
theorem Leaves.andThen {o : Outcome σ α} {next : α → σ → Outcome σ β} {p q : σ → Prop}
    (h : o.Leaves p) (hfault : ∀ s, p s → q s) (hnext : ∀ a s, p s → (next a s).Leaves q) :
    (o.andThen next).Leaves q := by
  cases o with
  | done a s => exact hnext a s h
  | fault e s => exact hfault s h
  | endless => trivial

end Outcome

end GameConsole
