import GameConsole.Proofs.Gpu.CommandStream

/-! Where a command cannot be drawn. Of a stream of words all are fed that come before the last
word of such a command, then this word, and none behind it. The renderer is left as the drawing
that failed leaves it, and the pipe is idle. -/

namespace GameConsole

theorem Reading.advance_snd {unfinished : List UInt32} {word : UInt32} {token : Token}
    (h : (advance unfinished word).1 = some token) : (advance unfinished word).2 = [] := by
  have hclose {first : UInt32} {rest : List UInt32} (h : (close first rest).1 = some token) :
      (close first rest).2 = [] := by
    unfold close at h ⊢
    split_ifs at h ⊢
    rfl
  cases unfinished with
  | nil =>
    simp only [advance] at h ⊢
    split_ifs at h ⊢
    · rfl
    · exact hclose h
  | cons first rest => exact hclose h

namespace Pipe

/-- The words of the unfinished command in the pipe. -/
def held (p : Pipe) : List UInt32 := p.words.toList.take p.row

theorem Holds.eq_held {p : Pipe} {ws : List UInt32} (h : p.Holds ws) : ws = p.held := by
  rw [held, h.row, h.words]

theorem Reachable.holds_held {p : Pipe} (h : p.Reachable) : p.Holds p.held := by
  obtain ⟨ws, hws⟩ := h.holds
  rw [← hws.eq_held]
  exact hws

theorem Holds.ofWords {p : Pipe} {ws : List UInt32} (h : p.Holds ws) :
    Reading.ofWords ws = ⟨[], ws⟩ := by
  cases ws with
  | nil => exact Reading.ofWords_nil
  | cons first rest =>
    have hshort := h.short (List.cons_ne_nil first rest)
    rw [h.size, neededWords, List.length_cons] at hshort
    exact Reading.ofWords_unfinished hshort

end Pipe

namespace Gpu

variable {ρ : Type} [Renderer ρ] {g g' : Gpu ρ} {cause : Fault}

/-- A word is refused only if it completes a command that cannot be drawn. -/
theorem exists_draw_of_feed {word : UInt32} (h : g.feed word = .fault cause g') :
    ∃ command, (g.pipe.push word).2 = some command ∧
      Renderer.draw g.renderer command = (.error cause, g'.renderer) ∧
      g'.pipe = (g.pipe.push word).1 ∧ g'.status = g.status := by
  rw [feed_eq] at h
  cases hpush : (g.pipe.push word).2 with
  | none =>
    rw [hpush] at h
    cases h
  | some command =>
    rw [hpush, Option.toList_some, drawAll] at h
    cases hdraw : Outcome.ofAnswer (Renderer.draw g.renderer command) with
    | done u r =>
      rw [hdraw] at h
      cases h
    | endless =>
      rw [hdraw] at h
      cases h
    | fault e r =>
      rw [hdraw] at h
      cases h
      exact ⟨command, rfl, Outcome.ofAnswer_eq_fault_iff.1 hdraw, rfl, rfl⟩

/-- A stream stops at the first word that is refused. -/
theorem exists_feed_of_feedAll {words : List UInt32} (h : g.feedAll words = .fault cause g') :
    ∃ before word after g₁, words = before ++ word :: after ∧
      g.feedAll before = .done () g₁ ∧ g₁.feed word = .fault cause g' := by
  induction words generalizing g with
  | nil => cases h
  | cons first words ih =>
    rw [feedAll] at h
    cases hfeed : g.feed first with
    | fault e g₁ =>
      rw [hfeed] at h
      cases h
      exact ⟨[], first, words, g, rfl, rfl, hfeed⟩
    | endless =>
      rw [hfeed] at h
      cases h
    | done u g₁ =>
      rw [hfeed] at h
      obtain ⟨before, word, after, g₂, rfl, hbefore, hword⟩ := ih h
      refine ⟨first :: before, word, after, g₂, rfl, ?_, hword⟩
      rw [feedAll, hfeed]
      exact hbefore

/-- The command that a word completes is refused with the word. -/
theorem feed_of_draw {word : UInt32} {command : Packet} {r : ρ}
    (hpush : (g.pipe.push word).2 = some command)
    (hdraw : Renderer.draw g.renderer command = (.error cause, r)) :
    g.feed word = .fault cause { g with pipe := (g.pipe.push word).1, renderer := r } := by
  rw [feed_eq, hpush, Option.toList_some, drawAll, Outcome.ofAnswer_eq_fault_iff.2 hdraw]
  rfl

theorem feed_ne_endless (g : Gpu ρ) (word : UInt32) : g.feed word ≠ .endless := by
  rw [feed_eq]
  cases (g.pipe.push word).2 with
  | none => simp [drawAll, Outcome.mapState]
  | some command =>
    rw [Option.toList_some, drawAll]
    rcases Renderer.draw g.renderer command with ⟨_ | _, r⟩ <;> simp [Outcome.ofAnswer, drawAll,
      Outcome.mapState]

theorem feedAll_ne_endless (g : Gpu ρ) (words : List UInt32) : g.feedAll words ≠ .endless := by
  induction words generalizing g with
  | nil => simp [feedAll]
  | cons word words ih =>
    rw [feedAll]
    cases hfeed : g.feed word with
    | done u g' => exact ih g'
    | fault e g' => simp
    | endless => exact absurd hfeed (g.feed_ne_endless word)

/-- A GPU with an unfinished command in its pipe follows the words of that command. -/
theorem follows_held (hholds : g.pipe.Holds g.pipe.held) :
    Follows g.status g.renderer g.pipe.held g where
  status := rfl
  drawn := by
    rw [hholds.ofWords]
    rfl
  holds := by
    rw [hholds.ofWords]
    exact hholds

/-- A refused word completes one more command of the reading, and leaves the pipe idle. -/
theorem Follows.refused {status : UInt32} {r : ρ} {words : List UInt32} {word : UInt32}
    (h : Follows status r words g) (hfeed : g.feed word = .fault cause g') :
    ∃ command,
      (Reading.ofWords (words ++ [word])).packets = (Reading.ofWords words).packets ++ [command] ∧
      Renderer.draw g.renderer command = (.error cause, g'.renderer) ∧
      g'.pipe.isIdle = true ∧ g'.status = status := by
  obtain ⟨command, hpush, hdraw, hpipe, hstatus⟩ := exists_draw_of_feed hfeed
  obtain ⟨hholds, hout⟩ := h.holds.push word
  rw [hpush] at hout
  obtain ⟨token, htoken, -⟩ := Option.bind_eq_some_iff.1 hout.symm
  refine ⟨command, ?_, hdraw, ?_, hstatus.trans h.status⟩
  · rw [Reading.packets_snoc, ← hout]
    rfl
  · rw [hpipe, hholds.isIdle_iff]
    exact Reading.advance_snd htoken

end Gpu

end GameConsole
