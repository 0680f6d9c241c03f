import GameConsole.Numeral
import Mathlib.Algebra.Ring.Nat
import Mathlib.Data.List.Forall2
import Mathlib.Data.Nat.Digits.Defs
import Mathlib.Tactic.Ring

/-! Numerals that are read. The text of a word is a row of digits of either case, with or without a
plus sign, that stands for a number. Reading follows the text exactly: it gives the number if that
is a word, a text of a greater number is refused as too large however long it is, and every other
text is refused. Numerals that are written are such texts. -/

namespace GameConsole.Numeral

/-! ### Texts of numbers -/

/-- The digit of a value in a base, in either case. -/
def IsDigit (base : Nat) (c : Char) (d : Nat) : Prop :=
  d < base ∧ (c = d.digitChar ∨ c = d.digitChar.toUpper)

instance (base : Nat) (c : Char) (d : Nat) : Decidable (IsDigit base c d) :=
  inferInstanceAs (Decidable (_ ∧ _))

/-- Digits stand for a number, the first one for the greatest power of the base. -/
def Denotes (base : Nat) (digits : List Char) (n : Nat) : Prop :=
  ∃ values, List.Forall₂ (IsDigit base) digits values ∧ n = Nat.ofDigits base values.reverse

/-- A numeral: one digit or more, and perhaps one plus sign in front of them. -/
inductive Spelled (base : Nat) : List Char → Nat → Prop
  | plain {digits : List Char} {n : Nat} (some_digit : digits ≠ [])
    (denotes : Denotes base digits n) : Spelled base digits n
  | signed {digits : List Char} {n : Nat} (some_digit : digits ≠ [])
    (denotes : Denotes base digits n) : Spelled base ('+' :: digits) n

/-- The text of a number: hexadecimal after `0x`, or decimal. -/
inductive Written (s : String) (n : Nat) : Prop
  | hexadecimal {numeral : List Char} (text : s.toList = '0' :: 'x' :: numeral)
    (spelled : Spelled 16 numeral n) : Written s n
  | decimal (spelled : Spelled 10 s.toList n) : Written s n

section

variable {base limit acc n d : Nat} {c : Char} {cs : List Char}

theorem toNat_digitChar_letter (hd : d < 16) (hletter : 10 ≤ d) :
    d.digitChar.toNat = 87 + d ∧ d.digitChar.toUpper.toNat = 55 + d := by
  have hall : ∀ e ∈ List.range 16, 10 ≤ e →
      e.digitChar.toNat = 87 + e ∧ e.digitChar.toUpper.toNat = 55 + e := by decide
  exact hall d (List.mem_range.2 hd) hletter

theorem digitValue?_eq_some_iff (hbase : base ≤ 16) :
    digitValue? base c = some d ↔ IsDigit base c d := by
  constructor
  · intro h
    obtain ⟨hvalue, hd⟩ := Option.filter_eq_some_iff.1 h
    rw [decide_eq_true_eq] at hd
    simp only [Char.le_def, UInt32.le_iff_toNat_le] at hvalue
    refine ⟨hd, ?_⟩
    split_ifs at hvalue with hdigit hlower hupper
    · have hrange : 48 ≤ c.toNat ∧ c.toNat ≤ 57 := hdigit
      have hvalue' : c.toNat - 48 = d := Option.some_inj.1 hvalue
      left
      rw [← Char.toNat_inj, Nat.toNat_digitChar_of_lt_ten (by omega)]
      omega
    · have hrange : 97 ≤ c.toNat ∧ c.toNat ≤ 122 := hlower
      have hvalue' : c.toNat - 97 + 10 = d := Option.some_inj.1 hvalue
      left
      rw [← Char.toNat_inj, (toNat_digitChar_letter (by omega) (by omega)).1]
      omega
    · have hrange : 65 ≤ c.toNat ∧ c.toNat ≤ 90 := hupper
      have hvalue' : c.toNat - 65 + 10 = d := Option.some_inj.1 hvalue
      right
      rw [← Char.toNat_inj, (toNat_digitChar_letter (by omega) (by omega)).2]
      omega
  · rintro ⟨hd, hc⟩
    have hall : ∀ b ∈ List.range 17, ∀ e ∈ List.range b,
        digitValue? b e.digitChar = some e ∧ digitValue? b e.digitChar.toUpper = some e := by decide
    obtain ⟨hlower, hupper⟩ := hall base (List.mem_range.2 (by omega)) d (List.mem_range.2 hd)
    rcases hc with rfl | rfl
    · exact hlower
    · exact hupper

theorem denotes_nil_iff : Denotes base [] n ↔ n = 0 := by
  simp [Denotes]

theorem denotes_cons_iff : Denotes base (c :: cs) n ↔
    ∃ d m, IsDigit base c d ∧ Denotes base cs m ∧ n = d * base ^ cs.length + m := by
  constructor
  · rintro ⟨_ | ⟨d, values⟩, hdigits, rfl⟩
    · cases hdigits
    · obtain ⟨hd, hrest⟩ := List.forall₂_cons.1 hdigits
      refine ⟨d, _, hd, ⟨values, hrest, rfl⟩, ?_⟩
      rw [Nat.ofDigits_reverse_cons, hrest.length_eq]
      ring
  · rintro ⟨d, m, hd, ⟨values, hrest, rfl⟩, rfl⟩
    refine ⟨d :: values, .cons hd hrest, ?_⟩
    rw [Nat.ofDigits_reverse_cons, hrest.length_eq]
    ring

theorem Denotes.concat (h : Denotes base cs n) (hd : IsDigit base c d) :
    Denotes base (cs ++ [c]) (n * base + d) := by
  obtain ⟨values, hdigits, rfl⟩ := h
  refine ⟨values ++ [d], List.rel_append hdigits (.cons hd .nil), ?_⟩
  rw [List.reverse_append, List.reverse_singleton, List.singleton_append, Nat.ofDigits_cons]
  ring

/-! ### Reading -/

theorem Denotes.readDigits_eq (hbase : base ≤ 16) (h : Denotes base cs n) (hacc : acc < limit) :
    readDigits base limit acc cs =
      if acc * base ^ cs.length + n < limit then .ok (acc * base ^ cs.length + n)
      else .error .tooLarge := by
  induction cs generalizing acc n with
  | nil =>
    obtain rfl := denotes_nil_iff.1 h
    simp [readDigits, hacc]
  | cons c cs ih =>
    obtain ⟨d, m, hd, hrest, rfl⟩ := denotes_cons_iff.1 h
    have hvalue : acc * base ^ (c :: cs).length + (d * base ^ cs.length + m) =
        (acc * base + d) * base ^ cs.length + m := by
      rw [List.length_cons]
      ring
    rw [readDigits, (digitValue?_eq_some_iff hbase).2 hd, hvalue]
    by_cases hnext : acc * base + d < limit
    · simp only [if_pos hnext]
      exact ih hrest hnext
    · -- The number is no less than what its first digits make.
      have hpow : 0 < base ^ cs.length := Nat.pow_pos (by have := hd.1; omega)
      have hle := Nat.le_mul_of_pos_right (acc * base + d) hpow
      simp only [if_neg hnext]
      rw [if_neg (by omega)]

theorem exists_denotes_of_readDigits (hbase : base ≤ 16)
    (h : readDigits base limit acc cs = .ok n) : ∃ m, Denotes base cs m := by
  induction cs generalizing acc with
  | nil => exact ⟨0, denotes_nil_iff.2 rfl⟩
  | cons c cs ih =>
    rw [readDigits] at h
    split at h
    · cases h
    · rename_i d hd
      simp only at h
      split at h
      · obtain ⟨m, hrest⟩ := ih h
        exact ⟨_, denotes_cons_iff.2 ⟨d, m, (digitValue?_eq_some_iff hbase).1 hd, hrest, rfl⟩⟩
      · cases h

/-- A character without a value in base sixteen is no digit of a smaller base either. -/
theorem not_isDigit (hbase : base ≤ 16) (hc : digitValue? 16 c = none) : ¬ IsDigit base c d := by
  rintro ⟨hd, hchar⟩
  have hvalue := (digitValue?_eq_some_iff le_rfl).2 (⟨by omega, hchar⟩ : IsDigit 16 c d)
  rw [hc] at hvalue
  cases hvalue

theorem Denotes.not_mem (hbase : base ≤ 16) (h : Denotes base cs n) (hc : digitValue? 16 c = none) :
    c ∉ cs := by
  induction cs generalizing n with
  | nil => exact List.not_mem_nil
  | cons a cs ih =>
    obtain ⟨d, m, hd, hrest, -⟩ := denotes_cons_iff.1 h
    rw [List.mem_cons, not_or]
    refine ⟨?_, ih hrest⟩
    rintro rfl
    exact not_isDigit hbase hc hd

theorem Spelled.read_eq (hbase : base ≤ 16) (hlimit : 0 < limit) (h : Spelled base cs n) :
    read base limit cs = if n < limit then .ok n else .error .tooLarge := by
  have hread {digits : List Char} (hdigits : Denotes base digits n) :
      readDigits base limit 0 digits = if n < limit then .ok n else .error .tooLarge := by
    rw [hdigits.readDigits_eq hbase hlimit, Nat.zero_mul, Nat.zero_add]
  cases h with
  | plain some_digit denotes =>
    obtain ⟨c, cs, rfl⟩ := List.exists_cons_of_ne_nil some_digit
    obtain ⟨d, m, hd, -, -⟩ := denotes_cons_iff.1 denotes
    have hplus : c ≠ '+' := by
      rintro rfl
      exact not_isDigit hbase (by decide) hd
    rw [← hread denotes]
    simp [read, hplus]
  | signed some_digit denotes =>
    obtain ⟨c, cs, rfl⟩ := List.exists_cons_of_ne_nil some_digit
    exact hread denotes

theorem exists_spelled_of_read (hbase : base ≤ 16) (h : read base limit cs = .ok n) :
    ∃ m, Spelled base cs m := by
  unfold read at h
  split at h
  · cases h
  · cases h
  · rename_i digits hne
    obtain ⟨m, hdigits⟩ := exists_denotes_of_readDigits hbase h
    exact ⟨m, .signed (fun hnil => hne (hnil ▸ rfl)) hdigits⟩
  · rename_i hne _ _
    obtain ⟨m, hdigits⟩ := exists_denotes_of_readDigits hbase h
    exact ⟨m, .plain (fun hnil => hne hnil) hdigits⟩

end

/-- After `0x` there is no decimal numeral. -/
theorem not_spelled_marker {numeral : List Char} {n : Nat} :
    ¬ Spelled 10 ('0' :: 'x' :: numeral) n := by
  rintro (⟨-, hdigits⟩ | _)
  obtain ⟨_, _, -, hrest, -⟩ := denotes_cons_iff.1 hdigits
  obtain ⟨_, _, hx, -, -⟩ := denotes_cons_iff.1 hrest
  exact not_isDigit (by decide) (by decide) hx

/-- The characters of the text of a number are digits, the plus sign and the letter of the
marker. -/
theorem Written.not_mem {s : String} {n : Nat} {c : Char} (h : Written s n)
    (hc : digitValue? 16 c = none) (hplus : c ≠ '+') (hx : c ≠ 'x') : c ∉ s.toList := by
  have hspelled {base : Nat} {cs : List Char} (hbase : base ≤ 16) (hcs : Spelled base cs n) :
      c ∉ cs := by
    cases hcs with
    | plain _ denotes => exact denotes.not_mem hbase hc
    | signed _ denotes => simp [hplus, denotes.not_mem hbase hc]
  cases h with
  | hexadecimal text spelled =>
    have hzero : c ≠ '0' := by
      rintro rfl
      cases hc
    simp [text, hzero, hx, hspelled le_rfl spelled]
  | decimal spelled => exact hspelled (by decide) spelled

theorem Written.readWord_eq {s : String} {n : Nat} (h : Written s n) :
    readWord s = if n < UInt32.size then .ok (.ofNat n) else .error .tooLarge := by
  cases h with
  | hexadecimal text spelled =>
    simp only [readWord, text, spelled.read_eq (by decide) (by decide : 0 < UInt32.size)]
    split <;> rfl
  | decimal spelled =>
    have hread := spelled.read_eq (by decide) (by decide : 0 < UInt32.size)
    unfold readWord
    split
    · rename_i numeral htext
      rw [htext] at spelled
      exact absurd spelled not_spelled_marker
    · rw [hread]
      split <;> rfl

theorem exists_written_of_readWord {s : String} {w : UInt32} (h : readWord s = .ok w) :
    ∃ n, Written s n := by
  unfold readWord at h
  split at h
  · rename_i numeral htext
    cases hread : read 16 UInt32.size numeral with
    | error e => simp [hread, Except.map] at h
    | ok n =>
      obtain ⟨m, hspelled⟩ := exists_spelled_of_read (by decide) hread
      exact ⟨m, .hexadecimal htext hspelled⟩
  · cases hread : read 10 UInt32.size s.toList with
    | error e => simp [hread, Except.map] at h
    | ok n =>
      obtain ⟨m, hspelled⟩ := exists_spelled_of_read (by decide) hread
      exact ⟨m, .decimal hspelled⟩

theorem readWord_of_written {s : String} {w : UInt32} (h : Written s w.toNat) :
    readWord s = .ok w := by
  rw [h.readWord_eq, if_pos w.toNat_lt, UInt32.ofNat_toNat]

theorem written_of_readWord {s : String} {w : UInt32} (h : readWord s = .ok w) :
    Written s w.toNat := by
  obtain ⟨n, hn⟩ := exists_written_of_readWord h
  rw [hn.readWord_eq] at h
  split at h
  · rename_i hlt
    obtain rfl : UInt32.ofNat n = w := Except.ok.inj h
    rwa [UInt32.toNat_ofNat_of_lt' hlt]
  · cases h

/-! ### Writing -/

section

variable {base n : Nat} {cs : List Char}

theorem denotes_toDigits (hlow : 1 < base) (n : Nat) : Denotes base (Nat.toDigits base n) n := by
  induction n using Nat.strong_induction_on with
  | h n ih =>
    rw [Nat.toDigits_eq_if hlow]
    split
    · rename_i hlt
      simpa using (denotes_nil_iff.2 rfl).concat (⟨hlt, .inl rfl⟩ : IsDigit base n.digitChar n)
    · rename_i hge
      have hdiv : n / base < n := Nat.div_lt_self (by omega) hlow
      have hdigit : IsDigit base (n % base).digitChar (n % base) :=
        ⟨Nat.mod_lt n (by omega), .inl rfl⟩
      simpa only [Nat.div_add_mod'] using (ih _ hdiv).concat hdigit

theorem Denotes.zeros_append (hbase : 0 < base) (h : Denotes base cs n) (k : Nat) :
    Denotes base (List.replicate k '0' ++ cs) n := by
  induction k with
  | zero => exact h
  | succ k ih => exact denotes_cons_iff.2 ⟨0, n, ⟨hbase, .inl rfl⟩, ih, by simp⟩

theorem Denotes.map_toUpper (hbase : base ≤ 16) (h : Denotes base cs n) :
    Denotes base (cs.map Char.toUpper) n := by
  obtain ⟨values, hdigits, rfl⟩ := h
  refine ⟨values, List.forall₂_map_left_iff.2 (hdigits.imp fun c d hc => ⟨hc.1, .inr ?_⟩), rfl⟩
  have hall : ∀ e ∈ List.range 16, e.digitChar.toUpper.toUpper = e.digitChar.toUpper := by decide
  rcases hc.2 with rfl | rfl
  · rfl
  · exact hall d (List.mem_range.2 (hc.1.trans_le hbase))

end

theorem written_hexPadded (width n : Nat) : Written (hexPadded width n) n := by
  have htext : (hexPadded width n).toList = '0' :: 'x' :: hexDigits width n := by simp [hexPadded]
  refine .hexadecimal htext (.plain ?_ ?_)
  · simp [hexDigits]
  · exact (denotes_toDigits (by decide) n).zeros_append (by decide) _

theorem written_hexUpper (n : Nat) : Written (hexUpper n) n := by
  have htext : (hexUpper n).toList = '0' :: 'x' :: (Nat.toDigits 16 n).map Char.toUpper := by
    simp [hexUpper]
  refine .hexadecimal htext (.plain ?_ ?_)
  · simp
  · exact (denotes_toDigits (by decide) n).map_toUpper (by decide)

theorem written_toString (n : Nat) : Written (toString n) n := by
  refine .decimal (.plain ?_ ?_)
  · simp
  · simpa using denotes_toDigits (by decide) n

/-- A text is read as a word exactly if it is written for the number of that word, as all texts are
that words are printed as. -/
theorem readWord_eq_ok_iff :
    (∀ (s : String) (w : UInt32), readWord s = .ok w ↔ Written s w.toNat) ∧
    (∀ (s : String) (n : Nat), Written s n →
      readWord s = if n < 2 ^ 32 then .ok (.ofNat n) else .error .tooLarge) ∧
    ∀ w : UInt32, readWord (hex w.toNat) = .ok w ∧ readWord (hexUpper w.toNat) = .ok w ∧
      (∀ width, readWord (hexPadded width w.toNat) = .ok w) ∧
      readWord (toString w.toNat) = .ok w :=
  ⟨fun _ _ => ⟨written_of_readWord, readWord_of_written⟩, fun _ _ h => h.readWord_eq,
    fun _ => ⟨readWord_of_written (written_hexPadded 1 _), readWord_of_written (written_hexUpper _),
      fun width => readWord_of_written (written_hexPadded width _),
      readWord_of_written (written_toString _)⟩⟩

/-- A plus sign and zeros in front of the greatest word in digits of both cases, and the first
number that is none. -/
theorem readWord_eq_ok_iff_greatest :
    readWord "0x+00FFFFffff" = .ok 0xFFFFFFFF ∧ readWord "4294967296" = .error .tooLarge := by
  obtain ⟨hok, hgreater, -⟩ := readWord_eq_ok_iff
  have hgreatest : Denotes 16 "00FFFFffff".toList 0xFFFFFFFF :=
    ⟨[0, 0, 15, 15, 15, 15, 15, 15, 15, 15], by decide, by decide⟩
  have hnext : Denotes 10 "4294967296".toList 0x100000000 :=
    ⟨[4, 2, 9, 4, 9, 6, 7, 2, 9, 6], by decide, by decide⟩
  exact ⟨(hok _ _).2 (.hexadecimal rfl (.signed (by decide) hgreatest)),
    hgreater _ _ (.decimal (.plain (by decide) hnext))⟩

end GameConsole.Numeral
