import GameConsole.Cpu.Assembly
import GameConsole.Proofs.Numeral.Reading
import Mathlib.Data.Fintype.Basic

/-! Assembly text that is read back. A line is cut into words at its spaces: the first one is the
mnemonic, and the others are the operands when their commas are taken away. Each kind of operand is
read as what it was written for, and so is each instruction, so different instructions have
different texts. -/

namespace GameConsole

/-! ### Readers -/

/-- The register with this text. -/
def Register.named? (s : String) : Option Register :=
  ((List.finRange 32).map Register.mk).find? (·.text = s)

namespace Numeral

def number? (s : String) : Option Nat := (readWord s).toOption.map UInt32.toNat

/-- A number that may have a minus sign. -/
def signed? (s : String) : Option Int :=
  match s.toList with
  | '-' :: digits => (number? (.ofList digits)).map fun n => -(n : Int)
  | _ => (number? s).map fun n => (n : Int)

end Numeral

namespace Instruction

open Register (named?)
open Numeral

/-- A number, if it fits the field. -/
def field? (size n : Nat) : Option (Fin size) := if h : n < size then some ⟨n, h⟩ else none

def shamt? (s : String) : Option (Fin 32) := do field? 32 (← number? s)

/-- A jump target, from its address. -/
def target? (s : String) : Option (Fin 0x4000000) := do field? _ ((← number? s) / 4)

def immediate? (s : String) : Option UInt16 := (number? s).map .ofNat

def offset? (s : String) : Option Int16 := (signed? s).map .ofInt

/-- A branch offset, from its number of bytes. -/
def branchOffset? (s : String) : Option Int16 := (signed? s).map fun n => .ofInt (n / 4)

/-- An offset, and a base register in parentheses. -/
def place? (s : String) : Option (Register × Int16) :=
  match s.toList.splitOn '(' with
  | [offset, base] => do
    return (← named? (.ofList (base.filter (· ≠ ')'))), ← offset? (.ofList offset))
  | _ => none

section

variable {α β γ : Type} (a? : String → Option α) (b? : String → Option β) (c? : String → Option γ)

/-- What a constructor makes of its one operand, which is read first. -/
def ofOne? (f : α → Instruction) : List String → Option Instruction
  | [a] => do return f (← a? a)
  | _ => none

def ofTwo? (f : α → β → Instruction) : List String → Option Instruction
  | [a, b] => do return f (← a? a) (← b? b)
  | _ => none

def ofThree? (f : α → β → γ → Instruction) : List String → Option Instruction
  | [a, b, c] => do return f (← a? a) (← b? b) (← c? c)
  | _ => none

end

/-- The instruction with this mnemonic and these operands. -/
def assemble? : List String → Option Instruction
  | ["nop"] => some nop
  | "sll" :: operands => ofThree? named? named? shamt? sll operands
  | "srl" :: operands => ofThree? named? named? shamt? srl operands
  | "jr" :: operands => ofOne? named? jr operands
  | "and" :: operands => ofThree? named? named? named? and operands
  | "or" :: operands => ofThree? named? named? named? or operands
  | "j" :: operands => ofOne? target? j operands
  | "jal" :: operands => ofOne? target? jal operands
  | "beq" :: operands => ofThree? named? named? branchOffset? beq operands
  | "bne" :: operands => ofThree? named? named? branchOffset? bne operands
  | "bgtz" :: operands => ofTwo? named? branchOffset? bgtz operands
  | "addiu" :: operands => ofThree? named? named? offset? addiu operands
  | "slti" :: operands => ofThree? named? named? offset? slti operands
  | "andi" :: operands => ofThree? named? named? immediate? andi operands
  | "ori" :: operands => ofThree? named? named? immediate? ori operands
  | "lui" :: operands => ofTwo? named? immediate? lui operands
  | "lh" :: operands => ofTwo? named? place? (fun rt place => lh rt place.1 place.2) operands
  | "lw" :: operands => ofTwo? named? place? (fun rt place => lw rt place.1 place.2) operands
  | "lbu" :: operands => ofTwo? named? place? (fun rt place => lbu rt place.1 place.2) operands
  | "sb" :: operands => ofTwo? named? place? (fun rt place => sb rt place.1 place.2) operands
  | "sh" :: operands => ofTwo? named? place? (fun rt place => sh rt place.1 place.2) operands
  | "sw" :: operands => ofTwo? named? place? (fun rt place => sw rt place.1 place.2) operands
  | _ => none

/-- The words of a line, without the commas behind them. -/
def lineWords (s : String) : List String :=
  (s.toList.splitOn ' ').map fun word => .ofList (word.filter (· ≠ ','))

/-- The instruction that is written in a line. -/
def ofText? (s : String) : Option Instruction := assemble? (lineWords s)

end Instruction

/-! ### Operands -/

/-- Characters that operands are kept apart by. -/
def separators : List Char := [' ', ',', '(', ')']

theorem Register.named?_text (r : Register) : named? r.text = some r := by
  have hall : ∀ i : Fin 32, named? (mk i).text = some ⟨i⟩ := by decide
  exact hall r.index

theorem Register.not_mem_text (r : Register) {c : Char} (hc : c ∈ separators) :
    c ∉ r.text.toList := by
  have hall : ∀ i : Fin 32, separators.all (· ∉ (mk i).text.toList) := by decide
  exact of_decide_eq_true (List.all_eq_true.1 (hall r.index) c hc)

namespace Numeral

theorem number?_of_written {s : String} {n : Nat} (h : Written s n) (hn : n < 2 ^ 32) :
    number? s = some n := by
  rw [number?, h.readWord_eq, if_pos (show n < UInt32.size from hn)]
  simp only [Except.toOption, Option.map_some, UInt32.toNat_ofNat_of_lt' hn]

theorem Written.not_mem_of_separator {s : String} {n : Nat} (h : Written s n) {c : Char}
    (hc : c ∈ separators) : c ∉ s.toList := by
  have hall : separators.all fun c => digitValue? 16 c = none ∧ c ≠ '+' ∧ c ≠ 'x' := by decide
  obtain ⟨hdigit, hplus, hx⟩ := of_decide_eq_true (List.all_eq_true.1 hall c hc)
  exact h.not_mem hdigit hplus hx

theorem toList_toString_negSucc (n : Nat) :
    (toString (Int.negSucc n)).toList = '-' :: (toString (n + 1)).toList := by
  rw [Int.toString_eq_repr, Int.repr]
  simp

theorem signed?_toString {n : Int} (hn : n.natAbs < 2 ^ 32) :
    signed? (toString n) = some n := by
  cases n with
  | ofNat n =>
    have hminus : '-' ∉ (toString n).toList :=
      (written_toString n).not_mem (by decide) (by decide) (by decide)
    change signed? (toString n) = _
    unfold signed?
    split
    · rename_i digits hdigits
      exact absurd (hdigits ▸ List.mem_cons_self) hminus
    · rw [number?_of_written (written_toString n) hn]
      rfl
  | negSucc n =>
    simp only [signed?, toList_toString_negSucc, String.ofList_toList,
      number?_of_written (written_toString (n + 1)) hn]
    rfl

theorem not_mem_toString_int (n : Int) {c : Char} (hc : c ∈ separators) :
    c ∉ (toString n).toList := by
  cases n with
  | ofNat n => exact (written_toString n).not_mem_of_separator hc
  | negSucc n =>
    have hminus : c ≠ '-' := by
      rintro rfl
      simp [separators] at hc
    rw [toList_toString_negSucc, List.mem_cons, not_or]
    exact ⟨hminus, (written_toString (n + 1)).not_mem_of_separator hc⟩

end Numeral

namespace Instruction

open Numeral

theorem field?_val {size : Nat} (i : Fin size) : field? size i.val = some i := dif_pos i.isLt

theorem shamt?_toString (shamt : Fin 32) : shamt? (toString shamt.val) = some shamt := by
  rw [shamt?, number?_of_written (written_toString _) (by omega)]
  exact field?_val shamt

theorem target?_hex (target : Fin 0x4000000) : target? (hex (target.val * 4)) = some target := by
  rw [target?, hex, number?_of_written (written_hexPadded 1 _) (by omega)]
  simp only [Option.bind_eq_bind, Option.bind_some,
    Nat.mul_div_cancel target.val (by decide : 0 < 4)]
  exact field?_val target

theorem immediate?_hex (imm : UInt16) : immediate? (hex imm.toNat) = some imm := by
  have hlt := imm.toNat_lt
  rw [immediate?, hex, number?_of_written (written_hexPadded 1 _) (by omega)]
  simp

theorem offset?_toString (offset : Int16) : offset? (toString offset.toInt) = some offset := by
  have hlow := offset.le_toInt
  have hhigh := offset.toInt_lt
  rw [offset?, signed?_toString (by omega)]
  simp

theorem branchOffset?_bytesText (offset : Int16) :
    branchOffset? (bytesText offset) = some offset := by
  have hlow := offset.le_toInt
  have hhigh := offset.toInt_lt
  rw [branchOffset?, bytesText, signed?_toString (by omega)]
  simp

theorem place?_placeText (base : Register) (offset : Int16) :
    place? (placeText base offset) = some (base, offset) := by
  have hoffset : '(' ∉ (toString offset.toInt).toList := not_mem_toString_int _ (by decide)
  have hbase : '(' ∉ base.text.toList ++ [')'] := by
    simp [base.not_mem_text (show '(' ∈ separators by decide)]
  have htext : (placeText base offset).toList =
      (toString offset.toInt).toList ++ '(' :: (base.text.toList ++ [')']) := by
    simp [placeText]
  have hclosed : (base.text.toList ++ [')']).filter (· ≠ ')') = base.text.toList := by
    have hkept : ∀ c ∈ base.text.toList, decide (c ≠ ')') = true := by
      intro c hc
      refine decide_eq_true ?_
      rintro rfl
      exact base.not_mem_text (by decide) hc
    rw [List.filter_append, List.filter_eq_self.2 hkept]
    simp
  rw [place?, htext, List.splitOn_append_cons_self_of_not_mem hoffset,
    List.splitOn_eq_singleton hbase]
  simp only [hclosed, String.ofList_toList, base.named?_text, offset?_toString]
  rfl

section

variable {α β γ : Type} {a? : String → Option α} {b? : String → Option β} {c? : String → Option γ}
  {a b c : String} {x : α} {y : β} {z : γ}

theorem ofOne?_eq_some {f : α → Instruction} (ha : a? a = some x) :
    ofOne? a? f [a] = some (f x) := by
  simp [ofOne?, ha]

theorem ofTwo?_eq_some {f : α → β → Instruction} (ha : a? a = some x) (hb : b? b = some y) :
    ofTwo? a? b? f [a, b] = some (f x y) := by
  simp [ofTwo?, ha, hb]

theorem ofThree?_eq_some {f : α → β → γ → Instruction} (ha : a? a = some x) (hb : b? b = some y)
    (hc : c? c = some z) : ofThree? a? b? c? f [a, b, c] = some (f x y z) := by
  simp [ofThree?, ha, hb, hc]

end

/-! ### Lines -/

/-- A text that can stand between the separators of a line. -/
structure Plain (s : String) : Prop where
  no_space : ' ' ∉ s.toList
  no_comma : ',' ∉ s.toList

instance (s : String) : Decidable (Plain s) :=
  decidable_of_iff (' ' ∉ s.toList ∧ ',' ∉ s.toList) ⟨fun h => ⟨h.1, h.2⟩, fun h => ⟨h.1, h.2⟩⟩

theorem Plain.append {s t : String} (hs : Plain s) (ht : Plain t) : Plain (s ++ t) where
  no_space := by simp [hs.no_space, ht.no_space]
  no_comma := by simp [hs.no_comma, ht.no_comma]

theorem Plain.filter_eq {s : String} (h : Plain s) : s.toList.filter (· ≠ ',') = s.toList := by
  refine List.filter_eq_self.2 fun c hc => decide_eq_true ?_
  rintro rfl
  exact h.no_comma hc

theorem lineWords_of_plain {s : String} (h : Plain s) : lineWords s = [s] := by
  simp only [lineWords, List.splitOn_eq_singleton h.no_space, List.map_singleton, h.filter_eq,
    String.ofList_toList]

/-- The words of a line that starts with a word, which a comma may follow. -/
theorem lineWords_append {s t u : String} (h : Plain s) (ht : t = " " ∨ t = ", ") :
    lineWords (s ++ t ++ u) = s :: lineWords u := by
  obtain ⟨cs, htext, hspace, hword⟩ : ∃ cs, (s ++ t ++ u).toList = cs ++ ' ' :: u.toList ∧
      ' ' ∉ cs ∧ cs.filter (· ≠ ',') = s.toList := by
    rcases ht with rfl | rfl
    · exact ⟨s.toList, by simp, h.no_space, h.filter_eq⟩
    · refine ⟨s.toList ++ [','], by simp, by simp [h.no_space], ?_⟩
      rw [List.filter_append, h.filter_eq]
      simp
  rw [lineWords, htext, List.splitOn_append_cons_self_of_not_mem hspace, List.map_cons, hword,
    String.ofList_toList]
  rfl

theorem lineWords_intercalate {o : String} {os : List String} (h : ∀ s ∈ o :: os, Plain s) :
    lineWords (", ".intercalate (o :: os)) = o :: os := by
  induction os generalizing o with
  | nil =>
    rw [String.intercalate_singleton]
    exact lineWords_of_plain (h o List.mem_cons_self)
  | cons o' os ih =>
    rw [List.forall_mem_cons] at h
    rw [String.intercalate_cons_cons, lineWords_append h.1 (.inr rfl), ih h.2]

theorem lineWords_line {m o : String} {os : List String} (hm : Plain m)
    (h : ∀ s ∈ o :: os, Plain s) : lineWords (line m (o :: os)) = m :: o :: os := by
  rw [line, lineWords_append hm (.inl rfl), lineWords_intercalate h]

@[simp] theorem plain_register (r : Register) : Plain r.text :=
  ⟨r.not_mem_text (by decide), r.not_mem_text (by decide)⟩

theorem plain_of_written {s : String} {n : Nat} (h : Written s n) : Plain s :=
  ⟨h.not_mem_of_separator (by decide), h.not_mem_of_separator (by decide)⟩

@[simp] theorem plain_repr (n : Nat) : Plain n.repr := plain_of_written (written_toString n)

@[simp] theorem plain_hex (n : Nat) : Plain (hex n) := plain_of_written (written_hexPadded 1 n)

@[simp] theorem plain_int_repr (n : Int) : Plain n.repr :=
  ⟨not_mem_toString_int n (by decide), not_mem_toString_int n (by decide)⟩

@[simp] theorem plain_bytesText (offset : Int16) : Plain (bytesText offset) :=
  plain_int_repr _

@[simp] theorem plain_placeText (base : Register) (offset : Int16) :
    Plain (placeText base offset) :=
  (((plain_int_repr _).append (by decide)).append (plain_register base)).append (by decide)

/-- An instruction is read back from its text. -/
theorem ofText?_text (i : Instruction) : ofText? i.text = some i := by
  by_cases hnop : i = nop
  · subst hnop
    rfl
  rw [text.eq_def, if_neg hnop, ofText?]
  cases i with
  | jr rs =>
    rw [lineWords_line (by decide) (by simp)]
    exact ofOne?_eq_some rs.named?_text
  | and rd rs rt | or rd rs rt =>
    rw [lineWords_line (by decide) (by simp)]
    exact ofThree?_eq_some rd.named?_text rs.named?_text rt.named?_text
  | sll rd rt shamt | srl rd rt shamt =>
    rw [lineWords_line (by decide) (by simp)]
    exact ofThree?_eq_some rd.named?_text rt.named?_text (shamt?_toString shamt)
  | j target | jal target =>
    rw [lineWords_line (by decide) (by simp)]
    exact ofOne?_eq_some (target?_hex target)
  | beq rs rt offset | bne rs rt offset =>
    rw [lineWords_line (by decide) (by simp)]
    exact ofThree?_eq_some rs.named?_text rt.named?_text (branchOffset?_bytesText offset)
  | bgtz rs offset =>
    rw [lineWords_line (by decide) (by simp)]
    exact ofTwo?_eq_some rs.named?_text (branchOffset?_bytesText offset)
  | addiu rt rs imm | slti rt rs imm =>
    rw [lineWords_line (by decide) (by simp)]
    exact ofThree?_eq_some rt.named?_text rs.named?_text (offset?_toString imm)
  | andi rt rs imm | ori rt rs imm =>
    rw [lineWords_line (by decide) (by simp)]
    exact ofThree?_eq_some rt.named?_text rs.named?_text (immediate?_hex imm)
  | lui rt imm =>
    rw [lineWords_line (by decide) (by simp)]
    exact ofTwo?_eq_some rt.named?_text (immediate?_hex imm)
  | lh rt base offset | lw rt base offset | lbu rt base offset
  | sb rt base offset | sh rt base offset | sw rt base offset =>
    rw [lineWords_line (by decide) (by simp)]
    exact ofTwo?_eq_some rt.named?_text (place?_placeText base offset)

/-- Texts of instructions. Two instructions with one text are the same, in all their operands, and
the word of the instruction that does nothing stands for no other shift. -/
theorem text_eq_text_iff :
    (∀ i i' : Instruction, i.text = i'.text ↔ i = i') ∧
      ∀ i : Instruction, i.text = "nop" ↔ i = .sll .zero .zero 0 := by
  have hinj (i i' : Instruction) : i.text = i'.text ↔ i = i' := by
    refine ⟨fun h => Option.some_inj.1 ?_, congrArg text⟩
    rw [← i.ofText?_text, h, i'.ofText?_text]
  exact ⟨hinj, fun i => hinj i nop⟩

end Instruction

end GameConsole
