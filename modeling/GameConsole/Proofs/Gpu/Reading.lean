import GameConsole.Gpu.Pipe

/-! The reading of a command stream as a whole. From the start of a command on, the top byte of a
word tells how many words the command has: with zero the word stands for itself and is dropped,
with `n` the word and the next `n - 1` are the command, whatever they look like. What is left at
the end is unfinished. The main statements are that the stretches put together are the stream, and
how the reading of a stream changes with one more word. -/

namespace GameConsole

/-- A stretch of a command stream: a word that starts no command, or all words of a command. -/
inductive Token
  | dropped (word : UInt32)
  | command (first : UInt32) (rest : List UInt32)
deriving DecidableEq

namespace Token

def words : Token → List UInt32
  | dropped word => [word]
  | command first rest => first :: rest

def packet? : Token → Option Packet
  | dropped _ => none
  | command first rest => some ⟨Pipe.opcodeOf first, (first :: rest).toArray⟩

end Token

/-- How many words the command has that starts with this word, or zero if none does. -/
def commandLength (word : UInt32) : Nat := commandSize (Pipe.opcodeOf word)

/-- How many words the command has that these words begin. -/
def neededWords : List UInt32 → Nat
  | [] => 0
  | first :: _ => commandLength first

structure Reading where
  tokens : List Token
  unfinished : List UInt32

namespace Reading

def ofWords : List UInt32 → Reading
  | [] => ⟨[], []⟩
  | word :: words =>
    if commandLength word = 0 then
      ⟨.dropped word :: (ofWords words).tokens, (ofWords words).unfinished⟩
    else if words.length + 1 < commandLength word then ⟨[], word :: words⟩
    else
      let rest := ofWords (words.drop (commandLength word - 1))
      ⟨.command word (words.take (commandLength word - 1)) :: rest.tokens, rest.unfinished⟩
termination_by words => words.length
decreasing_by all_goals simp; try omega

/-- The stream that was read. -/
def words (r : Reading) : List UInt32 := r.tokens.flatMap Token.words ++ r.unfinished

def packets (r : Reading) : List Packet := r.tokens.filterMap Token.packet?

/-- How many words the unfinished command lacks. -/
def missing (r : Reading) : Nat := neededWords r.unfinished - r.unfinished.length

theorem ofWords_nil : ofWords [] = ⟨[], []⟩ := by simp [ofWords]

theorem ofWords_dropped {word : UInt32} (h : commandLength word = 0) (words : List UInt32) :
    ofWords (word :: words) =
      ⟨.dropped word :: (ofWords words).tokens, (ofWords words).unfinished⟩ := by
  rw [ofWords, if_pos h]

theorem ofWords_unfinished {word : UInt32} {words : List UInt32}
    (h : words.length + 1 < commandLength word) :
    ofWords (word :: words) = ⟨[], word :: words⟩ := by
  rw [ofWords, if_neg (by omega), if_pos h]

theorem ofWords_command (word : UInt32) (args words : List UInt32)
    (h : commandLength word = args.length + 1) :
    ofWords (word :: (args ++ words)) =
      ⟨.command word args :: (ofWords words).tokens, (ofWords words).unfinished⟩ := by
  rw [ofWords, if_neg (by omega), if_neg (by simp [h])]
  simp [h]

/-- Nothing is lost, repeated or reordered. -/
theorem words_ofWords (words : List UInt32) : (ofWords words).words = words := by
  fun_induction ofWords words with
  | case1 => rfl
  | case2 word words h ih => simpa [Reading.words, Token.words] using ih
  | case3 word words h hshort => rfl
  | case4 word words h hlong rest ih =>
    simp only [Reading.words, List.flatMap_cons, Token.words, List.cons_append,
      List.append_assoc] at ih ⊢
    rw [ih, List.take_append_drop]

/-- The words of one command with the last one just read: either the command is complete, or it
stays unfinished. -/
def close (first : UInt32) (rest : List UInt32) : Option Token × List UInt32 :=
  if commandLength first = rest.length + 1 then (some (.command first rest), [])
  else (none, first :: rest)

/-- What one more word does after unfinished ones: the stretch that it completes, and the words
that are unfinished then. -/
def advance : List UInt32 → UInt32 → Option Token × List UInt32
  | [], word => if commandLength word = 0 then (some (.dropped word), []) else close word []
  | first :: rest, word => close first (rest ++ [word])

/-- The reading of a stream with one more word at the end. -/
theorem ofWords_snoc (words : List UInt32) (word : UInt32) :
    ofWords (words ++ [word]) =
      ⟨(ofWords words).tokens ++ (advance (ofWords words).unfinished word).1.toList,
        (advance (ofWords words).unfinished word).2⟩ := by
  fun_induction ofWords words with
  | case1 =>
    rw [List.nil_append, ofWords]
    by_cases h : commandLength word = 0
    · simp [advance, h, ofWords_nil]
    · by_cases h' : commandLength word = 1
      · simp [advance, close, h', ofWords_nil]
      · have : 1 < commandLength word := by omega
        simp [advance, close, h, h', this]
  | case2 first words h ih => rw [List.cons_append, ofWords_dropped h, ih, List.cons_append]
  | case3 first words h hshort =>
    by_cases hlast : commandLength first = words.length + 2
    · have hread := ofWords_command first (words ++ [word]) [] (by simp [hlast])
      rw [List.append_nil] at hread
      rw [List.cons_append, hread, advance, close, if_pos (by simp [hlast]), ofWords_nil]
      rfl
    · rw [List.cons_append, ofWords_unfinished (by simp; omega), advance, close,
        if_neg (by simp [hlast])]
      rfl
  | case4 first words h hlong rest ih =>
    have hread := ofWords_command first (words.take (commandLength first - 1))
      (words.drop (commandLength first - 1) ++ [word]) (by rw [List.length_take]; omega)
    rw [← List.append_assoc, List.take_append_drop] at hread
    rw [List.cons_append, hread, ih, List.cons_append]

theorem packets_snoc (words : List UInt32) (word : UInt32) :
    (ofWords (words ++ [word])).packets = (ofWords words).packets ++
      ((advance (ofWords words).unfinished word).1.bind Token.packet?).toList := by
  rw [ofWords_snoc]
  simp only [packets, List.filterMap_append]
  cases (advance (ofWords words).unfinished word).1 with
  | none => rfl
  | some token => cases token <;> rfl

theorem packets_prefix (ws vs : List UInt32) :
    (ofWords ws).packets <+: (ofWords (ws ++ vs)).packets := by
  induction vs generalizing ws with
  | nil => simp
  | cons v vs ih =>
    have hsnoc : (ofWords ws).packets <+: (ofWords (ws ++ [v])).packets := by
      rw [packets_snoc]
      exact List.prefix_append _ _
    simpa using hsnoc.trans (ih (ws ++ [v]))

end Reading

end GameConsole
