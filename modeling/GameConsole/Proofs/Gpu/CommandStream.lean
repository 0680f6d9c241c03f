import GameConsole.Gpu
import GameConsole.Proofs.Gpu.Reading
import GameConsole.Proofs.Memory.Words

/-! What the GPU does with a command stream. The pipe agrees with the reading of the stream: after
any words its buffer begins with the unfinished ones, its size is that of the unfinished command,
and each command is handed out with the word that completes it. What else stands in the buffer has
no part in this, so it does not matter which commands came before. The stream may come in words
through the data port and in runs of words from a RAM, cut anywhere. -/

namespace GameConsole

namespace Pipe

/-- The pipe holds these words of an unfinished command in the first rows of its buffer. Of the
other rows nothing is said. -/
structure Holds (p : Pipe) (ws : List UInt32) : Prop where
  size : p.size = neededWords ws
  row : p.row = ws.length
  opcode : ∀ first ∈ ws.head?, p.opcode = opcodeOf first
  short : ws ≠ [] → ws.length < p.size
  words : p.words.toList.take ws.length = ws

/-- The pipes that come from a reset one by any words and resets. -/
inductive Reachable : Pipe → Prop
  | reset : Reachable idle
  | push {p} (word : UInt32) : Reachable p → Reachable (p.push word).1

theorem holds_nil {p : Pipe} (hsize : p.size = 0) (hrow : p.row = 0) : p.Holds [] where
  size := hsize
  row := hrow
  opcode := by simp
  short := by simp
  words := by simp

theorem Holds.isIdle_iff {p : Pipe} {ws : List UInt32} (h : p.Holds ws) :
    p.isIdle = true ↔ ws = [] := by
  cases ws with
  | nil => simp [isIdle, h.size, neededWords]
  | cons first rest =>
    have := h.short (by simp)
    simp only [isIdle, beq_iff_eq, reduceCtorEq, iff_false]
    omega

theorem Holds.remaining_eq {p : Pipe} {ws : List UInt32} (h : p.Holds ws) :
    p.remaining = neededWords ws - ws.length := by
  rw [remaining, h.size, h.row]

theorem toList_setIfInBounds_take (words : Vector UInt32 256) (word : UInt32) {n : Nat}
    (hn : n < 256) :
    (words.setIfInBounds n word).toList.take (n + 1) = words.toList.take n ++ [word] := by
  rw [Vector.toList_setIfInBounds, List.take_add_one, List.take_set_of_le (by omega)]
  simp [hn]

/-- A command whose last word is in the buffer leaves the pipe, and one that lacks words stays. -/
theorem dispatch_eq {p : Pipe} (ws : List UInt32) (hrow : p.row = ws.length)
    (hwords : p.words.toList.take ws.length = ws) : p.dispatch =
      if ws.length = p.size then ({ p with size := 0, row := 0 }, some ⟨p.opcode, ws.toArray⟩)
      else (p, none) := by
  unfold dispatch
  simp only [hrow]
  split
  · rename_i hsize
    have : p.words.toArray.extract 0 p.size = ws.toArray := by
      apply Array.toList_inj.1
      rw [Array.toList_extract, ← hsize]
      exact hwords
    rw [this]
  · rw [← hrow]

/-- With the words of one command in the first rows, the last of them just stored, the pipe hands
out what the reading closes. -/
theorem dispatch_holds {p : Pipe} {first : UInt32} {rest : List UInt32}
    (hopcode : p.opcode = opcodeOf first) (hsize : p.size = commandLength first)
    (hrow : p.row = rest.length + 1) (hle : rest.length + 1 ≤ p.size)
    (hwords : p.words.toList.take (rest.length + 1) = first :: rest) :
    p.dispatch.1.Holds (Reading.close first rest).2 ∧
      p.dispatch.2 = (Reading.close first rest).1.bind Token.packet? := by
  rw [dispatch_eq (first :: rest) hrow hwords, Reading.close, hsize, List.length_cons]
  by_cases hfull : rest.length + 1 = commandLength first
  · rw [if_pos hfull, if_pos hfull.symm, hopcode]
    exact ⟨holds_nil rfl rfl, rfl⟩
  · rw [if_neg hfull, if_neg (Ne.symm hfull)]
    have hshort : rest.length + 1 < p.size := by omega
    exact ⟨⟨hsize, hrow, by simp [hopcode], fun _ => hshort, hwords⟩, rfl⟩

/-- One word does to the pipe what it does to the reading. -/
theorem Holds.push {p : Pipe} {ws : List UInt32} (h : p.Holds ws) (word : UInt32) :
    (p.push word).1.Holds (Reading.advance ws word).2 ∧
      (p.push word).2 = (Reading.advance ws word).1.bind Token.packet? := by
  obtain ⟨words, opcode, size, row⟩ := p
  cases ws with
  | nil =>
    obtain rfl : size = 0 := h.size
    rcases hlen : commandSize (opcodeOf word) with _ | more
    · simpa [Pipe.push, Reading.advance, commandLength, hlen, Token.packet?] using h
    · have hpush : Pipe.push ⟨words, opcode, 0, row⟩ word =
          dispatch ⟨words.set 0 word, opcodeOf word, more + 1, 1⟩ := by simp [Pipe.push, hlen]
      rw [hpush, Reading.advance, if_neg (by rw [commandLength, hlen]; omega)]
      refine dispatch_holds rfl hlen.symm rfl (by simp) ?_
      have hset := toList_setIfInBounds_take words word (n := 0) (by omega)
      simpa [Vector.toList_set] using hset
  | cons first rest =>
    have hsize : size = commandLength first := h.size
    obtain rfl : row = rest.length + 1 := h.row
    have hshort : rest.length + 1 < size := h.short (by simp)
    have hle : size ≤ 255 := hsize ▸ commandSize_le _
    have hwords : words.toList.take (rest.length + 1) = first :: rest := h.words
    have hpush : Pipe.push ⟨words, opcode, size, rest.length + 1⟩ word = dispatch
        ⟨words.setIfInBounds (rest.length + 1) word, opcode, size, rest.length + 2⟩ := by
      simp [Pipe.push, show size ≠ 0 by omega]
    rw [hpush, Reading.advance]
    refine dispatch_holds (h.opcode first rfl) hsize (by simp) (by simp; omega) ?_
    have hset := toList_setIfInBounds_take words word (n := rest.length + 1) (by omega)
    rw [hwords] at hset
    simpa using hset

theorem Reachable.holds {p : Pipe} (h : p.Reachable) : ∃ ws, p.Holds ws := by
  induction h with
  | reset => exact ⟨[], holds_nil rfl rfl⟩
  | push word _ ih =>
    obtain ⟨ws, hws⟩ := ih
    exact ⟨_, (hws.push word).1⟩

/-- Between commands a pipe holds nothing, whatever came before. -/
theorem Reachable.holds_nil_of_isIdle {p : Pipe} (h : p.Reachable) (hidle : p.isIdle = true) :
    p.Holds [] := by
  obtain ⟨ws, hws⟩ := h.holds
  obtain rfl := hws.isIdle_iff.1 hidle
  exact hws

end Pipe

variable {ρ : Type} [Renderer ρ]

/-- Hands commands to a renderer in order, and none after one that could not be drawn. -/
def drawAll (r : ρ) : List Packet → Outcome ρ Unit
  | [] => .done () r
  | packet :: packets =>
    (Outcome.ofAnswer (Renderer.draw r packet)).andThen fun _ r => drawAll r packets

theorem drawAll_append (r : ρ) (ps qs : List Packet) :
    drawAll r (ps ++ qs) = (drawAll r ps).andThen fun _ r => drawAll r qs := by
  induction ps generalizing r with
  | nil => rfl
  | cons p ps ih => simp [drawAll, ih, Outcome.andThen_assoc]

namespace Gpu

/-- Where words of the command stream come from: the data port, or a run of words in a RAM. -/
inductive Source
  | port (word : UInt32)
  | ram {lines : Nat} (region : Region lines) (addr : UInt32) (count : Nat)

def Source.words : Source → List UInt32
  | port word => [word]
  | ram region addr count => region.words addr count

def feedFrom (g : Gpu ρ) : Source → Outcome (Gpu ρ) Unit
  | .port word => g.writeRegister 0x1810 word
  | .ram region addr count => g.feedAll (region.words addr count)

def feedFromAll (g : Gpu ρ) : List Source → Outcome (Gpu ρ) Unit
  | [] => .done () g
  | source :: sources => (g.feedFrom source).andThen fun _ g => g.feedFromAll sources

theorem feedAll_singleton (g : Gpu ρ) (word : UInt32) : g.feedAll [word] = g.feed word := by
  simp only [feedAll]
  cases g.feed word <;> rfl

theorem feedFrom_eq (g : Gpu ρ) (source : Source) : g.feedFrom source = g.feedAll source.words := by
  cases source with
  | port word => rw [Source.words, feedAll_singleton]; rfl
  | ram region addr count => rfl

/-- It makes no difference how a stream is cut. -/
theorem feedFromAll_eq (g : Gpu ρ) (sources : List Source) :
    g.feedFromAll sources = g.feedAll (sources.flatMap Source.words) := by
  induction sources generalizing g with
  | nil => rfl
  | cons source sources ih => simp [feedFromAll, feedFrom_eq, feedAll_append, ih]

theorem feed_eq (g : Gpu ρ) (word : UInt32) : g.feed word =
    (drawAll g.renderer (g.pipe.push word).2.toList).mapState
      fun r => ⟨(g.pipe.push word).1, g.status, r⟩ := by
  obtain ⟨pipe, status, renderer⟩ := g
  simp only [feed]
  rcases pipe.push word with ⟨pipe', _ | packet⟩
  · rfl
  · simp only [Option.toList_some, drawAll]
    cases Outcome.ofAnswer (Renderer.draw renderer packet) <;> rfl

/-- The GPU after words from the start of a command on, with a renderer that was `r` and a status
word that was `status` before them. -/
structure Follows (status : UInt32) (r : ρ) (words : List UInt32) (g : Gpu ρ) : Prop where
  status : g.status = status
  drawn : drawAll r (Reading.ofWords words).packets = .done () g.renderer
  holds : g.pipe.Holds (Reading.ofWords words).unfinished

theorem Follows.feed {status : UInt32} {r : ρ} {words : List UInt32} {g : Gpu ρ}
    (h : Follows status r words g) (word : UInt32) :
    (g.feed word).mapState Gpu.renderer = drawAll r (Reading.ofWords (words ++ [word])).packets ∧
      ∀ g', g.feed word = .done () g' → Follows status r (words ++ [word]) g' := by
  obtain ⟨hholds, hout⟩ := h.holds.push word
  have hpackets := Reading.packets_snoc words word
  rw [← hout] at hpackets
  have hdrawn : drawAll r (Reading.ofWords (words ++ [word])).packets =
      drawAll g.renderer (g.pipe.push word).2.toList := by
    rw [hpackets, drawAll_append, h.drawn, Outcome.done_andThen]
  rw [feed_eq, hdrawn]
  cases hdraw : drawAll g.renderer (g.pipe.push word).2.toList with
  | fault e r' => exact ⟨rfl, by simp [Outcome.mapState]⟩
  | endless => exact ⟨rfl, by simp [Outcome.mapState]⟩
  | done u r' =>
    refine ⟨rfl, ?_⟩
    rintro g' ⟨⟩
    refine ⟨h.status, hdrawn.trans hdraw, ?_⟩
    rw [Reading.ofWords_snoc]
    exact hholds

/-- Feeding words draws the commands of the reading, with the same faults. -/
theorem Follows.feedAll {status : UInt32} {r : ρ} {words : List UInt32} {g : Gpu ρ}
    (h : Follows status r words g) (ws : List UInt32) :
    (g.feedAll ws).mapState Gpu.renderer = drawAll r (Reading.ofWords (words ++ ws)).packets ∧
      ∀ g', g.feedAll ws = .done () g' → Follows status r (words ++ ws) g' := by
  induction ws generalizing words g with
  | nil =>
    rw [List.append_nil]
    refine ⟨h.drawn.symm, ?_⟩
    rintro g' ⟨⟩
    exact h
  | cons w ws ih =>
    obtain ⟨hmap, hnext⟩ := h.feed w
    rw [show words ++ w :: ws = words ++ [w] ++ ws by simp, Gpu.feedAll]
    cases hfeed : g.feed w with
    | done u g' => exact ih (hnext g' hfeed)
    | fault e g' =>
      obtain ⟨rest, hrest⟩ := Reading.packets_prefix (words ++ [w]) ws
      rw [hfeed] at hmap
      rw [← hrest, drawAll_append, ← hmap]
      exact ⟨rfl, by simp⟩
    | endless =>
      obtain ⟨rest, hrest⟩ := Reading.packets_prefix (words ++ [w]) ws
      rw [hfeed] at hmap
      rw [← hrest, drawAll_append, ← hmap]
      exact ⟨rfl, by simp⟩

theorem follows_nil {p : Pipe} (hp : p.Holds []) (status : UInt32) (r : ρ) :
    Follows status r [] ⟨p, status, r⟩ where
  status := rfl
  drawn := by simp [Reading.ofWords_nil, Reading.packets, drawAll]
  holds := by simpa [Reading.ofWords_nil] using hp

/-- However a stream from between two commands is cut, the renderer has had the commands of its
reading after each word, and the pipe lacks the words that the unfinished command lacks. -/
theorem feedFromAll_reading {p : Pipe} (hp : p.Reachable) (hidle : p.isIdle = true)
    (status : UInt32) (r : ρ) (sources : List Source) :
    let start : Gpu ρ := ⟨p, status, r⟩
    let stream := sources.flatMap Source.words
    start.feedFromAll sources = start.feedAll stream ∧
      ∀ words, words <+: stream →
        (Reading.ofWords words).words = words ∧
        (start.feedAll words).mapState Gpu.renderer =
          drawAll r (Reading.ofWords words).packets ∧
        ∀ g, start.feedAll words = .done () g →
          g.status = status ∧
          (g.pipe.isIdle = true ↔ (Reading.ofWords words).unfinished = []) ∧
          g.pipe.remaining = (Reading.ofWords words).missing := by
  intro start stream
  have hstart : Follows status r [] start := follows_nil (hp.holds_nil_of_isIdle hidle) status r
  refine ⟨feedFromAll_eq start sources, fun words _ => ?_⟩
  obtain ⟨hmap, hnext⟩ := hstart.feedAll words
  refine ⟨Reading.words_ofWords words, hmap, fun g hg => ?_⟩
  have h := hnext g hg
  exact ⟨h.status, h.holds.isIdle_iff, h.holds.remaining_eq⟩

/-- A fill of three words, the first through the data port and the others from a RAM, after a
command of one word whose word is still in the buffer. -/
theorem feedFromAll_reading_fill :
    ((⟨(Pipe.idle.push 0xE1000000).1, 0, {}⟩ : Gpu Recorder).feedFromAll
        [.port 0x02000000, .ram (Region.zeroed 21) 0 2]).mapState Gpu.renderer =
      .done () { draws := #[⟨0x02, #[0x02000000, 0, 0]⟩] } := by
  have hreach : (Pipe.idle.push 0xE1000000).1.Reachable := .push _ .reset
  have hidle : (Pipe.idle.push 0xE1000000).1.isIdle = true := by decide
  have hwords : [.port 0x02000000, .ram (Region.zeroed 21) 0 2].flatMap Source.words =
      [0x02000000, 0, 0] := by
    simp [Source.words, Region.words, Region.loadWord_zeroed]
  have hread : Reading.ofWords [0x02000000, 0, 0] =
      ⟨[.command 0x02000000 [0, 0]], []⟩ := by
    have h := Reading.ofWords_command 0x02000000 [0, 0] [] (by decide)
    rwa [Reading.ofWords_nil] at h
  obtain ⟨hcut, hprefix⟩ := feedFromAll_reading hreach hidle 0 ({} : Recorder)
    [.port 0x02000000, .ram (Region.zeroed 21) 0 2]
  obtain ⟨-, hdrawn, -⟩ := hprefix _ List.prefix_rfl
  rw [hcut, hdrawn, hwords, hread]
  rfl

end Gpu

end GameConsole
