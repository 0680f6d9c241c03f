import GameConsole.Proofs.Gpu.CommandStream

/-! Drawing commands and the words they are made of. Two tables have to agree on each command: the
sizes by which the pipe tells where it ends, and the opcodes by which a primitive is read from it.
The main statement is that commands packed into words, with words between them that start no
command, come out of an idle pipe as they went in, and that their primitives are read back without
a look at a word that is not there. -/

namespace GameConsole

/-! ### Packed colors and points -/

namespace Color

theorem toNat_pack (c : Color) : c.pack.toNat =
    c.r.toNat + c.g.toNat * 0x100 + c.b.toNat * 0x10000 + c.n.toNat * 0x1000000 := by
  have hr := c.r.toNat_lt
  have hg := c.g.toNat_lt
  have hb := c.b.toNat_lt
  have hn := c.n.toNat_lt
  simp only [pack, UInt32.toNat_add, UInt32.toNat_mul, UInt8.toNat_toUInt32, UInt32.reduceToNat]
  omega

theorem unpack_pack (c : Color) : unpack c.pack = c := by
  obtain ⟨r, g, b, n⟩ := c
  have hr := r.toNat_lt
  have hg := g.toNat_lt
  have hb := b.toNat_lt
  have hn := n.toNat_lt
  simp only [unpack, mk.injEq]
  refine ⟨?_, ?_, ?_, ?_⟩ <;> apply UInt8.toNat_inj.1 <;>
    simp [Nat.shiftRight_eq_div_pow, toNat_pack] <;> omega

/-- The opcode of a first word is the top byte of the color in it. -/
theorem opcodeOf_pack (c : Color) : Pipe.opcodeOf c.pack = c.n :=
  congrArg Color.n c.unpack_pack

end Color

namespace Point

theorem toNat_pack (p : Point) :
    p.pack.toNat = p.x.toUInt16.toNat + p.y.toUInt16.toNat * 0x10000 := by
  have hx := p.x.toUInt16.toNat_lt
  have hy := p.y.toUInt16.toNat_lt
  simp only [pack, UInt32.toNat_add, UInt32.toNat_mul, UInt16.toNat_toUInt32, UInt32.reduceToNat]
  omega

theorem unpack_pack (p : Point) : unpack p.pack = p := by
  have hx := p.x.toUInt16.toNat_lt
  have hy := p.y.toUInt16.toNat_lt
  have hlow : p.pack.toUInt16 = p.x.toUInt16 := by
    apply UInt16.toNat_inj.1
    simp [toNat_pack]
  have hhigh : (p.pack >>> 16).toUInt16 = p.y.toUInt16 := by
    apply UInt16.toNat_inj.1
    simp [Nat.shiftRight_eq_div_pow, toNat_pack]
    omega
  rw [unpack, hlow, hhigh]
  rfl

end Point

/-! ### Reading a primitive from words that are there -/

namespace Primitive

/-- Reads a shape from words that are asked for one by one. -/
def decodeFrom {m : Type → Type} [Monad m] (word : Nat → m UInt32) (opcode : UInt8) :
    m (Except Fault Primitive) :=
  let vertex (i : Nat) : m Vertex := do
    return ⟨.unpack (← word (2 * i)), .unpack (← word (2 * i + 1))⟩
  let sprite (size : Nat) : m (Except Fault Primitive) := do
    return .ok (.sprite size (.unpack (← word 0)) (.unpack (← word 1)))
  let family := opcode &&& 0xFC
  if family = 0x38 then do
    return .ok (.quad (← vertex 0) (← vertex 1) (← vertex 2) (← vertex 3))
  else if family = 0x74 then sprite 8
  else if family = 0x7C then sprite 16
  else if opcode ∈ operations then return .ok (.operation opcode)
  else return .error (.unsupportedPrimitive family)

theorem decode_eq_decodeFrom (opcode : UInt8) (words : Array UInt32) :
    decode opcode words = Id.run (decodeFrom (fun i => pure (words[i]?.getD 0)) opcode) := by
  unfold decode decodeFrom
  split_ifs <;> rfl

/-- Where no word is missing, no other word is read for it. -/
theorem decode_eq_of_decodeFrom {opcode : UInt8} {words : Array UInt32}
    {shape : Except Fault Primitive}
    (h : decodeFrom (fun i => words[i]?) opcode = some shape) : decode opcode words = shape := by
  rw [decode_eq_decodeFrom]
  unfold decodeFrom at h ⊢
  simp only [] at h ⊢
  split_ifs at h ⊢ with hquad hsmall hlarge hknown
  · simp only [mul_zero, zero_add, mul_one, Nat.reduceAdd, Nat.reduceMul, Option.pure_def,
      Option.bind_eq_bind, Option.bind_eq_some_iff, Option.some.injEq,
      exists_exists_and_exists_and_eq_and] at h
    obtain ⟨w0, h0, w1, h1, w2, h2, w3, h3, w4, h4, w5, h5, w6, h6, w7, h7, rfl⟩ := h
    simp [h0, h1, h2, h3, h4, h5, h6, h7]
  · simp only [Option.pure_def, Option.bind_eq_bind, Option.bind_eq_some_iff,
      Option.some.injEq] at h
    obtain ⟨w0, h0, w1, h1, rfl⟩ := h
    simp [h0, h1]
  · simp only [Option.pure_def, Option.bind_eq_bind, Option.bind_eq_some_iff,
      Option.some.injEq] at h
    obtain ⟨w0, h0, w1, h1, rfl⟩ := h
    simp [h0, h1]
  · simpa using h
  · simpa using h

end Primitive

/-! ### Commands -/

/-- The opcodes of quads. -/
def quadOpcodes : List UInt8 := [0x38, 0x39, 0x3A, 0x3B]

/-- The opcodes of sprites, each with the side of its square. -/
def spriteOpcodes : List (UInt8 × Nat) :=
  [(0x74, 8), (0x75, 8), (0x76, 8), (0x77, 8), (0x7C, 16), (0x7D, 16), (0x7E, 16), (0x7F, 16)]

/-- The opcodes of operations, each with the number of words after the first. -/
def operationOpcodes : List (UInt8 × Nat) :=
  [(0x01, 0), (0x02, 2), (0xA0, 2), (0xE1, 0), (0xE3, 0), (0xE4, 0), (0xE5, 0)]

/-- A drawing command with all that its words say. -/
inductive Command
  | quad (a b c d : Vertex) (opcode : a.color.n ∈ quadOpcodes)
  | sprite (size : Nat) (color : Color) (origin : Point) (last : UInt32)
    (opcode : (color.n, size) ∈ spriteOpcodes)
  | operation (first : UInt32) (rest : List UInt32)
    (opcode : (Pipe.opcodeOf first, rest.length) ∈ operationOpcodes)

namespace Command

def first : Command → UInt32
  | quad a .. => a.color.pack
  | sprite _ color .. => color.pack
  | operation first .. => first

/-- The words after the first. -/
def rest : Command → List UInt32
  | quad a b c d _ =>
    [a.point.pack, b.color.pack, b.point.pack, c.color.pack, c.point.pack, d.color.pack,
      d.point.pack]
  | sprite _ _ origin last _ => [origin.pack, last]
  | operation _ rest _ => rest

def words (c : Command) : List UInt32 := c.first :: c.rest

/-- The command as the pipe hands it out. -/
def packet (c : Command) : Packet := ⟨Pipe.opcodeOf c.first, c.words.toArray⟩

/-- What a renderer is to draw. -/
def primitive : Command → Primitive
  | quad a b c d _ => .quad a b c d
  | sprite size color origin _ _ => .sprite size color origin
  | operation first _ _ => .operation (Pipe.opcodeOf first)

/-- The table of sizes has the number of words of each command. -/
theorem commandLength_first (c : Command) : commandLength c.first = c.rest.length + 1 := by
  cases c with
  | quad a b c d opcode =>
    have hsize : ∀ o ∈ quadOpcodes, commandSize o = 8 :=
      List.forall_iff_forall_mem.1 (by decide)
    rw [commandLength, first, Color.opcodeOf_pack, hsize _ opcode]
    rfl
  | sprite size color origin last opcode =>
    have hsize : ∀ o ∈ spriteOpcodes, commandSize o.1 = 3 := by decide
    rw [commandLength, first, Color.opcodeOf_pack, hsize _ opcode]
    rfl
  | operation first rest opcode =>
    have hsize : ∀ o ∈ operationOpcodes, commandSize o.1 = o.2 + 1 := by decide
    exact hsize (Pipe.opcodeOf first, rest.length) opcode

/-- A primitive is read from the words of its command alone. -/
theorem decodeFrom_packet (c : Command) :
    Primitive.decodeFrom (fun i => c.packet.words[i]?) c.packet.opcode =
      some (.ok c.primitive) := by
  cases c with
  | quad a b c d opcode =>
    have hfamily : ∀ o ∈ quadOpcodes, o &&& 0xFC = 0x38 :=
      List.forall_iff_forall_mem.1 (by decide)
    simp only [packet, words, first, rest, Color.opcodeOf_pack]
    simp [Primitive.decodeFrom, hfamily _ opcode, primitive, Color.unpack_pack, Point.unpack_pack]
  | sprite size color origin last opcode =>
    have hfamily : ∀ o ∈ spriteOpcodes,
        o.1 &&& 0xFC = 0x74 ∧ o.2 = 8 ∨ o.1 &&& 0xFC = 0x7C ∧ o.2 = 16 := by decide
    simp only [packet, words, first, rest, Color.opcodeOf_pack]
    rcases hfamily _ opcode with ⟨ho, rfl⟩ | ⟨ho, rfl⟩ <;>
      simp [Primitive.decodeFrom, ho, primitive, Color.unpack_pack, Point.unpack_pack]
  | operation first rest opcode =>
    have hfamily : ∀ o ∈ operationOpcodes, o.1 ∈ Primitive.operations ∧
        o.1 &&& 0xFC ≠ 0x38 ∧ o.1 &&& 0xFC ≠ 0x74 ∧ o.1 &&& 0xFC ≠ 0x7C := by decide
    obtain ⟨hknown, hquad, hsmall, hlarge⟩ := hfamily _ opcode
    simp only [] at hknown hquad hsmall hlarge
    simp [Primitive.decodeFrom, packet, Command.first, primitive, hknown, hquad, hsmall, hlarge]

end Command

/-- The words are those of the commands in order, with words between them that start none. -/
inductive Spells : List Command → List UInt32 → Prop
  | nil : Spells [] []
  | dropped {commands words} (word : UInt32) (empty : commandLength word = 0)
    (rest : Spells commands words) : Spells commands (word :: words)
  | command {commands words} (c : Command) (rest : Spells commands words) :
    Spells (c :: commands) (c.words ++ words)

/-- Where one command ends and the next starts is read as it was meant. -/
theorem Spells.ofWords {commands : List Command} {words : List UInt32}
    (h : Spells commands words) :
    (Reading.ofWords words).unfinished = [] ∧
      (Reading.ofWords words).packets = commands.map Command.packet := by
  induction h with
  | nil => simp [Reading.ofWords_nil, Reading.packets]
  | dropped word empty rest ih =>
    rw [Reading.ofWords_dropped empty]
    exact ih
  | command c rest ih =>
    rw [Command.words, List.cons_append, Reading.ofWords_command _ _ _ c.commandLength_first]
    simpa [Reading.packets, Token.packet?, Command.packet, Command.words] using ih

namespace Pipe

/-- Pushes words in order, and collects the commands that come out. -/
def pushAll (p : Pipe) : List UInt32 → Pipe × List Packet
  | [] => (p, [])
  | word :: words =>
    let (q, packet) := p.push word
    let (q, packets) := q.pushAll words
    (q, packet.toList ++ packets)

theorem Holds.pushAll {p : Pipe} {before : List UInt32}
    (h : p.Holds (Reading.ofWords before).unfinished) (words : List UInt32) :
    (p.pushAll words).1.Holds (Reading.ofWords (before ++ words)).unfinished ∧
      (Reading.ofWords (before ++ words)).packets =
        (Reading.ofWords before).packets ++ (p.pushAll words).2 := by
  induction words generalizing p before with
  | nil => simpa [Pipe.pushAll] using h
  | cons word words ih =>
    obtain ⟨hholds, hout⟩ := h.push word
    have hnext : (p.push word).1.Holds (Reading.ofWords (before ++ [word])).unfinished := by
      rw [Reading.ofWords_snoc]
      exact hholds
    obtain ⟨hholds, hpackets⟩ := ih hnext
    rw [Reading.packets_snoc, ← hout] at hpackets
    rw [List.append_cons]
    refine ⟨hholds, ?_⟩
    rw [hpackets, List.append_assoc]
    rfl

/-- Between commands the row does not matter, because a command starts in the first one. -/
theorem pushAll_row {p : Pipe} (hidle : p.isIdle = true) (words : List UInt32) :
    ((p.pushAll words).1.isIdle, (p.pushAll words).2) =
      (({ p with row := 0 }.pushAll words).1.isIdle, ({ p with row := 0 }.pushAll words).2) := by
  obtain ⟨buffer, opcode, size, row⟩ := p
  obtain rfl : size = 0 := by simpa [isIdle] using hidle
  induction words with
  | nil => rfl
  | cons word words ih =>
    rcases hlen : commandSize (opcodeOf word) with _ | more
    · simpa [pushAll, push, hlen] using ih
    · simp [pushAll, push, hlen]

/-- Commands packed into words come out of an idle pipe in order and leave it idle, and their
primitives are read back from the words that they have. -/
theorem pushAll_spells {p : Pipe} (hidle : p.isIdle = true) {commands : List Command}
    {words : List UInt32} (h : Spells commands words) :
    (p.pushAll words).1.isIdle = true ∧
      (p.pushAll words).2 = commands.map Command.packet ∧
      ((p.pushAll words).2.map fun q => Primitive.decode q.opcode q.words) =
        commands.map (fun c => .ok c.primitive) ∧
      ((p.pushAll words).2.map fun q => Primitive.decodeFrom (fun i => q.words[i]?) q.opcode) =
        commands.map (fun c => some (.ok c.primitive)) ∧
      -- the decoder looks its words up in the same places, with zero for those that are not there
      ∀ q : Packet, Primitive.decode q.opcode q.words =
        Id.run (Primitive.decodeFrom (fun i => pure (q.words[i]?.getD 0)) q.opcode) := by
  have hstart : { p with row := 0 }.Holds (Reading.ofWords []).unfinished := by
    rw [Reading.ofWords_nil]
    exact holds_nil (by simpa [isIdle] using hidle) rfl
  obtain ⟨hholds, hread⟩ := hstart.pushAll words
  obtain ⟨hdone, hpackets⟩ := h.ofWords
  rw [List.nil_append] at hholds hread
  have hrow := pushAll_row hidle words
  rw [Prod.mk.injEq] at hrow
  obtain ⟨hidle', hout⟩ := hrow
  have hcommands : (p.pushAll words).2 = commands.map Command.packet := by
    rw [hout, ← hpackets, hread, Reading.ofWords_nil]
    rfl
  refine ⟨?_, hcommands, ?_, ?_, fun q => Primitive.decode_eq_decodeFrom q.opcode q.words⟩
  · rw [hidle', hholds.isIdle_iff, hdone]
  · rw [hcommands, List.map_map]
    exact List.map_congr_left fun c _ => Primitive.decode_eq_of_decodeFrom c.decodeFrom_packet
  · rw [hcommands, List.map_map]
    exact List.map_congr_left fun c _ => c.decodeFrom_packet

/-- A sprite partly above the picture and an operation, with a word before each of them that starts
no command. -/
theorem pushAll_spells_sprite :
    ((idle.pushAll [0x00000000, 0x74108080, 0xFFFE0010, 0x38000000, 0x03000000, 0xE1000400]).2.map
        fun q => Primitive.decode q.opcode q.words) =
      [.ok (.sprite 8 ⟨0x80, 0x80, 0x10, 0x74⟩ ⟨16, -2⟩), .ok (.operation 0xE1)] := by
  have hidle : idle.isIdle = true := rfl
  have hspells : Spells
      [.sprite 8 ⟨0x80, 0x80, 0x10, 0x74⟩ ⟨16, -2⟩ 0x38000000 (by decide),
        .operation 0xE1000400 [] (by decide)]
      [0x00000000, 0x74108080, 0xFFFE0010, 0x38000000, 0x03000000, 0xE1000400] :=
    .dropped _ (by decide) (.command _ (.dropped _ (by decide) (.command _ .nil)))
  exact (pushAll_spells hidle hspells).2.2.1

end Pipe

end GameConsole
