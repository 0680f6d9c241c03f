import GameConsole.Board.Bus
import GameConsole.Proofs.Board.Chain
import GameConsole.Proofs.Loop

/-! A transfer of a list to the GPU against the data port. A visit feeds the payload of one node
and leaves the address register at the next; a walk over a list that ends has fed the words of all
its nodes in order. Writing these words one by one to the data port does the same to the GPU, so it
makes no difference how they are split over nodes. -/

namespace GameConsole

open Region

variable {ρ : Type} [Renderer ρ]

namespace Board

/-- Writes words one after another to the same address of the bus. -/
def writeEach (b : Board ρ) (addr : UInt32) : List UInt32 → Outcome (Board ρ) Unit
  | [] => .done () b
  | word :: words => (b.write .word addr word).andThen fun _ b => b.writeEach addr words

omit [Renderer ρ] in
theorem onGpu_eq (b : Board ρ) (f : Gpu ρ → Outcome (Gpu ρ) Unit) :
    b.onGpu f = (f b.gpu).mapState fun gpu => { b with gpu } := rfl

omit [Renderer ρ] in
theorem storeRegister_eq (b : Board ρ) (addr data : UInt32) :
    b.storeRegister addr data =
      { b with memory := { b.memory with io := b.memory.io.storeWord addr data } } := by
  obtain ⟨⟨_, _, _⟩, _⟩ := b
  rfl

omit [Renderer ρ] in
theorem storeRegister_storeRegister (b : Board ρ) (addr data data' : UInt32) :
    (b.storeRegister addr data).storeRegister addr data' = b.storeRegister addr data' := by
  simp only [storeRegister_eq, storeWord_storeWord]

/-- A word at the data port is a word of the command stream. -/
theorem write_dataPort (b : Board ρ) {port : UInt32}
    (hport : Segment.ofAddress? port = some (.hardware 0x1810)) (word : UInt32) :
    b.write .word port word = b.onGpu fun gpu => gpu.feed word := by
  simp only [write, hport]
  rfl

theorem writeEach_dataPort (b : Board ρ) {port : UInt32}
    (hport : Segment.ofAddress? port = some (.hardware 0x1810)) (words : List UInt32) :
    b.writeEach port words = b.onGpu fun gpu => gpu.feedAll words := by
  induction words generalizing b with
  | nil => rfl
  | cons word words ih =>
    rw [writeEach, write_dataPort b hport, onGpu_eq, onGpu_eq, Gpu.feedAll]
    cases b.gpu.feed word with
    | fault e gpu => rfl
    | endless => rfl
    | done u gpu =>
      simp only [Outcome.mapState, Outcome.done_andThen]
      exact ih _

end Board

namespace Dma

/-- A visit feeds the payload of the node, and goes on to the next one if all of it could be
drawn. -/
theorem visit_eq (cursor : UInt32) (b : Board ρ) :
    visit cursor b =
      ((b.gpu.feedAll (payload b.memory.ram (b.memory.io.loadWord cursor))).mapState
        fun gpu => { b with gpu }).andThen fun _ b' =>
          .done () (b'.storeRegister cursor
            (nextOf (b.memory.ram.loadWord (b.memory.io.loadWord cursor)))) := by
  rw [payload_eq_words]
  rfl

theorem walk_of_eq {cursor : UInt32} {b : Board ρ}
    (h : b.memory.io.loadWord cursor = endMarker) : walk cursor b = .done () b :=
  Outcome.repeatUntil_of_ended (beq_iff_eq.2 h)

theorem walk_of_ne {cursor : UInt32} {b : Board ρ}
    (h : b.memory.io.loadWord cursor ≠ endMarker) :
    walk cursor b = (visit cursor b).andThen fun _ b => walk cursor b :=
  Outcome.repeatUntil_of_not_ended (beq_eq_false_iff_ne.2 h)

/-- A walk over a list that ends feeds the words of all its nodes. -/
theorem walk_of_chain {cursor : UInt32} {nodes : List UInt32} {b : Board ρ} {gpu : Gpu ρ}
    (hchain : Chain b.memory.ram (b.memory.io.loadWord cursor) nodes)
    (hfeed : b.gpu.feedAll (contents b.memory.ram nodes) = .done () gpu) :
    walk cursor b = .done () ({ b with gpu }.storeRegister cursor endMarker) := by
  induction nodes generalizing b with
  | nil =>
    have hend : b.memory.io.loadWord cursor = endMarker := by
      generalize b.memory.io.loadWord cursor = start at hchain
      cases hchain
      rfl
    rw [contents, List.flatMap_nil, Gpu.feedAll] at hfeed
    cases hfeed
    rw [walk_of_eq hend, Board.storeRegister_eq, ← hend, storeWord_loadWord]
  | cons node nodes ih =>
    rw [contents, List.flatMap_cons, Gpu.feedAll_append, Outcome.andThen_eq_done_iff] at hfeed
    obtain ⟨_, gpu', hpayload, hfeed⟩ := hfeed
    generalize hstart : b.memory.io.loadWord cursor = start at hchain
    obtain _ | ⟨hne, hrest⟩ := hchain
    -- the board after the visit, with the next node in the address register
    have hvisit : visit cursor b = .done () ({ b with gpu := gpu' }.storeRegister cursor
        (nextOf (b.memory.ram.loadWord node))) := by
      rw [visit_eq, hstart, hpayload]
      rfl
    rw [walk_of_ne (hstart ▸ hne), hvisit, Outcome.done_andThen]
    rw [ih]
    · simp only [Board.storeRegister_eq, storeWord_storeWord]
    · rw [Board.ram_storeRegister, Board.io_storeRegister, loadWord_storeWord_self (by decide)]
      exact hrest
    · rw [Board.ram_storeRegister, Board.gpu_storeRegister]
      exact hfeed

/-- The start pattern in the control register of the GPU channel starts a walk from the address
register, and goes back to rest without its busy bit. -/
theorem write_startPattern (b : Board ρ) :
    write b 0x10A8 startPattern =
      (walk 0x10A0 (b.storeRegister 0x10A8 startPattern)).andThen
        fun _ b => .done () (b.storeRegister 0x10A8 0x00000401) := by
  have hload : (b.storeRegister 0x10A8 startPattern).memory.io.loadWord (controlRegister 0x10A8) =
      startPattern := by
    rw [Board.io_storeRegister, loadWord_storeWord (by decide), if_pos (by decide)]
  have hexecute : execute (b.storeRegister 0x10A8 startPattern) 0x10A8 =
      walk 0x10A0 (b.storeRegister 0x10A8 startPattern) := by
    rw [execute, if_pos hload, show addressRegister 0x10A8 = 0x10A0 by decide]
  rw [write, if_neg (by decide), if_pos (by decide), hexecute,
    show controlRegister 0x10A8 = 0x10A8 by decide,
    show startPattern &&& ~~~busyBit = 0x00000401 by decide]

/-- A list of two nodes with one and with two words. -/
def twoNodes : Region 21 :=
  (((zeroed 21).storeWord 0x1000 0x01002000).storeWord 0x1004 0x02000000).storeWord 0x2000
    0x02FFFFFF

theorem loadWord_twoNodes (addr : UInt32) : twoNodes.loadWord addr =
    if wordStart 21 0x2000 = wordStart 21 addr then 0x02FFFFFF
    else if wordStart 21 0x1004 = wordStart 21 addr then 0x02000000
    else if wordStart 21 0x1000 = wordStart 21 addr then 0x01002000 else 0 := by
  simp only [twoNodes, loadWord_storeWord (show 2 ≤ 21 by decide), loadWord_zeroed]

end Dma

namespace Board

/-- A word for a channel goes to the DMA engine. -/
theorem write_channel (b : Board ρ) {addr offset : UInt32}
    (h : Segment.ofAddress? addr = some (.hardware offset))
    (hchannel : isChannelRegister offset = true) (word : UInt32) :
    b.write .word addr word = Dma.write b offset word := by
  simp only [write, h, Width.truncate, if_true, writeHardware]
  rw [if_pos hchannel]

/-- Starting a transfer of a list that ends does to the GPU what writing the words of the list to
the data port does, if all commands in them can be drawn. -/
theorem write_control_eq_writeEach {b b' : Board ρ} {control port : UInt32} {nodes : List UInt32}
    (hcontrol : Segment.ofAddress? control = some (.hardware 0x10A8))
    (hport : Segment.ofAddress? port = some (.hardware 0x1810))
    (hchain : Dma.Chain b.memory.ram (b.memory.io.loadWord 0x10A0) nodes)
    (hdrawn : b.writeEach port (Dma.contents b.memory.ram nodes) = .done () b') :
    ∃ io : Region 14,
      b.write .word control 0x01000401 =
        .done () { b' with memory := { b.memory with io } } ∧
      io.loadWord 0x10A0 = 0x00FFFFFF ∧ io.loadWord 0x10A8 = 0x00000401 ∧
      ∀ addr, wordStart 14 addr ≠ 0x10A0 → wordStart 14 addr ≠ 0x10A8 →
        io.loadWord addr = b.memory.io.loadWord addr := by
  rw [writeEach_dataPort b hport, onGpu_eq] at hdrawn
  obtain ⟨gpu, hfeed, rfl⟩ := Outcome.mapState_eq_done_iff.1 hdrawn
  have hne : wordStart 14 0x10A8 ≠ wordStart 14 0x10A0 := by decide
  -- the walk begins with the start pattern in the control register
  have hwalk : Dma.walk 0x10A0 (b.storeRegister 0x10A8 Dma.startPattern) =
      .done () ({ b.storeRegister 0x10A8 Dma.startPattern with gpu }.storeRegister 0x10A0
        Dma.endMarker) := by
    apply Dma.walk_of_chain
    · rw [ram_storeRegister, io_storeRegister, loadWord_storeWord (by decide), if_neg hne]
      exact hchain
    · rw [gpu_storeRegister, ram_storeRegister]
      exact hfeed
  refine ⟨((b.memory.io.storeWord 0x10A8 Dma.startPattern).storeWord 0x10A0
    Dma.endMarker).storeWord 0x10A8 0x00000401, ?_, ?_, ?_, ?_⟩
  · rw [write_channel b hcontrol (by decide)]
    refine (Dma.write_startPattern b).trans ?_
    rw [hwalk, Outcome.done_andThen]
    simp only [storeRegister_eq]
  · rw [loadWord_storeWord (by decide), if_neg hne, loadWord_storeWord_self (by decide)]
    rfl
  · rw [loadWord_storeWord_self (by decide)]
  · intro addr h0 h8
    have h0' : wordStart 14 0x10A0 ≠ wordStart 14 addr := h0.symm
    have h8' : wordStart 14 0x10A8 ≠ wordStart 14 addr := h8.symm
    rw [loadWord_storeWord (by decide), if_neg h8', loadWord_storeWord (by decide),
      if_neg h0', loadWord_storeWord (by decide), if_neg h8']

/-- A fill of three words that goes over the two nodes of a list. -/
theorem write_control_eq_writeEach_fill :
    let b : Board Recorder :=
      ⟨⟨Dma.twoNodes, zeroed 19, (zeroed 14).storeWord 0x10A0 0x1000⟩, .new {}⟩
    (b.write .word 0x1F8010A8 0x01000401).mapState (fun b => b.gpu.renderer) =
      .done () { draws := #[⟨0x02, #[0x02000000, 0, 0]⟩] } := by
  intro b
  have hfirst : Dma.twoNodes.loadWord 0x1000 = 0x01002000 :=
    (Dma.loadWord_twoNodes _).trans (by decide)
  have hsecond : Dma.twoNodes.loadWord 0x2000 = 0x02FFFFFF :=
    (Dma.loadWord_twoNodes _).trans (by decide)
  have hchain : Dma.Chain b.memory.ram (b.memory.io.loadWord 0x10A0) [0x1000, 0x2000] := by
    rw [show b.memory.io = (zeroed 14).storeWord 0x10A0 0x1000 from rfl,
      loadWord_storeWord_self (by decide)]
    refine .cons (by decide) ?_
    rw [show b.memory.ram = Dma.twoNodes from rfl, hfirst]
    refine .cons (by decide) ?_
    rw [show Dma.nextOf 0x01002000 = 0x2000 by decide, hsecond]
    exact .nil
  have hcontents : Dma.contents b.memory.ram [0x1000, 0x2000] = [0x02000000, 0, 0] := by
    rw [show b.memory.ram = Dma.twoNodes from rfl]
    simp only [Dma.contents, Dma.payload, List.flatMap_cons, List.flatMap_nil, hfirst, hsecond,
      Dma.loadWord_twoNodes]
    decide
  obtain ⟨g, hfeed, hrenderer⟩ : ∃ g, b.gpu.feedAll [0x02000000, 0, 0] = .done () g ∧
      g.renderer = { draws := #[⟨0x02, #[0x02000000, 0, 0]⟩] } := ⟨_, rfl, by decide +kernel⟩
  have hport : Segment.ofAddress? 0x1F801810 = some (.hardware 0x1810) := by decide
  have hdrawn : b.writeEach 0x1F801810 (Dma.contents b.memory.ram [0x1000, 0x2000]) =
      .done () { b with gpu := g } := by
    rw [hcontents, writeEach_dataPort b hport, onGpu_eq, hfeed]
    rfl
  have hcontrol : Segment.ofAddress? 0x1F8010A8 = some (.hardware 0x10A8) := by decide
  obtain ⟨io', hwrite, -⟩ := write_control_eq_writeEach hcontrol hport hchain hdrawn
  rw [hwrite, Outcome.mapState, ← hrenderer]

end Board

end GameConsole
