import GameConsole.Proofs.Board.WalkLength
import GameConsole.Proofs.Gpu.Refusal

/-! A transfer in which a command cannot be drawn. It ends with the word that completes this
command: the GPU has had the words before it and this one, and no word behind it. The address
register still holds the address of the node that the word belongs to, and the control word is the
start pattern with its busy bit, because both are brought up to date only behind the payload. -/

namespace GameConsole

open Region

/-- A store depends on its address only by the word that the address belongs to. -/
theorem Region.storeWord_congr {lines : Nat} (r : Region lines) {a b : UInt32}
    (h : wordStart lines a = wordStart lines b) (v : UInt32) :
    r.storeWord a v = r.storeWord b v := by
  apply ext_bytes
  rw [bytes_storeWord, bytes_storeWord, h]

variable {ρ : Type} [Renderer ρ]

namespace Dma

/-- After the first nodes, with all commands in them drawn, the walk goes on from the next one. -/
theorem walk_of_fed {cursor : UInt32} {b : Board ρ} {gpu : Gpu ρ} {n : Nat}
    (hopen : ∀ m < n, nodeAt b.memory.ram (b.memory.io.loadWord cursor) m ≠ endMarker)
    (hfed : b.gpu.feedAll (contents b.memory.ram
      (firstNodes b.memory.ram (b.memory.io.loadWord cursor) n)) = .done () gpu) :
    walk cursor b = walk cursor ({ b with gpu }.storeRegister cursor
      (nodeAt b.memory.ram (b.memory.io.loadWord cursor) n)) := by
  induction n generalizing b with
  | zero =>
    cases hfed
    rw [nodeAt_zero, Board.storeRegister_eq, storeWord_loadWord]
  | succ n ih =>
    have hfirst := hopen 0 (Nat.succ_pos n)
    rw [nodeAt_zero] at hfirst
    rw [firstNodes_succ, contents, List.flatMap_cons, Gpu.feedAll_append,
      Outcome.andThen_eq_done_iff] at hfed
    obtain ⟨_, gpu', hpayload, hfed⟩ := hfed
    rw [walk_of_ne hfirst, visit_eq, hpayload, Outcome.mapState_done, Outcome.done_andThen,
      Outcome.done_andThen]
    have hio : ({ b with gpu := gpu' }.storeRegister cursor (nextOf (b.memory.ram.loadWord
        (b.memory.io.loadWord cursor)))).memory.io.loadWord cursor =
        nextOf (b.memory.ram.loadWord (b.memory.io.loadWord cursor)) := by
      rw [Board.io_storeRegister, loadWord_storeWord_self (by decide)]
    rw [ih]
    · rw [hio, Board.ram_storeRegister, nodeAt_succ]
      simp only [Board.storeRegister_eq, storeWord_storeWord]
    · intro m hm
      rw [hio, Board.ram_storeRegister, ← nodeAt_succ]
      exact hopen (m + 1) (Nat.succ_lt_succ hm)
    · rw [hio, Board.ram_storeRegister, Board.gpu_storeRegister]
      exact hfed

/-- A walk ends in the node whose payload is refused. -/
theorem walk_of_refused {cursor start : UInt32} {b : Board ρ} {gpu gpu' : Gpu ρ} {cause : Fault}
    {n : Nat} (hcursor : b.memory.io.loadWord cursor = start)
    (hopen : ∀ m ≤ n, nodeAt b.memory.ram start m ≠ endMarker)
    (hfed : b.gpu.feedAll (contents b.memory.ram (firstNodes b.memory.ram start n)) = .done () gpu)
    (hrefused : gpu.feedAll (payload b.memory.ram (nodeAt b.memory.ram start n)) =
      .fault cause gpu') :
    walk cursor b = .fault cause ({ b with gpu := gpu' }.storeRegister cursor
      (nodeAt b.memory.ram start n)) := by
  subst hcursor
  have hio : ({ b with gpu }.storeRegister cursor (nodeAt b.memory.ram
      (b.memory.io.loadWord cursor) n)).memory.io.loadWord cursor =
      nodeAt b.memory.ram (b.memory.io.loadWord cursor) n := by
    rw [Board.io_storeRegister, loadWord_storeWord_self (by decide)]
  rw [walk_of_fed (fun m hm => hopen m (Nat.le_of_lt hm)) hfed, walk_of_ne,
    visit_eq, hio, Board.ram_storeRegister, Board.gpu_storeRegister, hrefused, Outcome.mapState,
    Outcome.fault_andThen, Outcome.fault_andThen, Board.storeRegister_eq, Board.storeRegister_eq]
  rw [hio]
  exact hopen n (Nat.le_refl n)

/-- Where a list of nodes is refused, one node is the first of which this holds. -/
theorem exists_node_of_feedAll {ram : Region 21} {start : UInt32} {g g' : Gpu ρ} {cause : Fault}
    {n : Nat} (h : g.feedAll (contents ram (firstNodes ram start n)) = .fault cause g') :
    ∃ k < n, ∃ g₁, g.feedAll (contents ram (firstNodes ram start k)) = .done () g₁ ∧
      g₁.feedAll (payload ram (nodeAt ram start k)) = .fault cause g' := by
  induction n with
  | zero =>
    rw [firstNodes, List.range_zero, List.map_nil, contents, List.flatMap_nil, Gpu.feedAll] at h
    cases h
  | succ n ih =>
    rw [contents_firstNodes_succ, Gpu.feedAll_append] at h
    cases hfed : g.feedAll (contents ram (firstNodes ram start n)) with
    | fault e g₁ =>
      rw [hfed, Outcome.fault_andThen] at h
      cases h
      obtain ⟨k, hk, hnode⟩ := ih hfed
      exact ⟨k, Nat.lt_succ_of_lt hk, hnode⟩
    | endless =>
      rw [hfed, Outcome.endless_andThen] at h
      cases h
    | done u g₁ =>
      rw [hfed, Outcome.done_andThen] at h
      exact ⟨n, Nat.lt_succ_self n, g₁, hfed, h⟩

end Dma

namespace Board

/-- The start pattern for the control word of the GPU channel sets a walk off on every board. -/
theorem Write.run_of_isStart {x : Write} (h : x.isStart = true) (b : Board ρ) :
    x.run b = (Dma.walk 0x10A0 (b.storeRegister 0x10A8 0x01000401)).andThen
      fun _ b => .done () (b.storeRegister 0x10A8 0x00000401) := by
  obtain ⟨offset, hoffset, hword, hvalue⟩ := x.isStart_iff.1 h
  have hsame : wordStart 14 offset = wordStart 14 0x10A8 := by
    rw [wordStart, capacity_eq, show wordStart 14 0x10A8 = 0x10A8 by decide]
    omega
  have hstore : b.storeRegister offset 0x01000401 = b.storeRegister 0x10A8 0x01000401 := by
    rw [storeRegister_eq, storeRegister_eq, storeWord_congr _ hsame]
  have haddress : Dma.addressRegister offset = 0x10A0 := by
    rw [← UInt32.toNat_inj, Dma.toNat_addressRegister]
    simp only [UInt32.reduceToNat]
    omega
  have hcontrol : Dma.controlRegister offset = 0x10A8 := by
    rw [← UInt32.toNat_inj, Dma.toNat_controlRegister]
    simp only [UInt32.reduceToNat]
    omega
  have hstarts : Dma.Starts b offset 0x01000401 := by
    refine ⟨(Dma.and_controlBit_eq_zero_iff offset).not.2 (by omega),
      (Dma.channelOf_eq_gpuChannel_iff offset).2 (by omega), ?_⟩
    rw [hstore, hcontrol, io_storeRegister]
    exact loadWord_storeWord_self (by decide) _ _ _
  rw [Write.run_of_offset? hoffset, hvalue, writeHardware,
    if_pos (isChannelRegister_iff.2 (by omega)), Dma.write_of_starts hstarts, hstore, haddress,
    hcontrol]
  rfl

/-- A transfer that a node ends has stored the start pattern and the address of this node. -/
theorem Write.run_of_refused {x : Write} (hstart : x.isStart = true) {b : Board ρ} {k : Nat}
    {gpu gpu' : Gpu ρ} {cause : Fault}
    (hopen : ∀ m ≤ k, Dma.nodeAt b.memory.ram (b.memory.io.loadWord 0x10A0) m ≠ Dma.endMarker)
    (hfed : b.gpu.feedAll (Dma.contents b.memory.ram
      (Dma.firstNodes b.memory.ram (b.memory.io.loadWord 0x10A0) k)) = .done () gpu)
    (hrefused : gpu.feedAll (Dma.payload b.memory.ram
      (Dma.nodeAt b.memory.ram (b.memory.io.loadWord 0x10A0) k)) = .fault cause gpu') :
    x.run b = .fault cause
      (({ b with gpu := gpu' }.storeRegister 0x10A8 0x01000401).storeRegister 0x10A0
        (Dma.nodeAt b.memory.ram (b.memory.io.loadWord 0x10A0) k)) := by
  have hcursor : (b.memory.io.storeWord 0x10A8 0x01000401).loadWord 0x10A0 =
      b.memory.io.loadWord 0x10A0 := by
    rw [loadWord_storeWord (by decide), if_neg (by decide)]
  have hwalk : Dma.walk 0x10A0 { b with
      memory := { b.memory with io := b.memory.io.storeWord 0x10A8 0x01000401 } } = _ :=
    Dma.walk_of_refused hcursor hopen hfed hrefused
  rw [Write.run_of_isStart hstart, storeRegister_eq b, hwalk, Outcome.fault_andThen]
  simp only [storeRegister_eq]

/-- The end of a transfer in which a command cannot be drawn: the GPU has had the words up to the
one that completes this command, and the address register holds the node of that word. -/
theorem Write.run_of_undrawn {x : Write} (hstart : x.isStart = true) {b : Board ρ}
    (hpipe : b.gpu.pipe.Reachable) {n : Nat} {cause : Fault} {r : ρ}
    (hopen : ∀ m < n, Dma.nodeAt b.memory.ram (b.memory.io.loadWord 0x10A0) m ≠ 0x00FFFFFF)
    (hundrawn : drawAll b.gpu.renderer (Reading.ofWords (b.gpu.pipe.held ++ Dma.contents
      b.memory.ram (Dma.firstNodes b.memory.ram (b.memory.io.loadWord 0x10A0) n))).packets =
        .fault cause r) :
    let start := b.memory.io.loadWord 0x10A0
    let commands (words : List UInt32) := (Reading.ofWords (b.gpu.pipe.held ++ words)).packets
    ∃ k < n, ∃ before word after,
      Dma.payload b.memory.ram (Dma.nodeAt b.memory.ram start k) = before ++ word :: after ∧
      let fed := Dma.contents b.memory.ram (Dma.firstNodes b.memory.ram start k) ++ before
      ∃ r₁ command gpu io,
        drawAll b.gpu.renderer (commands fed) = .done () r₁ ∧
        commands (fed ++ [word]) = commands fed ++ [command] ∧
        Renderer.draw r₁ command = (.error cause, r) ∧
        b.gpu.feedAll (fed ++ [word]) = .fault cause gpu ∧
        gpu.renderer = r ∧ gpu.pipe.isIdle = true ∧ gpu.status = b.gpu.status ∧
        io.loadWord 0x10A0 = Dma.nodeAt b.memory.ram start k ∧
        io.loadWord 0x10A8 = 0x01000401 ∧
        (∀ addr, wordStart 14 addr ≠ 0x10A0 → wordStart 14 addr ≠ 0x10A8 →
          io.loadWord addr = b.memory.io.loadWord addr) ∧
        x.run b = .fault cause ⟨{ b.memory with io }, gpu⟩ := by
  intro start commands
  have hheld := Gpu.follows_held hpipe.holds_held
  have hdraws := (hheld.feedAll (Dma.contents b.memory.ram
    (Dma.firstNodes b.memory.ram start n))).1
  rw [hundrawn] at hdraws
  obtain ⟨gpu, hfeed, rfl⟩ := Outcome.mapState_eq_fault_iff.1 hdraws
  -- the node that ends the transfer, and the word in it
  obtain ⟨k, hk, g, hnodes, hpayload⟩ := Dma.exists_node_of_feedAll hfeed
  obtain ⟨before, word, after, g₁, hsplit, hbefore, hword⟩ := Gpu.exists_feed_of_feedAll hpayload
  have hfed : b.gpu.feedAll (Dma.contents b.memory.ram (Dma.firstNodes b.memory.ram start k) ++
      before) = .done () g₁ := by
    rw [Gpu.feedAll_append, hnodes, Outcome.done_andThen, hbefore]
  have hfollows := (hheld.feedAll _).2 g₁ hfed
  obtain ⟨command, hcommands, hdraw, hidle, hstatus⟩ := hfollows.refused hword
  rw [List.append_assoc] at hcommands
  have hio := Write.run_of_refused hstart (fun m hm => hopen m (Nat.lt_of_le_of_lt hm hk)) hnodes
    hpayload
  simp only [storeRegister_eq] at hio
  refine ⟨k, hk, before, word, after, hsplit, g₁.renderer, command, gpu, _, hfollows.drawn,
    hcommands, hdraw, ?_, rfl, hidle, hstatus, ?_, ?_, ?_, hio⟩
  · rw [Gpu.feedAll_append, hfed, Outcome.done_andThen, Gpu.feedAll_singleton, hword]
  · exact loadWord_storeWord_self (by decide) _ _ _
  · rw [loadWord_storeWord (by decide), if_neg (by decide)]
    exact loadWord_storeWord_self (by decide) _ _ _
  · intro addr h0 h8
    have h0' : wordStart 14 0x10A0 ≠ wordStart 14 addr := h0.symm
    have h8' : wordStart 14 0x10A8 ≠ wordStart 14 addr := h8.symm
    rw [loadWord_storeWord (by decide), if_neg h0', loadWord_storeWord (by decide), if_neg h8']

/-- A rectangle, which the counting renderer cannot draw. Its first word has come through the data
port, and the payload of the node has one word more than the other two. -/
theorem Write.run_of_undrawn_rectangle :
    let memory : Memory :=
      ⟨(zeroed 21).storeWord 0x1000 0x03FFFFFF, zeroed 19, (zeroed 14).storeWord 0x10A0 0x1000⟩
    let b : Board PrimitiveLog := ⟨memory, ⟨(Pipe.idle.push 0x60000000).1, 0, {}⟩⟩
    ∃ b', (Write.mk .word 0x1F8010A8 0x01000401).run b = .fault (.unsupportedPrimitive 0x60) b' ∧
      b'.gpu.pipe.isIdle = true ∧ b'.memory.io.loadWord 0x10A0 = 0x1000 ∧
      b'.memory.io.loadWord 0x10A8 = 0x01000401 := by
  intro memory b
  have hstart : b.memory.io.loadWord 0x10A0 = 0x1000 := loadWord_storeWord_self (by decide) _ _ _
  have hload (addr : UInt32) : b.memory.ram.loadWord addr =
      if wordStart 21 0x1000 = wordStart 21 addr then 0x03FFFFFF else 0 := by
    simp only [b, memory, loadWord_storeWord (show 2 ≤ 21 by decide), loadWord_zeroed]
  have hpayload : Dma.payload b.memory.ram 0x1000 = [0, 0, 0] := by
    simp only [Dma.payload, hload]
    decide
  have hheld : b.gpu.pipe.held = [0x60000000] := by decide +kernel
  have hread : (Reading.ofWords [0x60000000, 0, 0, 0]).packets =
      [⟨0x60, #[0x60000000, 0, 0]⟩] := by
    have hcommand := Reading.ofWords_command 0x60000000 [0, 0] [0] (by decide)
    have hdropped := Reading.ofWords_dropped (show commandLength 0 = 0 by decide) []
    rw [hdropped, Reading.ofWords_nil] at hcommand
    exact congrArg Reading.packets hcommand
  have hundrawn : drawAll b.gpu.renderer (Reading.ofWords (b.gpu.pipe.held ++ Dma.contents
      b.memory.ram (Dma.firstNodes b.memory.ram 0x1000 1))).packets =
        .fault (.unsupportedPrimitive 0x60) {} := by
    rw [hheld, Dma.firstNodes_succ, Dma.contents, List.flatMap_cons, hpayload]
    exact congrArg (drawAll b.gpu.renderer) hread
  have hopen : ∀ m < 1, Dma.nodeAt b.memory.ram 0x1000 m ≠ 0x00FFFFFF := by
    intro m hm
    rw [Nat.lt_one_iff.1 hm, Dma.nodeAt_zero]
    decide
  have hpipe : b.gpu.pipe.Reachable := .push _ .reset
  rw [← hstart] at hopen hundrawn
  obtain ⟨k, hk, -, -, -, -, -, -, gpu, io, -, -, -, -, -, hidle, -, haddress, hcontrol, -, hrun⟩ :=
    Write.run_of_undrawn (x := ⟨.word, 0x1F8010A8, 0x01000401⟩) (by decide) hpipe hopen hundrawn
  obtain rfl := Nat.lt_one_iff.1 hk
  exact ⟨_, hrun, hidle, haddress.trans hstart, hcontrol⟩

end Board

end GameConsole
