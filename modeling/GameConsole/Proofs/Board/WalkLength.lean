import GameConsole.Proofs.Board.Registers
import Mathlib.Data.Finset.Card
import Mathlib.Logic.Function.Iterate
import Mathlib.Order.Lattice.Nat

/-! How many nodes a transfer visits. The addresses of the nodes follow from the first one and from
RAM, which a transfer does not change, so they are a sequence that is fixed beforehand. Where two of
them lie in the same word of RAM the sequence repeats from there on, and there are only so many
words. So it comes to the end marker within as many nodes as RAM has words, or never; and a transfer
ends in the first case, and in the second one goes on as long as its commands can be drawn. -/

namespace GameConsole

open Region

namespace Dma

variable {ram : Region 21} {start : UInt32}

/-! ### The sequence of nodes -/

/-- The address of the node that comes after `n` others. -/
def nodeAt (ram : Region 21) (start : UInt32) (n : Nat) : UInt32 :=
  (fun node => nextOf (ram.loadWord node))^[n] start

/-- The addresses of the first `n` nodes. -/
def firstNodes (ram : Region 21) (start : UInt32) (n : Nat) : List UInt32 :=
  (List.range n).map (nodeAt ram start)

theorem nodeAt_zero (ram : Region 21) (start : UInt32) : nodeAt ram start 0 = start := rfl

theorem nodeAt_succ (ram : Region 21) (start : UInt32) (n : Nat) :
    nodeAt ram start (n + 1) = nodeAt ram (nextOf (ram.loadWord start)) n := by
  unfold nodeAt
  exact Function.iterate_succ_apply _ n start

theorem nodeAt_succ_eq_nextOf (ram : Region 21) (start : UInt32) (n : Nat) :
    nodeAt ram start (n + 1) = nextOf (ram.loadWord (nodeAt ram start n)) := by
  unfold nodeAt
  exact Function.iterate_succ_apply' _ n start

theorem nodeAt_add (ram : Region 21) (start : UInt32) (m n : Nat) :
    nodeAt ram start (m + n) = nodeAt ram (nodeAt ram start m) n := by
  unfold nodeAt
  rw [Nat.add_comm, Function.iterate_add_apply]

theorem firstNodes_succ (ram : Region 21) (start : UInt32) (n : Nat) :
    firstNodes ram start (n + 1) = start :: firstNodes ram (nextOf (ram.loadWord start)) n := by
  have hnext : nodeAt ram start ∘ Nat.succ = nodeAt ram (nextOf (ram.loadWord start)) := by
    funext n
    exact nodeAt_succ ram start n
  rw [firstNodes, List.range_succ_eq_map, List.map_cons, List.map_map, hnext, nodeAt_zero,
    firstNodes]

theorem contents_firstNodes_succ (ram : Region 21) (start : UInt32) (n : Nat) :
    contents ram (firstNodes ram start (n + 1)) =
      contents ram (firstNodes ram start n) ++ payload ram (nodeAt ram start n) := by
  simp [contents, firstNodes, List.range_succ]

/-- The nodes before the end marker are a list. -/
theorem chain_firstNodes {n : Nat} (hend : nodeAt ram start n = endMarker)
    (hopen : ∀ m < n, nodeAt ram start m ≠ endMarker) :
    Chain ram start (firstNodes ram start n) := by
  induction n generalizing start with
  | zero =>
    rw [nodeAt_zero] at hend
    rw [hend]
    exact .nil
  | succ n ih =>
    rw [firstNodes_succ]
    refine .cons (hopen 0 (Nat.succ_pos n)) (ih ?_ fun m hm => ?_)
    · rw [← nodeAt_succ]
      exact hend
    · rw [← nodeAt_succ]
      exact hopen (m + 1) (Nat.succ_lt_succ hm)

/-- The end marker comes within as many nodes as RAM has words, if it comes at all. -/
theorem le_of_nodeAt_eq_endMarker {n : Nat} (hend : nodeAt ram start n = endMarker)
    (hopen : ∀ m < n, nodeAt ram start m ≠ endMarker) : n ≤ 0x80000 := by
  have hlength := (chain_firstNodes hend hopen).length_le
  rwa [firstNodes, List.length_map, List.length_range] at hlength

theorem exists_first_endMarker {n : Nat} (hend : nodeAt ram start n = endMarker) :
    ∃ k ≤ 0x80000, nodeAt ram start k = endMarker ∧
      ∀ m < k, nodeAt ram start m ≠ endMarker := by
  have hexists : ∃ k, nodeAt ram start k = endMarker := ⟨n, hend⟩
  have hopen : ∀ m < Nat.find hexists, nodeAt ram start m ≠ endMarker :=
    fun m hm => Nat.find_min hexists hm
  exact ⟨Nat.find hexists, le_of_nodeAt_eq_endMarker (Nat.find_spec hexists) hopen,
    Nat.find_spec hexists, hopen⟩

/-- Among more addresses than RAM has words two belong to the same word. -/
theorem exists_wordStart_eq (node : Nat → UInt32) :
    ∃ i j, i < j ∧ j ≤ 0x80000 ∧ wordStart 21 (node i) = wordStart 21 (node j) := by
  have hmaps : ∀ i ∈ Finset.range 0x80001,
      wordStart 21 (node i) / 4 ∈ Finset.range 0x80000 := by
    intro i _
    have hlt := wordStart_add_le (show 2 ≤ 21 by decide) (node i)
    rw [capacity_eq] at hlt
    rw [Finset.mem_range]
    omega
  have hcard : (Finset.range 0x80000).card < (Finset.range 0x80001).card := by
    rw [Finset.card_range, Finset.card_range]
    omega
  obtain ⟨i, hi, j, hj, hne, hsame⟩ :=
    Finset.exists_ne_map_eq_of_card_lt_of_maps_to hcard hmaps
  rw [Finset.mem_range] at hi hj
  have hword : wordStart 21 (node i) = wordStart 21 (node j) := by
    unfold wordStart at hsame ⊢
    omega
  rcases Nat.lt_or_gt_of_ne hne with hlt | hlt
  · exact ⟨i, j, hlt, by omega, hword⟩
  · exact ⟨j, i, hlt, by omega, hword.symm⟩

/-- A header depends on its word of RAM alone, so the nodes after two headers in one word are the
same. -/
theorem nodeAt_add_eq_of_wordStart_eq {i j : Nat}
    (h : wordStart 21 (nodeAt ram start i) = wordStart 21 (nodeAt ram start j)) (k : Nat) :
    nodeAt ram start (i + 1 + k) = nodeAt ram start (j + 1 + k) := by
  have hnext : nodeAt ram start (i + 1) = nodeAt ram start (j + 1) := by
    rw [nodeAt_succ_eq_nextOf, nodeAt_succ_eq_nextOf, loadWord_eq, loadWord_eq, h]
  rw [nodeAt_add ram start (i + 1), nodeAt_add ram start (j + 1), hnext]

/-- The nodes repeat after at most as many of them as RAM has words. -/
theorem exists_period (ram : Region 21) (start : UInt32) :
    ∃ i p, 0 < p ∧ i + p ≤ 0x80001 ∧
      ∀ n, i ≤ n → nodeAt ram start (n + p) = nodeAt ram start n := by
  obtain ⟨i, j, hij, hj, hsame⟩ := exists_wordStart_eq (nodeAt ram start)
  refine ⟨i + 1, j - i, by omega, by omega, fun n hn => ?_⟩
  obtain ⟨k, rfl⟩ := Nat.exists_eq_add_of_le hn
  rw [nodeAt_add_eq_of_wordStart_eq hsame k]
  congr 1
  omega

/-- How many nodes there are from this one to the end marker. Where it never comes this is zero. -/
noncomputable def nodesLeft (ram : Region 21) (node : UInt32) : Nat :=
  sInf {n | nodeAt ram node n = endMarker}

theorem nodesLeft_nodeAt {n : Nat} (hend : nodeAt ram start n = endMarker)
    (hopen : ∀ m < n, nodeAt ram start m ≠ endMarker) {m : Nat} (hm : m ≤ n) :
    nodesLeft ram (nodeAt ram start m) = n - m := by
  refine IsLeast.csInf_eq ⟨?_, fun k hk => ?_⟩
  · rw [Set.mem_ofPred_eq, ← nodeAt_add, Nat.add_sub_cancel' hm]
    exact hend
  · rw [Set.mem_ofPred_eq, ← nodeAt_add] at hk
    by_contra hlt
    exact hopen (m + k) (by omega) hk

/-! ### The walk along the sequence -/

variable {ρ : Type} [Renderer ρ]

/-- As long as the end marker does not come a walk feeds the GPU with one node after the other. -/
theorem walk_add (cursor : UInt32) (b : Board ρ) {n : Nat}
    (hopen : ∀ m < n, nodeAt b.memory.ram (b.memory.io.loadWord cursor) m ≠ endMarker) :
    (walk cursor b).mapState Board.gpu =
      (b.gpu.feedAll (contents b.memory.ram
        (firstNodes b.memory.ram (b.memory.io.loadWord cursor) n))).andThen fun _ gpu =>
          (walk cursor ({ b with gpu }.storeRegister cursor
            (nodeAt b.memory.ram (b.memory.io.loadWord cursor) n))).mapState Board.gpu := by
  induction n generalizing b with
  | zero =>
    simp only [nodeAt_zero, Board.storeRegister_eq, storeWord_loadWord]
    rfl
  | succ n ih =>
    have hfirst := hopen 0 (Nat.succ_pos n)
    rw [nodeAt_zero] at hfirst
    rw [walk_of_ne hfirst, visit_eq, firstNodes_succ, nodeAt_succ, contents, List.flatMap_cons,
      Gpu.feedAll_append]
    cases b.gpu.feedAll (payload b.memory.ram (b.memory.io.loadWord cursor)) with
    | fault e gpu => rfl
    | endless => rfl
    | done u gpu =>
      rw [Outcome.mapState_done, Outcome.done_andThen, Outcome.done_andThen, Outcome.done_andThen]
      have hio : ({ b with gpu }.storeRegister cursor (nextOf (b.memory.ram.loadWord
          (b.memory.io.loadWord cursor)))).memory.io.loadWord cursor =
          nextOf (b.memory.ram.loadWord (b.memory.io.loadWord cursor)) := by
        rw [Board.io_storeRegister, loadWord_storeWord_self (by decide)]
      rw [ih]
      · rw [hio, Board.ram_storeRegister, Board.gpu_storeRegister]
        simp only [Board.storeRegister_eq, storeWord_storeWord]
        rfl
      · intro m hm
        rw [hio, Board.ram_storeRegister, ← nodeAt_succ]
        exact hopen (m + 1) (Nat.succ_lt_succ hm)

/-- A walk along a list that ends visits its nodes and no other. -/
theorem walk_of_first_endMarker {cursor : UInt32} {b : Board ρ} {n : Nat}
    (hend : nodeAt b.memory.ram (b.memory.io.loadWord cursor) n = endMarker)
    (hopen : ∀ m < n, nodeAt b.memory.ram (b.memory.io.loadWord cursor) m ≠ endMarker) :
    (walk cursor b).mapState Board.gpu = b.gpu.feedAll (contents b.memory.ram
      (firstNodes b.memory.ram (b.memory.io.loadWord cursor) n)) := by
  rw [walk_add cursor b hopen]
  cases b.gpu.feedAll (contents b.memory.ram
      (firstNodes b.memory.ram (b.memory.io.loadWord cursor) n)) with
  | fault e gpu => rfl
  | endless => rfl
  | done u gpu =>
    rw [Outcome.done_andThen, walk_of_eq, Outcome.mapState_done, Board.gpu_storeRegister]
    rw [Board.io_storeRegister, loadWord_storeWord_self (by decide), hend]

/-- A walk is ended by a command that cannot be drawn, if the end marker has not come before. -/
theorem walk_of_undrawn {cursor : UInt32} {b : Board ρ} {n : Nat} {cause : Fault} {gpu : Gpu ρ}
    (hopen : ∀ m < n, nodeAt b.memory.ram (b.memory.io.loadWord cursor) m ≠ endMarker)
    (hfed : b.gpu.feedAll (contents b.memory.ram
      (firstNodes b.memory.ram (b.memory.io.loadWord cursor) n)) = .fault cause gpu) :
    (walk cursor b).mapState Board.gpu = .fault cause gpu := by
  rw [walk_add cursor b hopen, hfed, Outcome.fault_andThen]

/-- Without such a command it goes on for ever: every visit leads to another node. -/
theorem walk_eq_endless {cursor : UInt32} {b : Board ρ}
    (hopen : ∀ n, nodeAt b.memory.ram (b.memory.io.loadWord cursor) n ≠ endMarker)
    (hdrawn : ∀ n cause gpu, b.gpu.feedAll (contents b.memory.ram
      (firstNodes b.memory.ram (b.memory.io.loadWord cursor) n)) ≠ .fault cause gpu) :
    walk cursor b = .endless := by
  generalize hstart : b.memory.io.loadWord cursor = start at hopen hdrawn
  -- the boards before the visits
  let Before (b' : Board ρ) : Prop := ∃ n gpu,
    b.gpu.feedAll (contents b.memory.ram (firstNodes b.memory.ram start n)) = .done () gpu ∧
      b' = { b with gpu }.storeRegister cursor (nodeAt b.memory.ram start n)
  have hcursor (gpu : Gpu ρ) (node : UInt32) :
      ({ b with gpu }.storeRegister cursor node).memory.io.loadWord cursor = node := by
    rw [Board.io_storeRegister, loadWord_storeWord_self (by decide)]
  have hvisit {n : Nat} {gpu : Gpu ρ}
      (hfed : b.gpu.feedAll (contents b.memory.ram (firstNodes b.memory.ram start n)) =
        .done () gpu) :
      (visit cursor ({ b with gpu }.storeRegister cursor (nodeAt b.memory.ram start n))) =
        ((b.gpu.feedAll (contents b.memory.ram (firstNodes b.memory.ram start (n + 1)))).mapState
          fun gpu => { b with gpu }.storeRegister cursor (nodeAt b.memory.ram start n)).andThen
            fun _ b' => .done () (b'.storeRegister cursor (nodeAt b.memory.ram start (n + 1))) := by
    rw [contents_firstNodes_succ, Gpu.feedAll_append, hfed, Outcome.done_andThen, visit_eq,
      hcursor, Board.ram_storeRegister, Board.gpu_storeRegister, nodeAt_succ_eq_nextOf]
    simp only [Board.storeRegister_eq]
  refine Outcome.repeatUntil_induction (P := Before) (Q := fun o => o = .endless) rfl ?_ ?_ ?_
    ⟨0, b.gpu, rfl, ?_⟩
  · rintro _ ⟨n, gpu, -, rfl⟩ hended
    rw [beq_iff_eq, hcursor] at hended
    exact absurd hended (hopen n)
  · rintro _ e b' ⟨n, gpu, hfed, rfl⟩ - hfault
    rw [hvisit hfed, Outcome.andThen_eq_fault_iff] at hfault
    obtain hfault | ⟨_, _, -, ⟨⟩⟩ := hfault
    obtain ⟨gpu', hnext, -⟩ := Outcome.mapState_eq_fault_iff.1 hfault
    exact absurd hnext (hdrawn (n + 1) e gpu')
  · rintro _ b' ⟨n, gpu, hfed, rfl⟩ - hdone
    rw [hvisit hfed, Outcome.andThen_eq_done_iff] at hdone
    obtain ⟨_, b₁, hnext, ⟨⟩⟩ := hdone
    obtain ⟨gpu', hfed', rfl⟩ := Outcome.mapState_eq_done_iff.1 hnext
    exact ⟨n + 1, gpu', hfed', Board.storeRegister_storeRegister _ _ _ _⟩
  · rw [nodeAt_zero, Board.storeRegister_eq, ← hstart, storeWord_loadWord]

end Dma

namespace Board

variable {ρ : Type} [Renderer ρ]

/-- A write that starts a transfer does to the GPU what a walk does, from a board on which the GPU,
RAM and the address register are the same. -/
theorem Write.exists_walk {x : Write} {b : Board ρ} (h : x.Starts b) :
    ∃ (b' : Board ρ) (last : Board ρ → Board ρ), b'.gpu = b.gpu ∧ b'.memory.ram = b.memory.ram ∧
      b'.memory.io.loadWord 0x10A0 = b.memory.io.loadWord 0x10A0 ∧ (∀ b, (last b).gpu = b.gpu) ∧
      x.run b = (Dma.walk 0x10A0 b').andThen fun _ b => .done () (last b) := by
  obtain ⟨offset, hoffset, hchannel, hstarts⟩ := h
  have hblock := (Dma.channelOf_eq_gpuChannel_iff offset).1 hstarts.2.1
  have hupper := (Dma.and_controlBit_eq_zero_iff offset).not.1 hstarts.1
  have haddress : Dma.addressRegister offset = 0x10A0 := by
    rw [isChannelRegister_iff] at hchannel
    rw [← UInt32.toNat_inj, Dma.toNat_addressRegister]
    simp only [UInt32.reduceToNat]
    omega
  refine ⟨b.storeRegister offset x.value, fun b => b.storeRegister (Dma.controlRegister offset)
    (x.value &&& ~~~Dma.busyBit), gpu_storeRegister b _ _, ram_storeRegister b _ _, ?_,
    fun b => gpu_storeRegister b _ _, ?_⟩
  · rw [isChannelRegister_iff] at hchannel
    rw [loadWord_eq_registerAt _ (by decide), loadWord_eq_registerAt _ (by decide),
      registerAt_storeRegister b (by omega) _ (by decide), if_neg]
    simp only [UInt32.reduceToNat]
    omega
  · rw [Write.run_of_offset? hoffset, writeHardware, if_pos hchannel, Dma.write_of_starts hstarts,
      haddress]

section

variable {x : Write} {b : Board ρ} (h : x.Starts b)

include h

theorem Write.mapState_gpu_run_of_endMarker {n : Nat}
    (hend : Dma.nodeAt b.memory.ram (b.memory.io.loadWord 0x10A0) n = Dma.endMarker)
    (hopen : ∀ m < n, Dma.nodeAt b.memory.ram (b.memory.io.loadWord 0x10A0) m ≠ Dma.endMarker) :
    (x.run b).mapState Board.gpu = b.gpu.feedAll (Dma.contents b.memory.ram
      (Dma.firstNodes b.memory.ram (b.memory.io.loadWord 0x10A0) n)) := by
  obtain ⟨b', last, hgpu, hram, hstart, hlast, hrun⟩ := exists_walk h
  rw [← hram, ← hstart] at hend hopen
  rw [← hgpu, ← hram, ← hstart, ← Dma.walk_of_first_endMarker hend hopen, hrun]
  cases Dma.walk 0x10A0 b' with
  | fault e b' => rfl
  | endless => rfl
  | done u b' => rw [Outcome.done_andThen, Outcome.mapState_done, Outcome.mapState_done, hlast]

theorem Write.mapState_gpu_run_of_undrawn {n : Nat} {cause : Fault} {gpu : Gpu ρ}
    (hopen : ∀ m < n, Dma.nodeAt b.memory.ram (b.memory.io.loadWord 0x10A0) m ≠ Dma.endMarker)
    (hfed : b.gpu.feedAll (Dma.contents b.memory.ram
      (Dma.firstNodes b.memory.ram (b.memory.io.loadWord 0x10A0) n)) = .fault cause gpu) :
    (x.run b).mapState Board.gpu = .fault cause gpu := by
  obtain ⟨b', last, hgpu, hram, hstart, -, hrun⟩ := exists_walk h
  rw [← hram, ← hstart] at hopen hfed
  rw [← hgpu] at hfed
  have hwalk := Dma.walk_of_undrawn hopen hfed
  obtain ⟨b'', hend, hgpu'⟩ := Outcome.mapState_eq_fault_iff.1 hwalk
  rw [hrun, hend, Outcome.fault_andThen]
  exact Outcome.mapState_eq_fault_iff.2 ⟨b'', rfl, hgpu'⟩

theorem Write.run_eq_endless
    (hopen : ∀ n, Dma.nodeAt b.memory.ram (b.memory.io.loadWord 0x10A0) n ≠ Dma.endMarker)
    (hdrawn : ∀ n cause gpu, b.gpu.feedAll (Dma.contents b.memory.ram
      (Dma.firstNodes b.memory.ram (b.memory.io.loadWord 0x10A0) n)) ≠ .fault cause gpu) :
    x.run b = .endless := by
  obtain ⟨b', last, hgpu, hram, hstart, -, hrun⟩ := exists_walk h
  rw [← hram, ← hstart] at hopen hdrawn
  rw [← hgpu] at hdrawn
  rw [hrun, Dma.walk_eq_endless hopen hdrawn, Outcome.endless_andThen]

/-- A transfer comes to its end only if its nodes do. -/
theorem Write.exists_endMarker_of_run {b' : Board ρ} (hdone : x.run b = .done () b') :
    ∃ n, Dma.nodeAt b.memory.ram (b.memory.io.loadWord 0x10A0) n = Dma.endMarker := by
  by_contra hnever
  rw [not_exists] at hnever
  have hdrawn : ∀ n cause gpu, b.gpu.feedAll (Dma.contents b.memory.ram
      (Dma.firstNodes b.memory.ram (b.memory.io.loadWord 0x10A0) n)) ≠ .fault cause gpu := by
    intro n cause gpu hfed
    have hgpu := mapState_gpu_run_of_undrawn h (fun m _ => hnever m) hfed
    simp [hdone, Outcome.mapState] at hgpu
  rw [run_eq_endless h hnever hdrawn] at hdone
  cases hdone

end

/-- The transfers that a write starts. The end marker comes within as many nodes as RAM has words,
or the nodes repeat and the transfer goes on for ever, unless a command cannot be drawn. -/
theorem Write.run_of_starts {x : Write} {b : Board ρ} (h : x.Starts b) :
    let node := Dma.nodeAt b.memory.ram (b.memory.io.loadWord 0x10A0)
    let fed (n : Nat) := b.gpu.feedAll (Dma.contents b.memory.ram ((List.range n).map node))
    (∀ b', x.run b = .done () b' →
      ∃ n ≤ 0x80000, node n = 0x00FFFFFF ∧ (∀ m < n, node m ≠ 0x00FFFFFF) ∧
        fed n = .done () b'.gpu) ∧
    (∀ k, node k = 0x00FFFFFF →
      ∃ n ≤ 0x80000, node n = 0x00FFFFFF ∧ (∀ m < n, node m ≠ 0x00FFFFFF) ∧
        Dma.nodesLeft b.memory.ram (node 0) = n ∧
        (∀ m < n, Dma.nodesLeft b.memory.ram (node (m + 1)) <
          Dma.nodesLeft b.memory.ram (node m)) ∧
        (x.run b).mapState Board.gpu = fed n) ∧
    ((∀ n ≤ 0x80000, node n ≠ 0x00FFFFFF) →
      (∃ i p, 0 < p ∧ i + p ≤ 0x80001 ∧ ∀ n, i ≤ n → node (n + p) = node n) ∧
      (∀ n, node n ≠ 0x00FFFFFF) ∧ (∀ b', x.run b ≠ .done () b') ∧
      (∀ n cause gpu, fed n = .fault cause gpu →
        (x.run b).mapState Board.gpu = .fault cause gpu) ∧
      ((∀ n cause gpu, fed n ≠ .fault cause gpu) → x.run b = .endless)) := by
  intro node fed
  refine ⟨fun b' hdone => ?_, fun k hk => ?_, fun hopen => ?_⟩
  · obtain ⟨k, hk⟩ := exists_endMarker_of_run h hdone
    obtain ⟨n, hle, hend, hopen⟩ := Dma.exists_first_endMarker hk
    have hgpu := mapState_gpu_run_of_endMarker h hend hopen
    rw [hdone, Outcome.mapState_done] at hgpu
    exact ⟨n, hle, hend, hopen, hgpu.symm⟩
  · obtain ⟨n, hle, hend, hopen⟩ := Dma.exists_first_endMarker hk
    refine ⟨n, hle, hend, hopen, ?_, fun m hm => ?_, ?_⟩
    · exact Dma.nodesLeft_nodeAt hend hopen (Nat.zero_le n)
    · rw [Dma.nodesLeft_nodeAt hend hopen (Nat.succ_le_of_lt hm),
        Dma.nodesLeft_nodeAt hend hopen (Nat.le_of_lt hm)]
      omega
    · exact mapState_gpu_run_of_endMarker h hend hopen
  · have hnever (k : Nat) : node k ≠ 0x00FFFFFF := by
      intro hk
      obtain ⟨n, hle, hend, -⟩ := Dma.exists_first_endMarker hk
      exact hopen n hle hend
    refine ⟨Dma.exists_period b.memory.ram _, hnever, fun b' hdone => ?_,
      fun n cause gpu => mapState_gpu_run_of_undrawn h fun m _ => hnever m,
      run_eq_endless h hnever⟩
    obtain ⟨k, hk⟩ := exists_endMarker_of_run h hdone
    exact hnever k hk

/-- A list of one empty node that leads to itself. -/
theorem Write.run_of_starts_zeros :
    (Write.mk .word 0x1F8010A8 0x01000401).run (new ({} : Recorder)) = .endless := by
  have hstarts : (Write.mk .word 0x1F8010A8 0x01000401).Starts (new ({} : Recorder)) := by
    refine ⟨0x10A8, by decide, by decide, by decide, by decide, ?_⟩
    rw [io_storeRegister]
    exact loadWord_storeWord_self (by decide) _ _ _
  have hstart : (new ({} : Recorder)).memory.io.loadWord 0x10A0 = 0 := loadWord_zeroed 14 _
  have hzero (n : Nat) : Dma.nodeAt (zeroed 21) 0 n = 0 := by
    induction n with
    | zero => exact Dma.nodeAt_zero _ _
    | succ n ih =>
      rw [Dma.nodeAt_succ_eq_nextOf, ih, loadWord_zeroed]
      rfl
  have hempty (n : Nat) : Dma.contents (zeroed 21) ((List.range n).map (Dma.nodeAt (zeroed 21) 0)) =
      [] := by
    refine List.flatMap_eq_nil_iff.2 fun node _ => ?_
    rw [Dma.payload, loadWord_zeroed]
    rfl
  obtain ⟨-, -, hnever⟩ := run_of_starts hstarts
  rw [hstart, show (new ({} : Recorder)).memory.ram = zeroed 21 from rfl] at hnever
  obtain ⟨-, -, -, -, hendless⟩ := hnever fun n _ => by rw [hzero]; decide
  refine hendless fun n cause gpu hfed => ?_
  simp only [hempty, Gpu.feedAll] at hfed
  cases hfed

end Board

end GameConsole
