import GameConsole.Board.Dma
import GameConsole.Proofs.Memory.Words
import Mathlib.Data.List.Perm.Subperm

/-! Linked lists in RAM. The header of a node holds the address of the next one, so the rest of a
list is settled by the word of RAM that its first node lies in. A list that comes to the end marker
therefore visits no word twice, and has at most as many nodes as RAM has words. -/

namespace GameConsole.Dma

open Region

variable {ram : Region 21}

/-- The words behind the header of a node, as many as it counts. -/
def payload (ram : Region 21) (node : UInt32) : List UInt32 :=
  (List.range (countOf (ram.loadWord node))).map fun i =>
    ram.loadWord (node + 4 + 4 * UInt32.ofNat i)

/-- The addresses of the nodes of a list, from the first to the one before the end marker. -/
inductive Chain (ram : Region 21) : UInt32 → List UInt32 → Prop
  | nil : Chain ram endMarker []
  | cons {node nodes} (h : node ≠ endMarker)
      (rest : Chain ram (nextOf (ram.loadWord node)) nodes) : Chain ram node (node :: nodes)

/-- The words of a list in RAM, in the order of its nodes. -/
def contents (ram : Region 21) (nodes : List UInt32) : List UInt32 := nodes.flatMap (payload ram)

theorem payload_eq_words (ram : Region 21) (node : UInt32) :
    payload ram node = ram.words (node + 4) (countOf (ram.loadWord node)) :=
  (words_eq_map _ _ _).symm

theorem Chain.unique {start : UInt32} {ns ms : List UInt32} (hn : Chain ram start ns)
    (hm : Chain ram start ms) : ns = ms := by
  induction hn generalizing ms with
  | nil =>
    cases hm with
    | nil => rfl
    | cons h _ => exact absurd rfl h
  | cons h _ ih =>
    cases hm with
    | nil => exact absurd rfl h
    | cons _ rest => rw [ih rest]

/-- Lists that start in the same word of RAM go on alike. -/
theorem Chain.length_eq {a b : UInt32} {ns ms : List UInt32} (hn : Chain ram a (a :: ns))
    (hm : Chain ram b (b :: ms)) (hab : wordStart 21 a = wordStart 21 b) :
    ns.length = ms.length := by
  cases hn with
  | cons _ hrest =>
    cases hm with
    | cons _ hrest' =>
      rw [loadWord_eq, hab, ← loadWord_eq] at hrest
      rw [hrest.unique hrest']

theorem Chain.of_mem {start node : UInt32} {nodes : List UInt32} (h : Chain ram start nodes)
    (hmem : node ∈ nodes) : ∃ rest, Chain ram node (node :: rest) ∧ rest.length < nodes.length := by
  induction h with
  | nil => simp at hmem
  | @cons first nodes hne hrest ih =>
    rcases List.mem_cons.1 hmem with rfl | hmem
    · exact ⟨nodes, .cons hne hrest, by simp⟩
    · obtain ⟨rest, hchain, hlt⟩ := ih hmem
      exact ⟨rest, hchain, by rw [List.length_cons]; omega⟩

/-- No word of RAM is visited twice. -/
theorem Chain.nodup {start : UInt32} {nodes : List UInt32} (h : Chain ram start nodes) :
    (nodes.map (wordStart 21)).Nodup := by
  induction h with
  | nil => exact List.nodup_nil
  | @cons first nodes hne hrest ih =>
    rw [List.map_cons, List.nodup_cons]
    refine ⟨fun hmem => ?_, ih⟩
    obtain ⟨node, hnode, hsame⟩ := List.mem_map.1 hmem
    obtain ⟨rest, hchain, hlt⟩ := hrest.of_mem hnode
    have := Chain.length_eq (.cons hne hrest) hchain hsame.symm
    omega

theorem Chain.length_le {start : UInt32} {nodes : List UInt32} (h : Chain ram start nodes) :
    nodes.length ≤ Memory.ramSize / 4 := by
  have hsub : nodes.map (wordStart 21) ⊆ (List.range (Memory.ramSize / 4)).map (· * 4) := by
    intro i hi
    obtain ⟨node, _, rfl⟩ := List.mem_map.1 hi
    have hlt : node.toNat % capacity 21 < capacity 21 := Nat.mod_lt _ (by decide)
    refine List.mem_map.2 ⟨node.toNat % capacity 21 / 4, List.mem_range.2 ?_, rfl⟩
    rw [show Memory.ramSize = capacity 21 from rfl, capacity_eq] at *
    omega
  have hle := (List.subperm_of_subset h.nodup hsub).length_le
  simpa using hle

end GameConsole.Dma
