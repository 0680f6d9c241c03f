import GameConsole.Proofs.Board.Transfer
import Mathlib.Data.Nat.Bitwise

/-! What a write to a register of the DMA engine does. The addresses that it computes by masks are
described as numbers; a walk, however it ends, changes the GPU and the address register of its
channel and nothing else; and a write either starts a walk or only stores words. -/

namespace GameConsole

open Region

/-! ### Addresses as numbers -/

theorem Board.isChannelRegister_iff {offset : UInt32} :
    isChannelRegister offset = true ↔ 0x1080 ≤ offset.toNat ∧ offset.toNat ≤ 0x10E8 := by
  simp [isChannelRegister, UInt32.le_iff_toNat_le]

theorem Board.isGpuRegister_iff {offset : UInt32} :
    isGpuRegister offset = true ↔ 0x1810 ≤ offset.toNat ∧ offset.toNat ≤ 0x1814 := by
  simp [isGpuRegister, UInt32.le_iff_toNat_le]

namespace Dma

theorem toNat_addressRegister (addr : UInt32) :
    (addressRegister addr).toNat = addr.toNat % 0x10000 / 16 * 16 := by
  have hmask (n m : Nat) : n &&& m <<< 4 = ((n >>> 4) &&& m) <<< 4 := by
    apply Nat.eq_of_testBit_eq
    intro i
    by_cases hi : 4 ≤ i
    · simp [Nat.testBit_shiftLeft, hi, Nat.add_sub_cancel' hi]
    · simp [Nat.testBit_shiftLeft, hi]
  rw [addressRegister, UInt32.toNat_and]
  refine (hmask _ (2 ^ 12 - 1)).trans ?_
  rw [Nat.and_two_pow_sub_one_eq_mod, Nat.shiftLeft_eq, Nat.shiftRight_eq_div_pow]
  omega

theorem toNat_controlRegister (addr : UInt32) :
    (controlRegister addr).toNat = addr.toNat % 0x10000 / 16 * 16 + 8 := by
  rw [controlRegister, UInt32.toNat_or, ← addressRegister, toNat_addressRegister, Nat.mul_comm]
  exact (Nat.two_pow_add_eq_or_of_lt (i := 4) (by decide) _).symm

theorem and_controlBit_eq_zero_iff (addr : UInt32) :
    addr &&& controlBit = 0 ↔ addr.toNat % 16 < 8 := by
  rw [← UInt32.toNat_inj, UInt32.toNat_and]
  change addr.toNat &&& 2 ^ 3 = 0 ↔ _
  rw [Nat.and_two_pow, Nat.testBit_eq_decide_div_mod_eq]
  simp
  omega

theorem channelOf_eq_gpuChannel_iff (addr : UInt32) :
    channelOf addr = gpuChannel ↔ addr.toNat / 16 % 16 = 10 := by
  have hblock : ((addr >>> 4) &&& 0xF).toNat = addr.toNat / 16 % 16 := by
    rw [UInt32.toNat_and, UInt32.toNat_shiftRight, Nat.shiftRight_eq_div_pow]
    exact Nat.and_two_pow_sub_one_eq_mod _ 4
  rw [channelOf, gpuChannel, UInt32.sub_eq_iff_eq_add, ← UInt32.toNat_inj, hblock]
  rfl

variable {ρ : Type} [Renderer ρ]

/-! ### The end of a walk -/

/-- However a walk ends, the GPU and the address register are all that it has changed. -/
theorem leaves_walk (cursor : UInt32) (b : Board ρ) : (walk cursor b).Leaves fun b' =>
    ∃ gpu value, b' = { b with gpu }.storeRegister cursor value := by
  refine Outcome.leaves_repeatUntil ?_
    ⟨b.gpu, b.memory.io.loadWord cursor, by rw [Board.storeRegister_eq, storeWord_loadWord]⟩
  rintro _ ⟨gpu, value, rfl⟩ -
  rw [visit_eq]
  refine Outcome.Leaves.andThen
    (p := fun b' => ∃ gpu, b' = { b with gpu }.storeRegister cursor value) ?_
    (fun _ ⟨gpu, h⟩ => ⟨gpu, value, h⟩) ?_
  · rw [Outcome.leaves_mapState]
    refine Outcome.leaves_iff.2 fun gpu' _ => ⟨gpu', ?_⟩
    simp only [Board.storeRegister_eq]
  · rintro _ _ ⟨gpu', rfl⟩
    exact ⟨gpu', _, Board.storeRegister_storeRegister _ _ _ _⟩

/-- A walk that comes to its end leaves the end marker in the address register. -/
theorem walk_eq_done {cursor : UInt32} {b b' : Board ρ} (h : walk cursor b = .done () b') :
    ∃ gpu, b' = { b with gpu }.storeRegister cursor endMarker := by
  have hleaves := leaves_walk cursor b
  rw [h] at hleaves
  obtain ⟨gpu, value, rfl⟩ := hleaves
  have hend : ∀ b', walk cursor b = .done () b' → b'.memory.io.loadWord cursor = endMarker := by
    refine Outcome.repeatUntil_induction (P := fun _ => True)
      (Q := fun o => ∀ b' : Board ρ, o = .done () b' → b'.memory.io.loadWord cursor = endMarker)
      (by simp) (fun b _ hended => ?_) (by simp) (fun _ _ _ _ _ => trivial) trivial
    rintro _ ⟨⟩
    exact beq_iff_eq.1 hended
  have hmarker := hend _ h
  rw [Board.io_storeRegister, loadWord_storeWord_self (by decide)] at hmarker
  exact ⟨gpu, by rw [hmarker]⟩

/-! ### The effect of a write -/

/-- A word written to this address sets a walk off: it goes to the control registers of the GPU
channel, and the control word is then the start pattern. -/
def Starts (b : Board ρ) (addr data : UInt32) : Prop :=
  addr &&& controlBit ≠ 0 ∧ channelOf addr = gpuChannel ∧
    (b.storeRegister addr data).memory.io.loadWord (controlRegister addr) = startPattern

instance (b : Board ρ) (addr data : UInt32) : Decidable (Starts b addr data) :=
  inferInstanceAs (Decidable (_ ∧ _ ∧ _))

theorem write_of_starts {b : Board ρ} {addr data : UInt32} (h : Starts b addr data) :
    write b addr data =
      (walk (addressRegister addr) (b.storeRegister addr data)).andThen
        fun _ b => .done () (b.storeRegister (controlRegister addr) (data &&& ~~~busyBit)) := by
  obtain ⟨hcontrol, hchannel, hpattern⟩ := h
  rw [write, if_neg hcontrol, if_pos hchannel, execute, if_pos hpattern]

theorem write_of_plain (b : Board ρ) {addr : UInt32} (h : addr &&& controlBit = 0)
    (data : UInt32) : write b addr data = .done () (b.storeRegister addr data) := by
  rw [write, if_pos h]

theorem write_of_not_starts {b : Board ρ} {addr data : UInt32} (hcontrol : addr &&& controlBit ≠ 0)
    (h : ¬ Starts b addr data) : write b addr data = .done ()
      ((b.storeRegister addr data).storeRegister (controlRegister addr) (data &&& ~~~busyBit)) := by
  rw [write, if_neg hcontrol]
  by_cases hchannel : channelOf addr = gpuChannel
  · rw [if_pos hchannel, execute, if_neg fun hpattern => h ⟨hcontrol, hchannel, hpattern⟩]
    rfl
  · rw [if_neg hchannel]
    rfl

/-- Without a transfer nothing can go wrong. -/
theorem exists_write_of_not_starts {b : Board ρ} {addr data : UInt32} (h : ¬ Starts b addr data) :
    ∃ b', write b addr data = .done () b' := by
  by_cases hplain : addr &&& controlBit = 0
  · exact ⟨_, write_of_plain b hplain data⟩
  · exact ⟨_, write_of_not_starts hplain h⟩

theorem starts_of_write_eq_fault {b b' : Board ρ} {addr data : UInt32} {cause : Fault}
    (h : write b addr data = .fault cause b') : Starts b addr data := by
  by_contra hstarts
  obtain ⟨b'', hdone⟩ := exists_write_of_not_starts hstarts
  rw [hdone] at h
  cases h

/-- However a write ends, what it has done to the board is to change the GPU and to store words in
registers of the channel. -/
theorem leaves_write_of_stores {P : Board ρ → Prop} {addr : UInt32}
    (hgpu : ∀ (b : Board ρ) (gpu : Gpu ρ), P b → P { b with gpu })
    (hstore : ∀ (b : Board ρ) (register value : UInt32), register = addr ∨
      register = addressRegister addr ∨ register = controlRegister addr → P b →
        P (b.storeRegister register value))
    {b : Board ρ} (hb : P b) (data : UInt32) : (write b addr data).Leaves P := by
  have hfirst : P (b.storeRegister addr data) := hstore b addr data (.inl rfl) hb
  by_cases hplain : addr &&& controlBit = 0
  · rw [write_of_plain b hplain]
    exact hfirst
  by_cases hstarts : Starts b addr data
  · rw [write_of_starts hstarts]
    refine Outcome.Leaves.andThen (p := P) ?_ (fun _ hb => hb) fun _ b' hb =>
      hstore b' _ _ (.inr (.inr rfl)) hb
    refine (leaves_walk _ _).mono ?_
    rintro _ ⟨gpu, value, rfl⟩
    exact hstore _ _ _ (.inr (.inl rfl)) (hgpu _ gpu hfirst)
  · rw [write_of_not_starts hplain hstarts]
    exact hstore _ _ _ (.inr (.inr rfl)) hfirst

end Dma

end GameConsole
