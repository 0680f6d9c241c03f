import GameConsole.Proofs.Board.Acceptance
import GameConsole.Proofs.Cpu.Frame
import GameConsole.Gpu.Raster

/-! Delay slots on the main board. A step gives up if as many instructions as RAM has words transfer
control one after the other. Their words are fetched from consecutive addresses, and so many of
these go through every word of RAM, of the boot ROM or of the block of registers, whichever the
first one lies in, unless they come to the end of the segment, behind which there is nothing. So a
step never gives up if there is one other word in RAM and one in the boot ROM. -/

namespace GameConsole

open Region

/-! ### Words that transfer control -/

namespace Instruction

/-- Whether the word of an instruction may transfer control: J, JAL, BEQ, BNE and BGTZ by their
opcodes, and JR by its function. -/
def isTransferWord (word : UInt32) : Bool :=
  let opcode := word.toNat / 0x4000000
  opcode ∈ [0x02, 0x03, 0x04, 0x05, 0x07] || opcode == 0x00 && word.toNat % 0x40 == 0x08

theorem isTransferWord_eq (word pc : UInt32) : isTransferWord word =
    match decode word pc with
    | .ok i => i.transfers
    | .error _ => false := by
  have hopcode : (word >>> 26).toNat = word.toNat / 0x4000000 := by
    simp [Nat.shiftRight_eq_div_pow]
  have hfunction : (word &&& 0x3F).toNat = word.toNat % 0x40 := by
    rw [UInt32.toNat_and]
    exact Nat.and_two_pow_sub_one_eq_mod _ 6
  simp only [decode, hopcode, hfunction, isTransferWord]
  generalize word.toNat / 0x4000000 = opcode
  generalize word.toNat % 0x40 = function
  split
  · rename_i i h
    split at h
    · split at h <;> cases h <;> rfl
    all_goals cases h
    all_goals rfl
  · rename_i e h
    split at h
    · split at h <;> cases h
      simp_all
    all_goals cases h
    simp_all

theorem decode_ne_runaway (word pc start : UInt32) :
    decode word pc ≠ .error (.runawayDelaySlots start) := by
  unfold decode
  dsimp only
  split
  · split <;> simp
  all_goals simp

end Instruction

namespace Computer

variable {β : Type} [Bus β] {c c' : Computer β}

/-- In a row of transfers the words follow each other in the address space, and nothing is written
that they are fetched from. -/
theorem Transfers.fetched {n : Nat} (h : Transfers n c c') : ∀ k < n, ∃ word,
    Bus.read c.bus .word (c.cpu.pc + 4 * .ofNat k) = .ok word ∧
      Instruction.isTransferWord word = true := by
  induction h with
  | none c => exact fun k hk => absurd hk (Nat.not_lt_zero k)
  | @next c c' c'' target n h rest ih =>
    obtain ⟨word, i, hread, hdecode, htransfers, -, hbus, hpc, -⟩ := exists_of_executeNext_eq_some h
    intro k hk
    cases k with
    | zero =>
      rw [show c.cpu.pc + 4 * UInt32.ofNat 0 = c.cpu.pc from UInt32.add_zero _]
      refine ⟨word, hread, ?_⟩
      rw [Instruction.isTransferWord_eq word c.cpu.pc, hdecode]
      exact htransfers
    | succ k =>
      have hfetch := ih k (Nat.lt_of_succ_lt_succ hk)
      rwa [hbus, hpc, Region.add_four_add_mul] at hfetch

/-- A fault comes from the instruction that the recursion ends with. -/
theorem Nested.exists_of_fault {n : Nat} {o : Outcome (Computer β) Unit} (h : Nested c n o)
    {cause : Fault} (ho : o = .fault cause c') :
    ∃ d : Computer β, d.executeNext = .fault cause c' := by
  induction h with
  | fault h =>
    cases ho
    exact ⟨_, h⟩
  | endless h => cases ho
  | plain h => cases ho
  | @transfer c d target n o h slot ih =>
    cases o with
    | done u d' => cases ho
    | endless => cases ho
    | fault e d' => exact ih ho

end Computer

/-! ### Consecutive words -/

namespace Region

/-- As many consecutive words as there are in a region go through each of them. Those that are not
in the segment of the first are in the one behind it. -/
theorem exists_wordStart_eq_of_lt {l : Nat} (hl : l ≤ 22) (pc : UInt32) {k : Nat} (hk : k < 2 ^ l) :
    ∃ i < 2 ^ l, wordStart (l + 2) (pc + 4 * .ofNat i) = 4 * k ∧
      ((pc + 4 * .ofNat i).toNat / 0x1000000 = pc.toNat / 0x1000000 ∨
        (pc + 4 * .ofNat i).toNat / 0x1000000 = (pc.toNat / 0x1000000 + 1) % 0x100) := by
  have hle : 2 ^ l ≤ 2 ^ 22 := Nat.pow_le_pow_right (by decide) hl
  have hdvd : 4 * 2 ^ l ∣ 2 ^ 32 := by
    rw [show 4 * 2 ^ l = 2 ^ (l + 2) by ring]
    exact pow_dvd_pow 2 (by omega)
  have hpc := pc.toNat_lt
  have hr : pc.toNat / 4 % 2 ^ l < 2 ^ l := Nat.mod_lt _ (by omega)
  -- the way from the first word to the one at `k`, once around the region if need be
  let i := (k + 2 ^ l - pc.toNat / 4 % 2 ^ l) % 2 ^ l
  have hi : i < 2 ^ l := Nat.mod_lt _ (by omega)
  have hindex : (pc.toNat / 4 + i) % 2 ^ l = k := by
    rw [Nat.add_mod_mod, ← Nat.mod_add_mod, Nat.add_sub_cancel' (by omega), Nat.add_mod_right,
      Nat.mod_eq_of_lt hk]
  have haddr : (pc + 4 * .ofNat i).toNat = (pc.toNat + 4 * i) % 2 ^ 32 := by
    simp only [UInt32.toNat_add, UInt32.toNat_mul, UInt32.toNat_ofNat', UInt32.reduceToNat]
    omega
  refine ⟨i, hi, ?_, ?_⟩
  · rw [wordStart, capacity_eq, haddr, show 2 ^ (l + 2) = 4 * 2 ^ l by ring,
      Nat.mod_mod_of_dvd _ hdvd, Nat.mod_mul_right_div_self,
      show (pc.toNat + 4 * i) / 4 = pc.toNat / 4 + i by omega, hindex, Nat.mul_comm]
  · rw [haddr]
    omega

end Region

namespace Board

variable {ρ : Type} {b : Board ρ} {addr : UInt32}

/-- The word of a storage that an address belongs to. -/
def storageWord (b : Board ρ) (addr : UInt32) : Storage → UInt32
  | .ram => b.memory.ram.loadWord addr
  | .rom => b.memory.rom.loadWord addr
  | .scratch => b.memory.io.loadWord addr

theorem read_word_of_storage {s : Storage} (h : Storage.ofAddress? addr = some s) :
    b.read .word addr = .ok (b.storageWord addr s) := by
  rw [Storage.ofAddress?_eq] at h
  unfold read
  cases hseg : Segment.ofAddress? addr with
  | none => simp [hseg] at h
  | some segment =>
    rw [hseg] at h
    cases segment <;> cases h <;> rfl

/-- The top bytes of the addresses that stand for something. -/
def mappedTops : List Nat := [0x00, 0x80, 0xA0, 0xBF, 0x1F]

theorem not_readable_of_top {w : Width} {top : Nat} (htop : addr.toNat / 0x1000000 = top)
    (h : top ∉ mappedTops) : ¬ Readable w addr := by
  simp only [mappedTops, List.mem_cons, List.not_mem_nil, or_false, not_or] at h
  obtain ⟨h00, h80, hA0, hBF, h1F⟩ := h
  simp [Readable, registerOffset?, Storage.ofAddress?, htop, h00, h80, hA0, hBF, h1F]

/-- The registers begin with one that cannot be read. -/
theorem not_readable_of_wordStart {w : Width} (htop : addr.toNat / 0x1000000 = 0x1F)
    (h : wordStart 16 addr = 0x400) : ¬ Readable w addr := by
  rw [wordStart, capacity_eq] at h
  have hoffset : registerOffset? addr = some (addr.toNat % 0x10000) := by
    rw [registerOffset?, if_pos (by omega)]
  simp only [Readable, hoffset]
  omega

/-- No transfer of control can be fetched from the address. -/
def NoTransferAt (b : Board ρ) (addr : UInt32) : Prop :=
  ∀ word, b.read .word addr = .ok word → Instruction.isTransferWord word = false

theorem noTransferAt_of_not_readable (h : ¬ Readable .word addr) : b.NoTransferAt addr := by
  intro word hread
  rw [b.read_of_not_readable h] at hread
  cases hread

/-- Behind the segment of `pc` nothing can be read, so it is enough that no transfer is in one of
the places for a word in the segment itself. -/
theorem exists_noTransferAt_of_segment {l k : Nat} {pc : UInt32} (hl : l ≤ 22) (hk : k < 2 ^ l)
    (hbehind : (pc.toNat / 0x1000000 + 1) % 0x100 ∉ mappedTops)
    (hplace : ∀ addr : UInt32, addr.toNat / 0x1000000 = pc.toNat / 0x1000000 →
      wordStart (l + 2) addr = 4 * k → b.NoTransferAt addr) :
    ∃ i < 2 ^ l, b.NoTransferAt (pc + 4 * .ofNat i) := by
  obtain ⟨i, hi, hstart, hsame | hnext⟩ := exists_wordStart_eq_of_lt hl pc hk
  · exact ⟨i, hi, hplace _ hsame hstart⟩
  · exact ⟨i, hi, noTransferAt_of_not_readable (not_readable_of_top hnext hbehind)⟩

/-- There is no transfer at one of as many consecutive addresses as RAM has words. -/
theorem exists_noTransferAt
    (hram : ∃ k < 0x80000,
      Instruction.isTransferWord (Bytes.wordAt b.memory.ram.bytes (4 * k)) = false)
    (hrom : ∃ k < 0x20000,
      Instruction.isTransferWord (Bytes.wordAt b.memory.rom.bytes (4 * k)) = false)
    (pc : UInt32) : ∃ i < 0x80000, b.NoTransferAt (pc + 4 * .ofNat i) := by
  by_cases htop : pc.toNat / 0x1000000 ∈ mappedTops
  · have hbehind : (pc.toNat / 0x1000000 + 1) % 0x100 ∉ mappedTops := by
      simp only [mappedTops, List.mem_cons, List.not_mem_nil, or_false] at htop ⊢
      omega
    simp only [mappedTops, List.mem_cons, List.not_mem_nil, or_false, ← or_assoc] at htop
    -- RAM in any of its mirrors, the boot ROM, and the block with the registers
    rcases htop with (htop | htop) | htop
    · obtain ⟨k, hk, hplain⟩ := hram
      refine exists_noTransferAt_of_segment (l := 19) (by decide) hk hbehind ?_
      intro addr hsame hstart word hread
      have hstorage : Storage.ofAddress? addr = some .ram := by
        rw [Storage.ofAddress?, hsame, if_pos (or_assoc.1 htop)]
      rw [read_word_of_storage hstorage, storageWord, loadWord_eq, hstart] at hread
      cases hread
      exact hplain
    · obtain ⟨k, hk, hplain⟩ := hrom
      obtain ⟨i, hi, hi'⟩ : ∃ i < 2 ^ 17, b.NoTransferAt (pc + 4 * .ofNat i) := by
        refine exists_noTransferAt_of_segment (by decide) hk hbehind ?_
        intro addr hsame hstart word hread
        have hstorage : Storage.ofAddress? addr = some .rom := by
          rw [Storage.ofAddress?, hsame, htop, if_neg (by decide), if_pos rfl]
        rw [read_word_of_storage hstorage, storageWord, loadWord_eq, hstart] at hread
        cases hread
        exact hplain
      exact ⟨i, hi.trans (by decide), hi'⟩
    · obtain ⟨i, hi, hi'⟩ : ∃ i < 2 ^ 14, b.NoTransferAt (pc + 4 * .ofNat i) := by
        refine exists_noTransferAt_of_segment (by decide) (show 0x100 < 2 ^ 14 by decide) hbehind ?_
        intro addr hsame hstart
        exact noTransferAt_of_not_readable (not_readable_of_wordStart (hsame.trans htop) hstart)
      exact ⟨i, hi.trans (by decide), hi'⟩
  · refine ⟨0, by decide, ?_⟩
    rw [show pc + 4 * UInt32.ofNat 0 = pc from UInt32.add_zero _]
    exact noTransferAt_of_not_readable (not_readable_of_top rfl htop)

theorem read_ne_runaway (b : Board ρ) (w : Width) (addr start : UInt32) :
    b.read w addr ≠ .error (.runawayDelaySlots start) := by
  intro h
  by_cases hreadable : Readable w addr
  · obtain ⟨value, hvalue⟩ := b.read_of_readable hreadable
    rw [hvalue] at h
    cases h
  · rw [b.read_of_not_readable hreadable, readRefusal] at h
    split at h <;> cases h

theorem refusal?_ne_runaway (w : Width) (addr value start : UInt32) :
    refusal? w addr value ≠ some (.runawayDelaySlots start) := by
  intro h
  rw [refusal?_eq] at h
  cases hseg : Segment.ofAddress? addr with
  | none => simp [hseg] at h
  | some segment =>
    cases segment with
    | ram | rom | scratch => simp [hseg] at h
    | hardware offset =>
      simp only [hseg, registerRefusal?] at h
      split_ifs at h <;> cases h

variable [Renderer ρ]

/-- Only a renderer could give a refused write out as a row of transfers. -/
theorem draw_of_write_runaway {b b' : Board ρ} {w : Width} {addr value start : UInt32}
    (h : b.write w addr value = .fault (.runawayDelaySlots start) b') :
    ∃ r command,
      Renderer.draw r command = (.error (.runawayDelaySlots start), b'.gpu.renderer) := by
  cases hrefusal : refusal? w addr value with
  | none =>
    obtain ⟨-, -, -, g, command, -, -, -, hdraw⟩ :=
      (Write.run_eq_fault_iff (x := ⟨w, addr, value⟩) hrefusal).1 ⟨b', h, rfl⟩
    exact ⟨g.renderer, command, hdraw⟩
  | some cause =>
    rw [b.write_of_refusal? hrefusal] at h
    cases h
    exact absurd hrefusal (refusal?_ne_runaway w addr value start)

end Board

/-! ### What the renderers refuse -/

/-- Commands are refused only for shapes that are not known. -/
def Renderer.RefusesShapes (ρ : Type) [Renderer ρ] : Prop :=
  ∀ (r : ρ) command cause r', Renderer.draw r command = (.error cause, r') →
    ∃ family, cause = .unsupportedPrimitive family

theorem Primitive.exists_of_decode_eq_error {opcode : UInt8} {words : Array UInt32} {cause : Fault}
    (h : decode opcode words = .error cause) : ∃ family, cause = .unsupportedPrimitive family := by
  unfold decode at h
  dsimp only at h
  split_ifs at h
  cases h
  exact ⟨_, rfl⟩

/-- A renderer that decodes every command and then draws the shape. -/
theorem Renderer.refusesShapes_of_decode {ρ : Type} [Renderer ρ] {f : ρ → Primitive → ρ}
    (h : ∀ r command, Renderer.draw r command =
      match Primitive.decode command.opcode command.words with
      | .error e => (.error e, r)
      | .ok primitive => (.ok (), f r primitive)) : RefusesShapes ρ := by
  intro r command cause r' hdraw
  rw [h] at hdraw
  cases hdecode : Primitive.decode command.opcode command.words with
  | ok primitive =>
    rw [hdecode] at hdraw
    cases hdraw
  | error e =>
    rw [hdecode] at hdraw
    cases hdraw
    exact Primitive.exists_of_decode_eq_error hdecode

theorem PrimitiveLog.refusesShapes : Renderer.RefusesShapes PrimitiveLog :=
  Renderer.refusesShapes_of_decode fun _ _ => rfl

theorem Raster.refusesShapes : Renderer.RefusesShapes Raster :=
  Renderer.refusesShapes_of_decode fun _ _ => rfl

theorem Recorder.refusesShapes : Renderer.RefusesShapes Recorder := by
  intro r command cause r' h
  cases h

namespace Computer

variable {ρ : Type} [Renderer ρ] {c : Computer (Board ρ)}

theorem draw_of_executeNext_runaway {c' : Computer (Board ρ)} {start : UInt32}
    (h : c.executeNext = .fault (.runawayDelaySlots start) c') :
    ∃ r command,
      Renderer.draw r command = (.error (.runawayDelaySlots start), c'.bus.gpu.renderer) := by
  rcases cases_of_executeNext_eq_fault h with ⟨w, addr, hread⟩ | ⟨word, hdecode⟩ |
    ⟨w, addr, value, hwrite⟩
  · exact absurd hread (Board.read_ne_runaway _ _ _ _)
  · exact absurd hdecode (Instruction.decode_ne_runaway _ _ _)
  · exact Board.draw_of_write_runaway hwrite

/-- A step on the main board never gives up, if a word of RAM and a word of the boot ROM transfer no
control. Only a renderer could then name a row of transfers, and those that refuse shapes do not. -/
theorem step_of_plain_words
    (hram : ∃ k < 0x80000,
      Instruction.isTransferWord (Bytes.wordAt c.bus.memory.ram.bytes (4 * k)) = false)
    (hrom : ∃ k < 0x20000,
      Instruction.isTransferWord (Bytes.wordAt c.bus.memory.rom.bytes (4 * k)) = false) :
    (∃ n < maxDelayChain, Nested c n c.step) ∧
    (∀ start c', c.step = .fault (.runawayDelaySlots start) c' → ∃ r command,
      Renderer.draw r command = (.error (.runawayDelaySlots start), c'.bus.gpu.renderer)) ∧
    (Renderer.RefusesShapes ρ → ∀ start c', c.step ≠ .fault (.runawayDelaySlots start) c') := by
  have hnested : ∃ n < maxDelayChain, Nested c n c.step := by
    rcases nested_or_transfers maxDelayChain c with ⟨n, hn, o, h⟩ | ⟨c', h⟩
    · rw [step_of_nested h hn]
      exact ⟨n, hn, h⟩
    · obtain ⟨i, hi, hnone⟩ := Board.exists_noTransferAt hram hrom c.cpu.pc
      obtain ⟨word, hread, htransfer⟩ := h.fetched i hi
      rw [hnone word hread] at htransfer
      cases htransfer
  have hdraw : ∀ start c', c.step = .fault (.runawayDelaySlots start) c' → ∃ r command,
      Renderer.draw r command = (.error (.runawayDelaySlots start), c'.bus.gpu.renderer) := by
    intro start c' hstep
    obtain ⟨n, -, h⟩ := hnested
    obtain ⟨d, hlast⟩ := h.exists_of_fault hstep
    exact draw_of_executeNext_runaway hlast
  refine ⟨hnested, hdraw, fun hshapes start c' hstep => ?_⟩
  obtain ⟨r, command, hrefused⟩ := hdraw start c' hstep
  obtain ⟨family, hcause⟩ := hshapes r command _ _ hrefused
  cases hcause

end Computer

/-- RAM in which every word jumps, for every byte is the same. -/
def Region.jumps : Region 21 := ⟨⟨Array.replicate 0x200000 8⟩, Array.size_replicate⟩

theorem Region.wordAt_jumps {i : Nat} (hi : i + 4 ≤ 0x200000) :
    Bytes.wordAt jumps.bytes i = 0x08080808 := by
  have hbyte {j : Nat} (hj : j < 0x200000) : Bytes.byteAt jumps.bytes j = 8 := by
    unfold Bytes.byteAt
    rw [dif_pos (hj.trans_eq jumps.size_bytes.symm)]
    exact Array.getElem_replicate _
  rw [Bytes.wordAt, hbyte (by omega), hbyte (by omega), hbyte (by omega), hbyte (by omega)]
  decide

namespace Computer

/-- The step starts behind the one word of RAM that is no jump, and goes through all the others. -/
theorem step_of_plain_words_jumps :
    let b : Board PrimitiveLog := ⟨⟨jumps.storeWord 0x1000 0, zeroed 19, zeroed 14⟩, .new {}⟩
    let c : Computer (Board PrimitiveLog) := ⟨{ Cpu.initial with pc := 0x1004 }, b⟩
    (∀ k < 0x80000, k ≠ 0x400 → Instruction.isTransferWord
      (Bytes.wordAt c.bus.memory.ram.bytes (4 * k)) = true) ∧
    (∃ n < maxDelayChain, Nested c n c.step) ∧
      ∀ start c', c.step ≠ .fault (.runawayDelaySlots start) c' := by
  intro b c
  have hword (k : Nat) : Bytes.wordAt c.bus.memory.ram.bytes (4 * k) =
      if wordStart 21 0x1000 = 4 * k then 0 else Bytes.wordAt jumps.bytes (4 * k) :=
    wordAt_storeWord (by decide) _ _ _ (Nat.mul_mod_right 4 k)
  have hstart : wordStart 21 0x1000 = 4 * 0x400 := by decide
  have hram : ∃ k < 0x80000,
      Instruction.isTransferWord (Bytes.wordAt c.bus.memory.ram.bytes (4 * k)) = false := by
    refine ⟨0x400, by decide, ?_⟩
    rw [hword, if_pos hstart]
    decide
  have hrom : ∃ k < 0x20000,
      Instruction.isTransferWord (Bytes.wordAt c.bus.memory.rom.bytes (4 * k)) = false := by
    refine ⟨0, by decide, ?_⟩
    rw [show c.bus.memory.rom = zeroed 19 from rfl, zeroed, Bytes.wordAt_zeros]
    decide
  obtain ⟨hnested, -, hnever⟩ := step_of_plain_words hram hrom
  refine ⟨fun k hk hne => ?_, hnested, hnever PrimitiveLog.refusesShapes⟩
  rw [hword, hstart, if_neg (by omega), wordAt_jumps (by omega)]
  decide

end Computer

end GameConsole
