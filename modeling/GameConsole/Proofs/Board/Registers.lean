import GameConsole.Proofs.Board.Storage

/-! The registers of the DMA engine over the history of a board. A register holds the last word
that was written to it, with two exceptions. The control word of a channel is rewritten by any word
that goes to the upper half of the block of the channel, and is kept without its busy bit; and a
transfer leaves the end marker in the address register of the GPU channel. Because no busy bit is
ever kept, only the start pattern itself, written to the control word, starts a transfer. -/

namespace GameConsole.Board

open Region

variable {ρ : Type} [Renderer ρ]

/-! ### Histories -/

/-- A write to the bus. -/
structure Write where
  width : Width
  addr : UInt32
  value : UInt32

namespace Write

def run (x : Write) (b : Board ρ) : Outcome (Board ρ) Unit := b.write x.width x.addr x.value

/-- The offset of the register that the write goes to. Registers take words only. -/
def offset? (x : Write) : Option UInt32 :=
  match x.width, Segment.ofAddress? x.addr with
  | .word, some (.hardware offset) => some offset
  | _, _ => none

/-- The value, if it goes to a register with one of these offsets. -/
def dataTo (offsets : Nat → Bool) (x : Write) : Option UInt32 :=
  x.offset?.bind fun offset => if offsets offset.toNat then some x.value else none

def dataToWord (word : Nat) : Write → Option UInt32 := dataTo fun offset => offset / 4 * 4 = word

/-- The value, if it goes to the upper half of the block of a channel. -/
def dataToControl (channel : Nat) : Write → Option UInt32 :=
  dataTo fun offset => offset / 16 = 0x108 + channel ∧ 8 ≤ offset % 16

/-- Whether this is the start pattern for the control word of the GPU channel. -/
def isStart (x : Write) : Bool := x.dataToWord 0x10A8 = some 0x01000401

/-- What the write leaves in the address register of the GPU channel, if it changes it. -/
def dataToAddress (x : Write) : Option UInt32 :=
  if x.isStart then some 0x00FFFFFF else x.dataToWord 0x10A0

/-- The write starts a transfer on this board. -/
def Starts (x : Write) (b : Board ρ) : Prop :=
  ∃ offset, x.offset? = some offset ∧ isChannelRegister offset = true ∧
    Dma.Starts b offset x.value

variable (x : Write) {offset : UInt32}

theorem dataTo_of_none (h : x.offset? = none) (offsets : Nat → Bool) :
    x.dataTo offsets = none := by
  rw [dataTo, h]
  rfl

theorem dataToWord_of_some (h : x.offset? = some offset) (word : Nat) : x.dataToWord word =
    if offset.toNat / 4 * 4 = word then some x.value else none := by
  simp [dataToWord, dataTo, h]

theorem dataToControl_of_some (h : x.offset? = some offset) (channel : Nat) :
    x.dataToControl channel =
      if offset.toNat / 16 = 0x108 + channel ∧ 8 ≤ offset.toNat % 16 then some x.value
      else none := by
  simp [dataToControl, dataTo, h]

theorem isStart_iff_of_some (h : x.offset? = some offset) : x.isStart = true ↔
    offset.toNat / 4 * 4 = 0x10A8 ∧ x.value = 0x01000401 := by
  simp [isStart, x.dataToWord_of_some h]

theorem isStart_iff : x.isStart = true ↔
    ∃ offset, x.offset? = some offset ∧ offset.toNat / 4 * 4 = 0x10A8 ∧ x.value = 0x01000401 := by
  cases h : x.offset? with
  | none => simp [isStart, dataToWord, x.dataTo_of_none h]
  | some offset => simp [x.isStart_iff_of_some h]

end Write

/-- The boards that come from another one by writes to the bus, with the accepted writes in their
order. Reads leave the board as it is, and have no part in this. A write may be refused, but each
transfer that was started has come to its end. -/
inductive Reached (start : Board ρ) : List Write → Board ρ → Prop
  | start : Reached start [] start
  | accepted {history b b'} (x : Write) (before : Reached start history b)
    (done : x.run b = .done () b') : Reached start (history ++ [x]) b'
  | refused {history b b' cause} (x : Write) (before : Reached start history b)
    (fault : x.run b = .fault cause b') (complete : ¬ x.Starts b) : Reached start history b'

/-- The last value that the writes of a history leave somewhere, or zero. -/
def latest (data : Write → Option UInt32) (history : List Write) : UInt32 :=
  (history.filterMap data).getLast?.getD 0

theorem latest_snoc (data : Write → Option UInt32) (history : List Write) (x : Write) :
    latest data (history ++ [x]) = (data x).getD (latest data history) := by
  cases hx : data x with
  | none => simp [latest, hx]
  | some value => simp [latest, hx]

/-! ### The effect of one write -/

/-- A word of the block of registers. -/
def registerAt (b : Board ρ) (word : Nat) : UInt32 := Bytes.wordAt b.memory.io.bytes word

/-- The words that can be read: those of the channels, and the one that enables them. -/
def IsRegister (word : Nat) : Prop :=
  word % 4 = 0 ∧ (0x1080 ≤ word ∧ word ≤ 0x10E8 ∨ word = 0x10F0)

section Words

omit [Renderer ρ]

theorem registerAt_storeRegister (b : Board ρ) {addr : UInt32} (haddr : addr.toNat < 0x4000)
    (v : UInt32) {word : Nat} (hword : word % 4 = 0) :
    (b.storeRegister addr v).registerAt word =
      if addr.toNat / 4 * 4 = word then v else b.registerAt word := by
  have hstart : wordStart 14 addr = addr.toNat / 4 * 4 := by
    rw [wordStart, capacity_eq]
    omega
  rw [registerAt, io_storeRegister, wordAt_storeWord (by decide) _ _ _ hword, hstart]
  rfl

theorem loadWord_eq_registerAt (b : Board ρ) {addr : UInt32} (haddr : addr.toNat < 0x4000) :
    b.memory.io.loadWord addr = b.registerAt (addr.toNat / 4 * 4) := by
  rw [loadWord_eq, registerAt, wordStart, capacity_eq]
  congr 1
  omega

theorem registerAt_gpu (b : Board ρ) (gpu : Gpu ρ) (word : Nat) :
    registerAt { b with gpu } word = b.registerAt word := rfl

theorem registerAt_onGpu (b : Board ρ) (f : Gpu ρ → Outcome (Gpu ρ) Unit) (word : Nat) :
    (b.onGpu f).Leaves fun b' => b'.registerAt word = b.registerAt word := by
  rw [onGpu_eq, Outcome.leaves_mapState]
  exact Outcome.leaves_iff.2 fun gpu _ => b.registerAt_gpu gpu word

end Words

/-- A word that goes to a channel is stored, and in the upper half of a block it counts as the
control word. The end of a transfer is left in the address register. -/
theorem registerAt_dmaWrite {b b' : Board ρ} {offset v : UInt32}
    (h : isChannelRegister offset = true) (hdone : Dma.write b offset v = .done () b')
    {word : Nat} (hword : word % 4 = 0) :
    b'.registerAt word =
      if 8 ≤ offset.toNat % 16 ∧ word = offset.toNat / 16 * 16 + 8 then v &&& ~~~Dma.busyBit
      else if word = offset.toNat / 4 * 4 then v
      else if Dma.Starts b offset v ∧ word = offset.toNat / 16 * 16 then Dma.endMarker
      else b.registerAt word := by
  obtain ⟨hlow, hhigh⟩ := isChannelRegister_iff.1 h
  have hcontrol : (Dma.controlRegister offset).toNat = offset.toNat / 16 * 16 + 8 := by
    rw [Dma.toNat_controlRegister]
    omega
  have haddress : (Dma.addressRegister offset).toNat = offset.toNat / 16 * 16 := by
    rw [Dma.toNat_addressRegister]
    omega
  by_cases hplain : offset &&& Dma.controlBit = 0
  · have hstarts : ¬ Dma.Starts b offset v := fun hs => hs.1 hplain
    rw [Dma.write_of_plain b hplain] at hdone
    cases hdone
    rw [Dma.and_controlBit_eq_zero_iff] at hplain
    rw [registerAt_storeRegister b (by omega) v hword]
    grind
  have hupper := (Dma.and_controlBit_eq_zero_iff offset).not.1 hplain
  by_cases hstarts : Dma.Starts b offset v
  · rw [Dma.write_of_starts hstarts, Outcome.andThen_eq_done_iff] at hdone
    obtain ⟨_, next, hwalk, hdone⟩ := hdone
    obtain ⟨gpu, rfl⟩ := Dma.walk_eq_done hwalk
    cases hdone
    rw [registerAt_storeRegister _ (by omega) _ hword,
      registerAt_storeRegister _ (by omega) _ hword, registerAt_gpu,
      registerAt_storeRegister b (by omega) v hword]
    grind
  · rw [Dma.write_of_not_starts hplain hstarts] at hdone
    cases hdone
    rw [registerAt_storeRegister _ (by omega) _ hword,
      registerAt_storeRegister b (by omega) v hword]
    grind

theorem Write.run_of_offset? {x : Write} {offset : UInt32} (h : x.offset? = some offset)
    (b : Board ρ) : x.run b = b.writeHardware offset x.value := by
  obtain ⟨w, addr, value⟩ := x
  simp only [offset?] at h
  split at h
  · rename_i hseg
    cases h
    simp only [run, write, hseg, Width.truncate]
    rfl
  · cases h

/-- What goes to no register changes none. -/
theorem registerAt_run (b : Board ρ) {x : Write} (h : x.offset? = none) {word : Nat}
    (hword : 0x400 ≤ word) :
    (x.run b).Leaves fun b' => b'.registerAt word = b.registerAt word := by
  have hstorage {s : Storage} (hs : Storage.ofAddress? x.addr = some s) (hrom : s ≠ .rom) :
      (x.run b).Leaves fun b' => b'.registerAt word = b.registerAt word := by
    obtain ⟨b', hwrite, -⟩ := b.write_storage x.width x.value hs hrom
    rw [Write.run, hwrite]
    exact wordAt_of_write_storage hs hrom hwrite hword
  have hof := Storage.ofAddress?_eq x.addr
  cases hseg : Segment.ofAddress? x.addr with
  | none => simp [Write.run, write, hseg, Outcome.Leaves]
  | some segment =>
    rw [hseg] at hof
    cases segment with
    | ram => exact hstorage hof (by decide)
    | scratch => exact hstorage hof (by decide)
    | rom => simp [Write.run, write, hseg, Outcome.Leaves]
    | hardware offset =>
      have hwidth : x.width ≠ .word := by
        intro hw
        simp [Write.offset?, hw, hseg] at h
      simp [Write.run, write, hseg, hwidth, Outcome.Leaves]

/-- The registers after an accepted write to one of them. -/
theorem registerAt_of_done {b b' : Board ρ} {x : Write} (hdone : x.run b = .done () b')
    {offset : UInt32} (hoffset : x.offset? = some offset) {word : Nat} (hword : IsRegister word) :
    b'.registerAt word =
      if 8 ≤ offset.toNat % 16 ∧ word = offset.toNat / 16 * 16 + 8 then
        x.value &&& ~~~Dma.busyBit
      else if word = offset.toNat / 4 * 4 then x.value
      else if Dma.Starts b offset x.value ∧ word = offset.toNat / 16 * 16 then Dma.endMarker
      else b.registerAt word := by
  obtain ⟨hmod, hrange⟩ := hword
  have hblock (hstarts : Dma.Starts b offset x.value) : offset.toNat / 16 % 16 = 10 :=
    (Dma.channelOf_eq_gpuChannel_iff offset).1 hstarts.2.1
  rw [Write.run_of_offset? hoffset, writeHardware] at hdone
  split_ifs at hdone with hchannel hgpu hdma
  · exact registerAt_dmaWrite hchannel hdone hmod
  · have hport := isGpuRegister_iff.1 hgpu
    have hsame := b.registerAt_onGpu (fun gpu => gpu.writeRegister offset x.value) word
    rw [hdone] at hsame
    rw [if_neg (by omega), if_neg (by omega), if_neg]
    · exact hsame
    rintro ⟨hstarts, -⟩
    have := hblock hstarts
    omega
  · have hword : offset.toNat = 0x10F0 ∨ offset.toNat = 0x10F4 := by
      rcases hdma with rfl | rfl
      · exact .inl rfl
      · exact .inr rfl
    cases hdone
    rw [registerAt_storeRegister b (by omega) _ hmod]
    by_cases hsame : word = offset.toNat / 4 * 4
    · rw [if_pos hsame.symm, if_neg (by omega), if_pos hsame]
    · rw [if_neg (Ne.symm hsame), if_neg (by omega), if_neg hsame, if_neg]
      rintro ⟨hstarts, -⟩
      have := hblock hstarts
      omega

/-- A refused write leaves the registers as they were. -/
theorem registerAt_of_fault {b b' : Board ρ} {x : Write} {cause : Fault}
    (hfault : x.run b = .fault cause b') (hcomplete : ¬ x.Starts b) {word : Nat}
    (hword : 0x400 ≤ word) : b'.registerAt word = b.registerAt word := by
  cases hoffset : x.offset? with
  | none =>
    have hrun := registerAt_run b hoffset hword
    rwa [hfault] at hrun
  | some offset =>
    rw [Write.run_of_offset? hoffset, writeHardware] at hfault
    split_ifs at hfault with hchannel hgpu hdma
    · exact absurd ⟨offset, hoffset, hchannel, Dma.starts_of_write_eq_fault hfault⟩ hcomplete
    · have hsame := b.registerAt_onGpu (fun gpu => gpu.writeRegister offset x.value) word
      rwa [hfault] at hsame
    · cases hfault
      rfl

/-! ### The registers after a history -/

/-- The registers hold what a history leaves in them. -/
structure Law (history : List Write) (b : Board ρ) : Prop where
  control : ∀ channel < 7, b.registerAt (0x1088 + 0x10 * channel) =
    latest (Write.dataToControl channel) history &&& ~~~Dma.busyBit
  address : b.registerAt 0x10A0 = latest Write.dataToAddress history
  plain : ∀ word, IsRegister word → word % 16 ≠ 8 → word ≠ 0x10A0 →
    b.registerAt word = latest (Write.dataToWord word) history

theorem and_not_busyBit_ne_startPattern (v : UInt32) :
    v &&& ~~~Dma.busyBit ≠ Dma.startPattern := by
  intro h
  have hbusy := congrArg (· &&& Dma.busyBit) h
  simp only [UInt32.and_assoc] at hbusy
  rw [show ~~~Dma.busyBit &&& Dma.busyBit = 0 by decide, UInt32.and_zero] at hbusy
  exact absurd hbusy (by decide)

section Law

omit [Renderer ρ]

/-- The control word is kept without its busy bit, so it never holds the start pattern for a write
to the word behind it to find there. -/
theorem Law.starts_iff {history : List Write} {b : Board ρ} (h : Law history b) (x : Write) :
    x.Starts b ↔ x.isStart = true := by
  have hidle : b.registerAt 0x10A8 ≠ Dma.startPattern := by
    rw [h.control 2 (by decide)]
    exact and_not_busyBit_ne_startPattern _
  have hload (offset : UInt32) (hblock : offset.toNat / 16 = 0x10A) :
      (b.storeRegister offset x.value).memory.io.loadWord (Dma.controlRegister offset) =
        if offset.toNat / 4 * 4 = 0x10A8 then x.value else b.registerAt 0x10A8 := by
    have hcontrol : (Dma.controlRegister offset).toNat = 0x10A8 := by
      rw [Dma.toNat_controlRegister]
      omega
    rw [loadWord_eq_registerAt _ (by omega), hcontrol]
    exact registerAt_storeRegister b (by omega) _ (by decide)
  rw [Write.isStart_iff]
  constructor
  · rintro ⟨offset, hoffset, hchannel, hupper, hgpu, hpattern⟩
    rw [isChannelRegister_iff] at hchannel
    rw [Dma.channelOf_eq_gpuChannel_iff] at hgpu
    rw [hload offset (by omega)] at hpattern
    refine ⟨offset, hoffset, ?_⟩
    by_cases hword : offset.toNat / 4 * 4 = 0x10A8
    · rw [if_pos hword] at hpattern
      exact ⟨hword, hpattern⟩
    · rw [if_neg hword] at hpattern
      exact absurd hpattern hidle
  · rintro ⟨offset, hoffset, hword, hvalue⟩
    refine ⟨offset, hoffset, isChannelRegister_iff.2 (by omega), ?_, ?_, ?_⟩
    · rw [Ne, Dma.and_controlBit_eq_zero_iff]
      omega
    · rw [Dma.channelOf_eq_gpuChannel_iff]
      omega
    · rw [hload offset (by omega), if_pos hword]
      exact hvalue

/-- The GPU channel is the only one with an address register that a transfer leaves changed. -/
theorem Law.starts_iff_of_some {history : List Write} {b : Board ρ} {x : Write}
    (h : Law history b) {offset : UInt32} (hoffset : x.offset? = some offset) :
    Dma.Starts b offset x.value ∧ 0x10A0 = offset.toNat / 16 * 16 ↔ x.isStart = true := by
  rw [← h.starts_iff x]
  constructor
  · rintro ⟨hstarts, hblock⟩
    exact ⟨offset, hoffset, isChannelRegister_iff.2 (by omega), hstarts⟩
  · rintro ⟨offset', hoffset', hchannel, hstarts⟩
    obtain rfl : offset = offset' := by simpa [hoffset] using hoffset'
    have := (Dma.channelOf_eq_gpuChannel_iff offset).1 hstarts.2.1
    rw [isChannelRegister_iff] at hchannel
    exact ⟨hstarts, by omega⟩

theorem Law.of_same {history : List Write} {b b' : Board ρ} (h : Law history b)
    (hsame : ∀ word, 0x400 ≤ word → b'.registerAt word = b.registerAt word) : Law history b' where
  control channel hchannel := by
    rw [hsame _ (by omega)]
    exact h.control channel hchannel
  address := by
    rw [hsame _ (by decide)]
    exact h.address
  plain word hword hcontrol haddress := by
    rw [hsame _ (by rw [IsRegister] at hword; omega)]
    exact h.plain word hword hcontrol haddress

/-- A write to no register leaves nothing in the registers. -/
theorem Law.snoc_of_none {history : List Write} {b : Board ρ} {x : Write} (h : Law history b)
    (hoffset : x.offset? = none) : Law (history ++ [x]) b where
  control channel hchannel := by
    rw [latest_snoc, Write.dataToControl, x.dataTo_of_none hoffset]
    exact h.control channel hchannel
  address := by
    have hstart : ¬ x.isStart = true := by simp [Write.isStart_iff, hoffset]
    rw [latest_snoc, Write.dataToAddress, if_neg hstart, Write.dataToWord,
      x.dataTo_of_none hoffset]
    exact h.address
  plain word hword hcontrol haddress := by
    rw [latest_snoc, Write.dataToWord, x.dataTo_of_none hoffset]
    exact h.plain word hword hcontrol haddress

end Law

theorem Law.accepted {history : List Write} {b b' : Board ρ} {x : Write} (h : Law history b)
    (hdone : x.run b = .done () b') : Law (history ++ [x]) b' := by
  cases hoffset : x.offset? with
  | none =>
    refine (h.of_same fun word hword => ?_).snoc_of_none hoffset
    have hrun := registerAt_run b hoffset hword
    rwa [hdone] at hrun
  | some offset =>
    refine { control := ?control, address := ?address, plain := ?plain }
    case control =>
      intro channel hchannel
      rw [registerAt_of_done hdone hoffset (by rw [IsRegister]; omega), latest_snoc,
        x.dataToControl_of_some hoffset]
      by_cases hupper : offset.toNat / 16 = 0x108 + channel ∧ 8 ≤ offset.toNat % 16
      · rw [if_pos (by omega), if_pos hupper]
        rfl
      · rw [if_neg (by omega), if_neg (by omega), if_neg (by omega), if_neg hupper]
        exact h.control channel hchannel
    case address =>
      have hstarts := h.starts_iff_of_some hoffset
      rw [registerAt_of_done hdone hoffset (by rw [IsRegister]; omega), latest_snoc,
        Write.dataToAddress, x.dataToWord_of_some hoffset, if_neg (by omega)]
      by_cases hstart : x.isStart = true
      · have hupper := (x.isStart_iff_of_some hoffset).1 hstart
        rw [if_neg (by omega), if_pos (hstarts.2 hstart), if_pos hstart]
        rfl
      · rw [if_neg (hstarts.not.2 hstart), if_neg hstart]
        by_cases hword : offset.toNat / 4 * 4 = 0x10A0
        · rw [if_pos hword.symm, if_pos hword]
          rfl
        · rw [if_neg (Ne.symm hword), if_neg hword]
          exact h.address
    case plain =>
      intro word hword hcontrol haddress
      rw [registerAt_of_done hdone hoffset hword, latest_snoc, x.dataToWord_of_some hoffset,
        if_neg (by omega)]
      by_cases hsame : offset.toNat / 4 * 4 = word
      · rw [if_pos hsame.symm, if_pos hsame]
        rfl
      · rw [if_neg (Ne.symm hsame), if_neg hsame, if_neg]
        · exact h.plain word hword hcontrol haddress
        · -- a transfer changes the address register of the GPU channel, and this is another word
          rintro ⟨hstarts, hblock⟩
          have := (Dma.channelOf_eq_gpuChannel_iff offset).1 hstarts.2.1
          rw [IsRegister] at hword
          omega

theorem Law.refused {history : List Write} {b b' : Board ρ} {x : Write} {cause : Fault}
    (h : Law history b) (hfault : x.run b = .fault cause b') (hcomplete : ¬ x.Starts b) :
    Law history b' :=
  h.of_same fun _ hword => registerAt_of_fault hfault hcomplete hword

theorem Law.reset (b : Board ρ) : Law [] b.reset := by
  have hzero (word : Nat) : b.reset.registerAt word = 0 := Bytes.wordAt_zeros _ _
  refine ⟨fun channel _ => ?_, hzero _, fun word _ _ _ => hzero _⟩
  rw [hzero]
  exact UInt32.zero_and.symm

theorem Reached.law {b₀ b : Board ρ} {history : List Write} (h : Reached b₀.reset history b) :
    Law history b := by
  induction h with
  | start => exact Law.reset b₀
  | accepted x _ done ih => exact ih.accepted done
  | refused x _ fault complete ih => exact ih.refused fault complete

/-- A write to a channel that is not a start is over at once, and the GPU has no part in it. -/
theorem Law.run_of_not_isStart {history : List Write} {b : Board ρ} (h : Law history b)
    {x : Write} {offset : UInt32} (hoffset : x.offset? = some offset)
    (hchannel : isChannelRegister offset = true) (hstart : ¬ x.isStart = true) :
    ∃ b', x.run b = .done () b' ∧ b'.gpu = b.gpu := by
  have hstarts : ¬ Dma.Starts b offset x.value := fun hs =>
    hstart ((h.starts_iff x).1 ⟨offset, hoffset, hchannel, hs⟩)
  rw [Write.run_of_offset? hoffset, writeHardware, if_pos hchannel]
  by_cases hplain : offset &&& Dma.controlBit = 0
  · exact ⟨_, Dma.write_of_plain b hplain x.value, gpu_storeRegister b _ _⟩
  · refine ⟨_, Dma.write_of_not_starts hplain hstarts, ?_⟩
    rw [gpu_storeRegister, gpu_storeRegister]

/-! ### What is read -/

/-- The word that an address reads, if that is one of these. -/
def registerOf? (addr : UInt32) : Option Nat :=
  match Segment.ofAddress? addr with
  | some (.hardware offset) =>
    if isChannelRegister offset ∨ offset = dmaControl then some (offset.toNat / 4 * 4) else none
  | _ => none

theorem isRegister_of_registerOf? {addr : UInt32} {word : Nat} (h : registerOf? addr = some word) :
    IsRegister word := by
  rw [registerOf?] at h
  split at h
  · split at h
    · rename_i hregister
      cases h
      rw [IsRegister]
      rcases hregister with hchannel | rfl
      · rw [isChannelRegister_iff] at hchannel
        omega
      · decide
    · cases h
  · cases h

omit [Renderer ρ] in
theorem read_register (b : Board ρ) {addr : UInt32} {word : Nat}
    (h : registerOf? addr = some word) :
    b.read .word addr = .ok (b.registerAt word) := by
  have hword := isRegister_of_registerOf? h
  rw [IsRegister] at hword
  rw [registerOf?] at h
  split at h
  · split at h
    · rename_i offset hseg hregister
      cases h
      have hport : ¬ isGpuRegister offset = true := by
        rw [isGpuRegister_iff]
        omega
      simp only [read, hseg, readHardware, if_true]
      rw [if_neg hport, if_pos hregister, loadWord_eq_registerAt b (by omega)]
    · cases h
  · cases h

/-- Every read of a word of the registers gives this value. -/
def Reads (b : Board ρ) (word : Nat) (value : UInt32) : Prop :=
  ∀ addr, registerOf? addr = some word → b.read .word addr = .ok value

/-- Only the writes to the channels and to the word that enables them change one of these words. -/
theorem registerAt_run_of_apart (b : Board ρ) {x : Write}
    (h : ∀ offset, x.offset? = some offset →
      isGpuRegister offset = true ∨ offset = dmaInterrupt) {word : Nat} (hword : IsRegister word) :
    (x.run b).Leaves fun b' => b'.registerAt word = b.registerAt word := by
  rw [IsRegister] at hword
  cases hoffset : x.offset? with
  | none => exact registerAt_run b hoffset (by omega)
  | some offset =>
    have hplace : 0x10F4 ≤ offset.toNat := by
      rcases h offset hoffset with hport | rfl
      · rw [isGpuRegister_iff] at hport
        omega
      · decide
    have hchannel : ¬ isChannelRegister offset = true := by
      rw [isChannelRegister_iff]
      omega
    rw [Write.run_of_offset? hoffset, writeHardware, if_neg hchannel]
    split_ifs with hport hdma
    · exact b.registerAt_onGpu _ word
    · have hinterrupt : offset = dmaInterrupt := (h offset hoffset).resolve_left hport
      subst hinterrupt
      exact (registerAt_storeRegister b (by decide) _ hword.1).trans (if_neg (by omega))
    · rfl

/-- The registers of the DMA engine, after a reset and any history of writes to the bus, read as the
last words that went to them, and one write alone starts transfers. -/
theorem Reached.reads_latest {b₀ b : Board ρ} {history : List Write}
    (h : Reached b₀.reset history b) :
    (∀ channel < 7, b.Reads (0x1088 + 0x10 * channel)
      (latest (Write.dataToControl channel) history &&& ~~~Dma.busyBit)) ∧
    b.Reads 0x10A0 (latest Write.dataToAddress history) ∧
    (∀ word, word % 16 ≠ 8 → word ≠ 0x10A0 →
      b.Reads word (latest (Write.dataToWord word) history)) ∧
    (∀ x : Write, x.Starts b ↔ x.isStart = true) ∧
    (∀ (x : Write) (offset : UInt32), x.offset? = some offset → isChannelRegister offset = true →
      x.isStart = false → ∃ b', x.run b = .done () b' ∧ b'.gpu = b.gpu) ∧
    ∀ x : Write,
      (∀ offset, x.offset? = some offset → isGpuRegister offset = true ∨ offset = dmaInterrupt) →
      ∀ addr word, registerOf? addr = some word →
        (x.run b).Leaves fun b' => b'.read .word addr = b.read .word addr := by
  have hlaw := h.law
  refine ⟨fun channel hchannel addr haddr => ?_, fun addr haddr => ?_,
    fun word hcontrol haddress addr haddr => ?_, hlaw.starts_iff,
    fun x offset hoffset hchannel hstart => ?_, fun x hx addr word haddr => ?_⟩
  · rw [b.read_register haddr, hlaw.control channel hchannel]
  · rw [b.read_register haddr, hlaw.address]
  · rw [b.read_register haddr, hlaw.plain word (isRegister_of_registerOf? haddr) hcontrol haddress]
  · exact hlaw.run_of_not_isStart hoffset hchannel (by simp [hstart])
  · refine (b.registerAt_run_of_apart hx (isRegister_of_registerOf? haddr)).mono fun b' hsame => ?_
    rw [b'.read_register haddr, b.read_register haddr, hsame]

/-- The start pattern, but sent to the word behind the control word: the control word then reads as
that pattern without its busy bit, and no transfer has run. -/
theorem reads_latest_of_word_behind :
    let x : Write := ⟨.word, 0x1F8010AC, 0x01000401⟩
    ∃ b : Board Recorder, Reached (new {}).reset [x] b ∧
      b.read .word 0x1F8010A8 = .ok 0x00000401 := by
  intro x
  have hstart : Reached (new ({} : Recorder)).reset [] (new {}).reset := .start
  obtain ⟨-, -, -, -, hrun, -⟩ := hstart.reads_latest
  obtain ⟨b, hdone, -⟩ := hrun x 0x10AC (by decide) (by decide) (by decide)
  have hreached : Reached (new ({} : Recorder)).reset [x] b := .accepted x hstart hdone
  have hread := hreached.reads_latest.1 2 (by decide) 0x1F8010A8 (by decide)
  rw [show latest (Write.dataToControl 2) [x] &&& ~~~Dma.busyBit = 0x00000401 by decide] at hread
  exact ⟨b, hreached, hread⟩

end GameConsole.Board
