import GameConsole.Proofs.Board.WalkLength
import GameConsole.Proofs.Gpu.Refusal

/-! Which accesses the bus accepts. That depends on the width and the address, and for the status
register of the GPU on the top byte of the value, but never on the state of the board. A refused
access changes nothing. An accepted read has an answer. An accepted write can only be ended early by
a command among the words that it feeds the GPU with, which the renderer cannot draw; and one that
does not come back has set off a transfer along a list without an end. -/

namespace GameConsole

open Region

theorem Width.truncate_eq (w : Width) (v : UInt32) :
    w.truncate v = .ofNat (v.toNat % 2 ^ w.bits) := by
  rw [← toNat_truncate, UInt32.ofNat_toNat]

/-! ### The ports of the GPU by numbers -/

theorem toNat_and_15 (v : UInt32) : (v &&& 0xF).toNat = v.toNat % 16 := by
  rw [UInt32.toNat_and]
  exact Nat.and_two_pow_sub_one_eq_mod _ 4

namespace Gpu

variable {ρ : Type}

theorem control_eq (g : Gpu ρ) (data : UInt32) : g.control data =
    let command := data.toNat / 0x1000000
    if command = 0x00 then .done () { g with status := readyStatus }
    else if 0x03 ≤ command ∧ command ≤ 0x08 then .done () g
    else .fault (.gpuStatusCommand (.ofNat command)) g := by
  have hbyte : (data >>> 24).toUInt8 = .ofNat (data.toNat / 0x1000000) := by
    apply UInt8.toNat_inj.1
    rw [UInt32.toNat_toUInt8, toNat_shiftRight_24, UInt8.toNat_ofNat']
  simp only [control, ← UInt32.toNat_inj, UInt32.le_iff_toNat_le, toNat_shiftRight_24, hbyte,
    UInt32.reduceToNat]

theorem readRegister_eq (g : Gpu ρ) (addr : UInt32) : g.readRegister addr =
    if addr.toNat % 16 = 0 then .ok 0
    else if addr.toNat % 16 = 4 then .ok g.status
    else .error (.hardwareRead .word addr) := by
  simp only [readRegister, ← UInt32.toNat_inj, toNat_and_15, UInt32.reduceToNat]

theorem writeRegister_eq [Renderer ρ] (g : Gpu ρ) (addr data : UInt32) : g.writeRegister addr data =
    if addr.toNat % 16 = 0 then g.feed data
    else if addr.toNat % 16 = 4 then g.control data
    else .fault (.hardwareWrite .word addr data) g := by
  simp only [writeRegister, ← UInt32.toNat_inj, toNat_and_15, UInt32.reduceToNat]

end Gpu

namespace Board

variable {ρ : Type}

/-! ### What is accepted -/

/-- The offset of the hardware register that an address stands for: its low sixteen bits. -/
def registerOffset? (addr : UInt32) : Option Nat :=
  let offset := addr.toNat % 0x10000
  if addr.toNat / 0x1000000 = 0x1F ∧ 0x400 ≤ offset then some offset else none

/-- Storage can be read at every width, and some registers as words. -/
def Readable (w : Width) (addr : UInt32) : Prop :=
  match registerOffset? addr with
  | some offset => w = .word ∧
    (0x1080 ≤ offset ∧ offset ≤ 0x10E8 ∨ offset = 0x10F0 ∨ offset = 0x1810 ∨ offset = 0x1814)
  | none => Storage.ofAddress? addr ≠ none

/-- How a read is refused that is not accepted. -/
def readRefusal (w : Width) (addr : UInt32) : Fault :=
  match registerOffset? addr with
  | some offset => .hardwareRead w (.ofNat offset)
  | none => .unmappedRead w addr

/-- How a word for a register is refused. -/
def registerRefusal? (offset : Nat) (data : UInt32) : Option Fault :=
  if 0x1080 ≤ offset ∧ offset ≤ 0x10E8 ∨ offset = 0x10F0 ∨ offset = 0x10F4 ∨ offset = 0x1810 then
    none
  else if offset = 0x1814 then
    let command := data.toNat / 0x1000000
    if command = 0x00 ∨ 0x03 ≤ command ∧ command ≤ 0x08 then none
    else some (.gpuStatusCommand (.ofNat command))
  else some (.hardwareWrite .word (.ofNat offset) data)

/-- How a write is refused. -/
def refusal? (w : Width) (addr value : UInt32) : Option Fault :=
  let data := UInt32.ofNat (value.toNat % 2 ^ w.bits)
  match registerOffset? addr with
  | some offset =>
    if w = .word then registerRefusal? offset data
    else some (.hardwareWrite w (.ofNat offset) data)
  | none =>
    match Storage.ofAddress? addr with
    | some .ram | some .scratch => none
    | some .rom | none => some (.unmappedWrite w addr data)

theorem registerOffset?_eq (addr : UInt32) : registerOffset? addr =
    match Segment.ofAddress? addr with
    | some (.hardware offset) => some offset.toNat
    | some .ram | some .rom | some .scratch | none => none := by
  have hoff : (addr &&& 0xFFFF).toNat = addr.toNat % 0x10000 := Width.toNat_truncate .half addr
  simp only [registerOffset?, Segment.ofAddress?, ← UInt32.toNat_inj, UInt32.lt_iff_toNat_lt,
    toNat_shiftRight_24, hoff, UInt32.reduceToNat]
  by_cases hlow : addr.toNat % 0x10000 < 0x400
  · rw [if_neg (by omega)]
    simp only [hlow]
    split_ifs <;> rfl
  · simp only [hlow]
    split_ifs
    any_goals omega
    all_goals simp [hoff]

/-- The spec of a write in the words of the bus. -/
theorem refusal?_eq (w : Width) (addr value : UInt32) : refusal? w addr value =
    match Segment.ofAddress? addr with
    | some .ram | some .scratch => none
    | some (.hardware offset) =>
      if w = .word then registerRefusal? offset.toNat value
      else some (.hardwareWrite w offset (w.truncate value))
    | some .rom | none => some (.unmappedWrite w addr (w.truncate value)) := by
  rw [refusal?, registerOffset?_eq, Storage.ofAddress?_eq, ← Width.truncate_eq]
  cases Segment.ofAddress? addr with
  | none => rfl
  | some segment =>
    cases segment with
    | ram | rom | scratch => rfl
    | hardware offset => cases w <;> simp [Width.truncate]

/-! ### Reads -/

theorem readHardware_eq (b : Board ρ) (offset : UInt32) : b.readHardware offset =
    if offset.toNat = 0x1810 then .ok 0
    else if offset.toNat = 0x1814 then .ok b.gpu.status
    else if 0x1080 ≤ offset.toNat ∧ offset.toNat ≤ 0x10E8 ∨ offset.toNat = 0x10F0 then
      .ok (b.memory.io.loadWord offset)
    else .error (.hardwareRead .word offset) := by
  have hcontrol : offset = dmaControl ↔ offset.toNat = 0x10F0 := UInt32.toNat_inj.symm
  simp only [readHardware, isGpuRegister_iff, isChannelRegister_iff, hcontrol, Gpu.readRegister_eq]
  split_ifs
  any_goals rfl
  all_goals omega

theorem read_of_readable (b : Board ρ) {w : Width} {addr : UInt32} (h : Readable w addr) :
    ∃ value, b.read w addr = .ok value := by
  rw [Readable, registerOffset?_eq, Storage.ofAddress?_eq] at h
  unfold read
  cases hseg : Segment.ofAddress? addr with
  | none => simp [hseg] at h
  | some segment =>
    cases segment with
    | ram | rom | scratch => exact ⟨_, rfl⟩
    | hardware offset =>
      simp only [hseg] at h ⊢
      obtain ⟨rfl, hoffset⟩ := h
      rw [if_pos rfl, readHardware_eq]
      split_ifs
      any_goals exact ⟨_, rfl⟩
      omega

theorem read_of_not_readable (b : Board ρ) {w : Width} {addr : UInt32} (h : ¬ Readable w addr) :
    b.read w addr = .error (readRefusal w addr) := by
  rw [Readable, registerOffset?_eq, Storage.ofAddress?_eq] at h
  rw [readRefusal, registerOffset?_eq]
  unfold read
  cases hseg : Segment.ofAddress? addr with
  | none => rfl
  | some segment =>
    cases segment with
    | ram | rom | scratch => simp [hseg] at h
    | hardware offset =>
      simp only [hseg, UInt32.ofNat_toNat] at h ⊢
      split_ifs with hword
      · rw [not_and] at h
        have hoffset := h hword
        rw [hword, readHardware_eq, if_neg (by omega), if_neg (by omega), if_neg (by omega)]
      · rfl

/-! ### Writes -/

variable [Renderer ρ]

theorem writeHardware_eq (b : Board ρ) (offset data : UInt32) : b.writeHardware offset data =
    if isChannelRegister offset then Dma.write b offset data
    else if offset.toNat = 0x1810 then b.onGpu fun gpu => gpu.feed data
    else if offset.toNat = 0x1814 then b.onGpu fun gpu => gpu.control data
    else if offset.toNat = 0x10F0 ∨ offset.toNat = 0x10F4 then
      .done () (b.storeRegister offset data)
    else .fault (.hardwareWrite .word offset data) b := by
  have hcontrol : offset = dmaControl ↔ offset.toNat = 0x10F0 := UInt32.toNat_inj.symm
  have hinterrupt : offset = dmaInterrupt ↔ offset.toNat = 0x10F4 := UInt32.toNat_inj.symm
  simp only [writeHardware, isGpuRegister_iff, hcontrol, hinterrupt, Gpu.writeRegister_eq, onGpu_eq]
  split_ifs
  any_goals rfl
  all_goals omega

theorem writeHardware_of_refusal? (b : Board ρ) {offset data : UInt32} {cause : Fault}
    (h : registerRefusal? offset.toNat data = some cause) :
    b.writeHardware offset data = .fault cause b := by
  unfold registerRefusal? at h
  split_ifs at h with haccepted hstatus
  · have hchannel : ¬ isChannelRegister offset = true := isChannelRegister_iff.not.2 (by omega)
    dsimp only at h
    split_ifs at h with hcommand
    cases h
    rw [not_or] at hcommand
    rw [writeHardware_eq, if_neg hchannel, if_neg (by omega), if_pos hstatus, onGpu_eq,
      Gpu.control_eq]
    dsimp only
    rw [if_neg hcommand.1, if_neg hcommand.2]
    rfl
  · cases h
    have hchannel : ¬ isChannelRegister offset = true := isChannelRegister_iff.not.2 (by omega)
    rw [writeHardware_eq, if_neg hchannel, if_neg (by omega), if_neg hstatus, if_neg (by omega),
      UInt32.ofNat_toNat]

theorem write_of_refusal? (b : Board ρ) {w : Width} {addr value : UInt32} {cause : Fault}
    (h : refusal? w addr value = some cause) : b.write w addr value = .fault cause b := by
  rw [refusal?_eq] at h
  unfold write
  cases hseg : Segment.ofAddress? addr with
  | none =>
    rw [hseg] at h
    cases h
    rfl
  | some segment =>
    rw [hseg] at h
    cases segment with
    | ram | scratch => cases h
    | rom =>
      cases h
      rfl
    | hardware offset =>
      dsimp only at h ⊢
      split_ifs at h with hword
      · subst hword
        exact b.writeHardware_of_refusal? h
      · cases h
        rw [if_neg hword]

/-! ### How an accepted write ends -/

/-- The words with which a write feeds the GPU: its value through the data port, or those of the
first nodes of the list that it starts a transfer of. -/
inductive Write.Feeds (x : Write) (b : Board ρ) : List UInt32 → Prop
  | port (h : x.offset? = some 0x1810) : x.Feeds b [x.value]
  | nodes (h : x.Starts b) (n : Nat) (hopen : ∀ m < n,
      Dma.nodeAt b.memory.ram (b.memory.io.loadWord 0x10A0) m ≠ Dma.endMarker) :
    x.Feeds b (Dma.contents b.memory.ram
      (Dma.firstNodes b.memory.ram (b.memory.io.loadWord 0x10A0) n))

/-- One of the words that a write feeds the GPU with completes a command that the renderer cannot
draw, and the renderer is left as `r`. -/
def Write.Undrawn (x : Write) (b : Board ρ) (cause : Fault) (r : ρ) : Prop :=
  ∃ before word after g command, x.Feeds b (before ++ word :: after) ∧
    b.gpu.feedAll before = .done () g ∧ (g.pipe.push word).2 = some command ∧
    Renderer.draw g.renderer command = (.error cause, r)

section

variable {x : Write} {b b' : Board ρ} {cause : Fault}

theorem Write.undrawn_iff {r : ρ} : x.Undrawn b cause r ↔
    ∃ words gpu, x.Feeds b words ∧ b.gpu.feedAll words = .fault cause gpu ∧ gpu.renderer = r := by
  constructor
  · rintro ⟨before, word, after, g, command, hfeeds, hbefore, hpush, hdraw⟩
    have hfed : b.gpu.feedAll (before ++ word :: after) =
        .fault cause { g with pipe := (g.pipe.push word).1, renderer := r } := by
      rw [Gpu.feedAll_append, hbefore, Outcome.done_andThen, Gpu.feedAll,
        Gpu.feed_of_draw hpush hdraw, Outcome.fault_andThen]
    exact ⟨_, _, hfeeds, hfed, rfl⟩
  · rintro ⟨_, gpu, hfeeds, hfed, rfl⟩
    obtain ⟨before, word, after, g, rfl, hbefore, hword⟩ := Gpu.exists_feed_of_feedAll hfed
    obtain ⟨command, hpush, hdraw, -⟩ := Gpu.exists_draw_of_feed hword
    exact ⟨before, word, after, g, command, hfeeds, hbefore, hpush, hdraw⟩

theorem Write.run_of_port (h : x.offset? = some 0x1810) (b : Board ρ) :
    x.run b = b.onGpu fun gpu => gpu.feed x.value := by
  rw [Write.run_of_offset? h, writeHardware_eq, if_neg (by decide), if_pos (by decide)]

/-- A refused command among the words ends the write. -/
theorem Write.Feeds.run_eq_fault {words : List UInt32} {gpu : Gpu ρ} (h : x.Feeds b words)
    (hfed : b.gpu.feedAll words = .fault cause gpu) :
    (x.run b).mapState Board.gpu = .fault cause gpu := by
  cases h with
  | port hport =>
    rw [Gpu.feedAll_singleton] at hfed
    rw [Write.run_of_port hport, onGpu_eq, hfed]
    rfl
  | nodes hstarts n hopen => exact Write.mapState_gpu_run_of_undrawn hstarts hopen hfed

/-- Nothing else ends a transfer early. -/
theorem Write.exists_feeds_of_starts (hstarts : x.Starts b) (h : x.run b = .fault cause b') :
    ∃ words, x.Feeds b words ∧ b.gpu.feedAll words = .fault cause b'.gpu := by
  by_cases hend : ∃ n, Dma.nodeAt b.memory.ram (b.memory.io.loadWord 0x10A0) n = Dma.endMarker
  · obtain ⟨k, hk⟩ := hend
    obtain ⟨n, -, hn, hopen⟩ := Dma.exists_first_endMarker hk
    have hfed := Write.mapState_gpu_run_of_endMarker hstarts hn hopen
    rw [h] at hfed
    exact ⟨_, .nodes hstarts n hopen, hfed.symm⟩
  · rw [not_exists] at hend
    have hundrawn : ∃ n e gpu, b.gpu.feedAll (Dma.contents b.memory.ram
        (Dma.firstNodes b.memory.ram (b.memory.io.loadWord 0x10A0) n)) = .fault e gpu := by
      by_contra hdrawn
      simp only [not_exists] at hdrawn
      rw [Write.run_eq_endless hstarts hend hdrawn] at h
      cases h
    obtain ⟨n, e, gpu, hfed⟩ := hundrawn
    have hgpu := Write.mapState_gpu_run_of_undrawn hstarts (fun m _ => hend m) hfed
    rw [h] at hgpu
    cases hgpu
    exact ⟨_, .nodes hstarts n fun m _ => hend m, hfed⟩

/-- A transfer that does not come back is one along a list without an end. -/
theorem Write.endMarker_ne_of_run_eq_endless (hstarts : x.Starts b) (h : x.run b = .endless)
    (n : Nat) : Dma.nodeAt b.memory.ram (b.memory.io.loadWord 0x10A0) n ≠ Dma.endMarker := by
  intro hn
  obtain ⟨k, -, hk, hopen⟩ := Dma.exists_first_endMarker hn
  have hfed := Write.mapState_gpu_run_of_endMarker hstarts hk hopen
  rw [h] at hfed
  exact Gpu.feedAll_ne_endless _ _ hfed.symm

theorem Write.registerOffset?_of_offset? {offset : UInt32} (h : x.offset? = some offset) :
    registerOffset? x.addr = some offset.toNat := by
  unfold Write.offset? at h
  split at h
  · rename_i hseg
    cases h
    rw [registerOffset?_eq, hseg]
  · cases h

/-- An accepted write to storage, or to a register that only keeps its word, succeeds. The others
go to the data port or set a transfer off. -/
theorem Write.cases_of_accepted (b : Board ρ)
    (haccepted : refusal? x.width x.addr x.value = none) :
    (∃ b', x.run b = .done () b') ∨ x.offset? = some 0x1810 ∨ x.Starts b := by
  rw [refusal?_eq] at haccepted
  cases hseg : Segment.ofAddress? x.addr with
  | none => simp [hseg] at haccepted
  | some segment =>
    cases segment with
    | rom => simp [hseg] at haccepted
    | ram | scratch =>
      simp only [run, write, hseg]
      exact .inl ⟨_, rfl⟩
    | hardware offset =>
      simp only [hseg] at haccepted
      split_ifs at haccepted with hword
      have hoffset : x.offset? = some offset := by simp [Write.offset?, hword, hseg]
      rw [Write.run_of_offset? hoffset, writeHardware_eq]
      unfold registerRefusal? at haccepted
      split_ifs with hchannel hdata hstatus hdma
      · by_cases hstarts : Dma.Starts b offset x.value
        · exact .inr (.inr ⟨offset, hoffset, hchannel, hstarts⟩)
        · exact .inl (Dma.exists_write_of_not_starts hstarts)
      · exact .inr (.inl (hoffset.trans (congrArg some (UInt32.toNat_inj.1 hdata))))
      · rw [if_neg (by omega), if_pos hstatus] at haccepted
        rw [onGpu_eq, Gpu.control_eq]
        dsimp only at haccepted ⊢
        split_ifs at haccepted ⊢ with hcommand
        · exact .inl ⟨_, rfl⟩
        · exact .inl ⟨_, rfl⟩
        · omega
      · exact .inl ⟨_, rfl⟩
      · rw [isChannelRegister_iff] at hchannel
        rw [if_neg (by omega), if_neg hstatus] at haccepted
        cases haccepted

/-- An accepted write is ended early by what cannot be drawn, and by nothing else. -/
theorem Write.run_eq_fault_iff (haccepted : refusal? x.width x.addr x.value = none) {r : ρ} :
    (∃ b', x.run b = .fault cause b' ∧ b'.gpu.renderer = r) ↔ x.Undrawn b cause r := by
  rw [Write.undrawn_iff]
  constructor
  · rintro ⟨b', hrun, rfl⟩
    have hfed : ∃ words, x.Feeds b words ∧ b.gpu.feedAll words = .fault cause b'.gpu := by
      rcases Write.cases_of_accepted b haccepted with ⟨b'', hdone⟩ | hport | hstarts
      · rw [hdone] at hrun
        cases hrun
      · refine ⟨_, .port hport, ?_⟩
        rw [Write.run_of_port hport, onGpu_eq] at hrun
        obtain ⟨gpu, hfeed, rfl⟩ := Outcome.mapState_eq_fault_iff.1 hrun
        rw [Gpu.feedAll_singleton, hfeed]
      · exact Write.exists_feeds_of_starts hstarts hrun
    obtain ⟨words, hfeeds, hwords⟩ := hfed
    exact ⟨words, b'.gpu, hfeeds, hwords, rfl⟩
  · rintro ⟨words, gpu, hfeeds, hfed, rfl⟩
    obtain ⟨b', hrun, rfl⟩ := Outcome.mapState_eq_fault_iff.1 (hfeeds.run_eq_fault hfed)
    exact ⟨b', hrun, rfl⟩

end

/-- The accesses that the bus accepts, for every board, with the cause of each refusal and with the
only ways in which an accepted write fails to come to its end. -/
theorem accesses_accepted (b : Board ρ) (w : Width) (addr : UInt32) :
    ((∃ value, b.read w addr = .ok value) ↔ Readable w addr) ∧
    (∀ cause, b.read w addr = .error cause → cause = readRefusal w addr) ∧
    ∀ value,
      (∀ cause, refusal? w addr value = some cause → b.write w addr value = .fault cause b) ∧
      (refusal? w addr value = none →
        (∀ cause r, (∃ b', b.write w addr value = .fault cause b' ∧ b'.gpu.renderer = r) ↔
          Write.Undrawn ⟨w, addr, value⟩ b cause r) ∧
        (b.write w addr value = .endless → Write.Starts ⟨w, addr, value⟩ b ∧
          ∀ n, Dma.nodeAt b.memory.ram (b.memory.io.loadWord 0x10A0) n ≠ Dma.endMarker) ∧
        (registerOffset? addr ∈ [none, some 0x10F0, some 0x10F4] →
          ∃ b', b.write w addr value = .done () b')) := by
  refine ⟨⟨fun ⟨value, hread⟩ => ?_, b.read_of_readable⟩, fun cause hread => ?_, fun value =>
    ⟨fun cause => b.write_of_refusal?, fun haccepted => ?_⟩⟩
  · by_contra h
    rw [b.read_of_not_readable h] at hread
    cases hread
  · by_cases h : Readable w addr
    · obtain ⟨value, hvalue⟩ := b.read_of_readable h
      rw [hvalue] at hread
      cases hread
    · rw [b.read_of_not_readable h] at hread
      cases hread
      rfl
  · have hcases := Write.cases_of_accepted (x := ⟨w, addr, value⟩) b haccepted
    refine ⟨fun cause r => Write.run_eq_fault_iff (x := ⟨w, addr, value⟩) haccepted,
      fun hendless => ?_, fun hkept => ?_⟩
    · rcases hcases with ⟨b', hdone⟩ | hport | hstarts
      · cases hdone.symm.trans hendless
      · have hfeed := (Write.run_of_port hport b).symm.trans hendless
        rw [onGpu_eq, Outcome.mapState_eq_endless_iff] at hfeed
        exact absurd hfeed (Gpu.feed_ne_endless _ _)
      · exact ⟨hstarts, Write.endMarker_ne_of_run_eq_endless hstarts hendless⟩
    · simp only [List.mem_cons, List.not_mem_nil, or_false] at hkept
      rcases hcases with hdone | hport | ⟨offset, hoffset, hchannel, -⟩
      · exact hdone
      · rw [Write.registerOffset?_of_offset? hport] at hkept
        simp at hkept
      · rw [Write.registerOffset?_of_offset? hoffset] at hkept
        rw [isChannelRegister_iff] at hchannel
        simp only [reduceCtorEq, Option.some.injEq, false_or] at hkept
        omega

/-- The status register takes words only, and of these no more than some commands. The interrupt
register keeps its word. The third word of a rectangle cannot be drawn by the counting renderer. -/
theorem accesses_accepted_status :
    let rectangle : Pipe := ((Pipe.idle.push 0x60000000).1.push 0).1
    let b : Board PrimitiveLog := { new ({} : PrimitiveLog) with gpu := ⟨rectangle, 0, {}⟩ }
    (∃ value, b.read .word 0x1F801814 = .ok value) ∧
    (¬ ∃ value, b.read .half 0x1F801814 = .ok value) ∧
    b.write .word 0x1F801814 0x09ABCDEF = .fault (.gpuStatusCommand 0x09) b ∧
    b.write .half 0x1F801814 0x09ABCDEF = .fault (.hardwareWrite .half 0x1814 0xCDEF) b ∧
    (∃ b', b.write .word 0x1F8010F4 0x09ABCDEF = .done () b') ∧
    ∃ b', b.write .word 0x1F801810 0 = .fault (.unsupportedPrimitive 0x60) b' ∧
      b'.gpu.renderer = {} := by
  intro rectangle b
  have hstatus : registerOffset? 0x1F801814 = some 0x1814 := by decide
  obtain ⟨hword, -, hwords⟩ := accesses_accepted b .word 0x1F801814
  obtain ⟨hhalf, -, hhalves⟩ := accesses_accepted b .half 0x1F801814
  obtain ⟨-, -, hinterrupt⟩ := accesses_accepted b .word 0x1F8010F4
  obtain ⟨-, -, hdata⟩ := accesses_accepted b .word 0x1F801810
  have hundrawn : Write.Undrawn ⟨.word, 0x1F801810, 0⟩ b (.unsupportedPrimitive 0x60) {} :=
    ⟨[], 0, [], b.gpu, ⟨0x60, #[0x60000000, 0, 0]⟩, .port (by decide), rfl, by decide +kernel, rfl⟩
  refine ⟨hword.2 ?_, hhalf.not.2 ?_, (hwords _).1 _ (by decide), (hhalves _).1 _ (by decide),
    ((hinterrupt _).2 (by decide)).2.2 (by decide), (((hdata _).2 (by decide)).1 _ _).2 hundrawn⟩
  · simp [Readable, hstatus]
  · simp [Readable, hstatus]

end Board

end GameConsole
