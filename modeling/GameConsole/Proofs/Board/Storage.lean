import GameConsole.Proofs.Board.DmaWrite
import GameConsole.Proofs.Memory.Units

/-! The storage behind the bus. RAM, boot ROM and scratch memory are rows of bytes, and an address
stands for one of these bytes, whichever mirror it lies in. The main statement says what a read
puts together from them, which of them a write changes, and that nothing else is changed with
them: not the registers and the GPU by a write to storage, and no storage by a register. -/

namespace GameConsole

open Region

/-- The rows of bytes that the bus shows. -/
inductive Storage
  | ram
  | rom
  | scratch
deriving DecidableEq

namespace Storage

def size : Storage → Nat
  | ram => 0x200000
  | rom => 0x80000
  | scratch => 0x400

/-- The storage that an address lies in. -/
def ofAddress? (addr : UInt32) : Option Storage :=
  let top := addr.toNat / 0x1000000
  if top = 0x00 ∨ top = 0x80 ∨ top = 0xA0 then some ram
  else if top = 0xBF then some rom
  else if top = 0x1F ∧ addr.toNat % 0x10000 < 0x400 then some scratch
  else none

/-- The byte that an address stands for in its storage: its low 21, 19 or 16 bits. -/
def index (addr : UInt32) : Storage → Nat
  | ram => addr.toNat % 0x200000
  | rom => addr.toNat % 0x80000
  | scratch => addr.toNat % 0x10000

theorem ofAddress?_eq (addr : UInt32) : ofAddress? addr =
    match Segment.ofAddress? addr with
    | some .ram => some ram
    | some .rom => some rom
    | some .scratch => some scratch
    | some (.hardware _) | none => none := by
  have hoff : (addr &&& 0xFFFF).toNat = addr.toNat % 0x10000 := Width.toNat_truncate .half addr
  simp only [ofAddress?, Segment.ofAddress?, ← UInt32.toNat_inj, UInt32.lt_iff_toNat_lt,
    toNat_shiftRight_24, hoff, UInt32.reduceToNat]
  by_cases hlow : addr.toNat % 0x10000 < 0x400 <;> simp only [hlow] <;> split_ifs <;> simp_all

theorem index_lt {addr : UInt32} {s : Storage} (h : ofAddress? addr = some s) :
    s.index addr < s.size := by
  cases s with
  | ram => exact Nat.mod_lt _ (by decide)
  | rom => exact Nat.mod_lt _ (by decide)
  | scratch =>
    simp only [ofAddress?] at h
    split_ifs at h with hram hrom hlow
    · cases h
    · cases h
    · exact hlow.2

/-- Scratch memory is the low end of the block of registers. -/
theorem index_scratch {addr : UInt32} (h : ofAddress? addr = some scratch) :
    addr.toNat % capacity 14 = scratch.index addr := by
  have hlt := index_lt h
  simp only [index, size] at hlt
  rw [capacity_eq, index]
  omega

end Storage

namespace Board

variable {ρ : Type} [Renderer ρ]

/-- A byte of the storage. -/
def byte (b : Board ρ) : Storage → Nat → UInt8
  | .ram => Bytes.byteAt b.memory.ram.bytes
  | .rom => Bytes.byteAt b.memory.rom.bytes
  | .scratch => Bytes.byteAt b.memory.io.bytes

omit [Renderer ρ] in
/-- A read puts the bytes of a unit together. -/
theorem read_storage (b : Board ρ) (w : Width) {addr : UInt32} {s : Storage}
    (h : Storage.ofAddress? addr = some s) :
    b.read w addr = .ok (Bytes.assemble ((w.unit (s.index addr)).map (b.byte s))) := by
  have hs := h
  rw [Storage.ofAddress?_eq] at h
  cases hseg : Segment.ofAddress? addr with
  | none => simp [hseg] at h
  | some segment =>
    rw [hseg] at h
    cases segment with
    | hardware offset => cases h
    | ram =>
      cases h
      simp only [read, hseg, load_eq]
      rfl
    | rom =>
      cases h
      simp only [read, hseg, load_eq]
      rfl
    | scratch =>
      cases h
      have hplace := Storage.index_scratch hs
      simp only [read, hseg, load_eq, hplace]
      rfl

/-- A write to RAM or scratch memory lays the low bytes of the value over a unit of it. -/
theorem write_storage (b : Board ρ) (w : Width) {addr : UInt32} (v : UInt32) {s : Storage}
    (h : Storage.ofAddress? addr = some s) (hrom : s ≠ .rom) :
    ∃ b', b.write w addr v = .done () b' ∧ b'.gpu = b.gpu ∧
      ∀ t i, b'.byte t i =
        if t = s ∧ i ∈ w.unit (s.index addr) then Bytes.byteOf v (i % w.bytes)
        else b.byte t i := by
  have hvalue (i : Nat) : Bytes.byteOf (w.truncate v) (i % w.bytes) =
      Bytes.byteOf v (i % w.bytes) :=
    Bytes.byteOf_truncate w v (Nat.mod_lt _ (by cases w <;> decide))
  have hs := h
  rw [Storage.ofAddress?_eq] at h
  cases hseg : Segment.ofAddress? addr with
  | none => simp [hseg] at h
  | some segment =>
    rw [hseg] at h
    cases segment with
    | hardware offset => cases h
    | rom =>
      cases h
      exact absurd rfl hrom
    | ram =>
      cases h
      simp only [write, hseg]
      refine ⟨_, rfl, rfl, fun t i => ?_⟩
      cases t with
      | ram => simp [byte, byteAt_store, hvalue, Storage.index, capacity_eq]
      | rom => simp [byte]
      | scratch => simp [byte]
    | scratch =>
      cases h
      have hplace := Storage.index_scratch hs
      simp only [write, hseg]
      refine ⟨_, rfl, rfl, fun t i => ?_⟩
      cases t with
      | ram => simp [byte]
      | rom => simp [byte]
      | scratch => simp [byte, byteAt_store, hvalue, hplace]

omit [Renderer ρ] in
theorem byte_storeRegister (b : Board ρ) {addr : UInt32} (haddr : 0x400 ≤ wordStart 14 addr)
    (v : UInt32) {s : Storage} {i : Nat} (hi : i < s.size) :
    (b.storeRegister addr v).byte s i = b.byte s i := by
  rw [storeRegister_eq]
  cases s with
  | ram => simp only [byte]
  | rom => simp only [byte]
  | scratch =>
    simp only [Storage.size] at hi
    simp only [byte]
    rw [byteAt_storeWord, if_neg (by omega)]

/-- The registers of the DMA engine lie apart from scratch memory. -/
theorem byte_dmaWrite (b : Board ρ) {offset : UInt32} (h : isChannelRegister offset = true)
    (v : UInt32) {s : Storage} {i : Nat} (hi : i < s.size) :
    (Dma.write b offset v).Leaves fun b' => b'.byte s i = b.byte s i := by
  obtain ⟨hlow, hhigh⟩ := isChannelRegister_iff.1 h
  have hword : 0x400 ≤ wordStart 14 offset := by
    rw [wordStart, capacity_eq]
    omega
  have hcontrol : 0x400 ≤ wordStart 14 (Dma.controlRegister offset) := by
    rw [wordStart, capacity_eq, Dma.toNat_controlRegister]
    omega
  have haddress : 0x400 ≤ wordStart 14 (Dma.addressRegister offset) := by
    rw [wordStart, capacity_eq, Dma.toNat_addressRegister]
    omega
  refine Dma.leaves_write_of_stores (P := fun b' : Board ρ => b'.byte s i = b.byte s i)
    (fun b' gpu h => h) (fun b' register value hregister h => ?_) rfl v
  rw [byte_storeRegister b' _ value hi, h]
  rcases hregister with rfl | rfl | rfl
  · exact hword
  · exact haddress
  · exact hcontrol

/-- No register is storage. -/
theorem byte_write_hardware (b : Board ρ) (w : Width) {addr offset : UInt32} (v : UInt32)
    (h : Segment.ofAddress? addr = some (.hardware offset)) {s : Storage} {i : Nat}
    (hi : i < s.size) : (b.write w addr v).Leaves fun b' => b'.byte s i = b.byte s i := by
  simp only [write, h]
  split
  · unfold writeHardware
    split_ifs with hchannel hgpu hdma
    · exact byte_dmaWrite b hchannel _ hi
    · rw [onGpu_eq, Outcome.leaves_mapState]
      exact Outcome.leaves_iff.2 fun _ _ => rfl
    · refine byte_storeRegister b ?_ _ hi
      rcases hdma with rfl | rfl <;> decide
    · rfl
  · rfl

/-- Storage lies apart from the registers. -/
theorem wordAt_of_write_storage {b b' : Board ρ} {w : Width} {addr v : UInt32} {s : Storage}
    (h : Storage.ofAddress? addr = some s) (hrom : s ≠ .rom)
    (hwrite : b.write w addr v = .done () b') {i : Nat} (hi : 0x400 ≤ i) :
    Bytes.wordAt b'.memory.io.bytes i = Bytes.wordAt b.memory.io.bytes i := by
  obtain ⟨c, hc, -, hbyte⟩ := b.write_storage w v h hrom
  rw [hwrite] at hc
  cases hc
  apply Bytes.wordAt_eq_of_bytes
  intro k hk
  rw [Bytes.byteOf_wordAt _ _ hk]
  refine (hbyte .scratch (i + k)).trans (if_neg ?_)
  rintro ⟨rfl, hmem⟩
  have := Width.lt_of_mem_unit hmem (m := 0x100) (Storage.index_lt h)
  omega

/-- The storage behind the bus: reads find what was written last through any mirror, and storage,
the registers of the DMA engine and the GPU lie apart. -/
theorem read_write_storage (b : Board ρ) :
    (∀ w addr s, Storage.ofAddress? addr = some s →
      b.read w addr = .ok (Bytes.assemble ((w.unit (s.index addr)).map (b.byte s)))) ∧
    (∀ w a v s, Storage.ofAddress? a = some s → s ≠ .rom →
      ∃ b', b.write w a v = .done () b' ∧
        (∀ w' addr t, Storage.ofAddress? addr = some t →
          b'.read w' addr = .ok (Bytes.assemble ((w'.unit (t.index addr)).map fun i =>
            if t = s ∧ i ∈ w.unit (s.index a) then Bytes.byteOf v (i % w.bytes)
            else b.byte t i))) ∧
        (∀ offset : UInt32, 0x1080 ≤ offset → offset ≤ 0x10F4 →
          b'.memory.io.loadWord offset = b.memory.io.loadWord offset) ∧
        b'.gpu = b.gpu) ∧
    ∀ w a v offset, Segment.ofAddress? a = some (.hardware offset) →
      ∀ s i, i < s.size → (b.write w a v).Leaves fun b' => b'.byte s i = b.byte s i := by
  refine ⟨fun w addr s h => b.read_storage w h, fun w a v s hs hrom => ?_,
    fun w a v offset h s i hi => b.byte_write_hardware w v h hi⟩
  obtain ⟨b', hwrite, hgpu, hbyte⟩ := b.write_storage w v hs hrom
  refine ⟨b', hwrite, fun w' addr t ht => ?_, fun offset hlow hhigh => ?_, hgpu⟩
  · rw [b'.read_storage w' ht]
    simp only [List.map_congr_left fun i _ => hbyte t i]
  · have hstart : 0x400 ≤ wordStart 14 offset := by
      rw [UInt32.le_iff_toNat_le] at hlow hhigh
      simp only [UInt32.reduceToNat] at hlow hhigh
      rw [wordStart, capacity_eq]
      omega
    rw [loadWord_eq, loadWord_eq, wordAt_of_write_storage hs hrom hwrite hstart]

/-- A byte stored through one mirror of RAM and read in a word through another. -/
theorem read_write_storage_mirror :
    ∃ b : Board Recorder, (new {}).write .byte 0x80000001 0x00001234 = .done () b ∧
      b.read .word 0x00000002 = .ok 0x00003400 := by
  have hzero (i : Nat) : (new ({} : Recorder)).byte .ram i = 0 := Bytes.byteAt_zeros _ _
  obtain ⟨-, hwrite, -⟩ := read_write_storage (new ({} : Recorder))
  obtain ⟨b, hdone, hread, -⟩ := hwrite .byte 0x80000001 0x00001234 .ram (by decide) (by decide)
  refine ⟨b, hdone, (hread .word 0x00000002 .ram (by decide)).trans ?_⟩
  simp only [hzero]
  decide

end Board

end GameConsole
