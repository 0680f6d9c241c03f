import GameConsole.Emulator
import GameConsole.Proofs.Board.Storage
import GameConsole.Proofs.Executable.RoundTrip

/-! A new emulator. What the registers and the storage hold before the first step is told from the
parts that an executable was built from, and so is whether the executable can be loaded at all. -/

namespace GameConsole

namespace Memory

theorem and_ramSize_sub_one (n : Nat) : n &&& (ramSize - 1) = n % 0x200000 :=
  Nat.and_two_pow_sub_one_eq_mod n 21

theorem loadExecutable_eq_ok (m : Memory) {image payload : ByteArray}
    {header : Executable.Header} (hread : Executable.readHeader image = .ok header)
    (hpayload : header.payload image = .ok payload)
    (hfits : (header.load.toNat &&& (ramSize - 1)) + payload.size ≤ ramSize) :
    m.loadExecutable image =
      (.ok header, { m with ram := m.ram.overlay _ payload hfits }) := by
  obtain ⟨ram, rom, io⟩ := m
  simp only [loadExecutable, hread, hpayload]
  exact dif_pos hfits

theorem loadExecutable_eq_error (m : Memory) {image payload : ByteArray}
    {header : Executable.Header} (hread : Executable.readHeader image = .ok header)
    (hpayload : header.payload image = .ok payload)
    (hlarge : ramSize < (header.load.toNat &&& (ramSize - 1)) + payload.size) :
    m.loadExecutable image =
      (.error (.image (.doesNotFit (.ofNat (header.load.toNat &&& (ramSize - 1))) header.size)),
        m) := by
  simp only [loadExecutable, hread, hpayload]
  exact dif_neg (Nat.not_le.2 hlarge)

end Memory

theorem Cpu.reg_bootstrap (h : Executable.Header) (r : Register) :
    (initial.bootstrap h).reg r = if r = .gp then h.gp else if r = .sp then h.sp else 0 := by
  have hinitial : initial.reg r = 0 := Vector.getElem_replicate _
  have hreg : (initial.bootstrap h).reg r = ((initial.setReg .gp h.gp).setReg .sp h.sp).reg r := rfl
  rw [hreg, reg_setReg, reg_setReg, hinitial]
  by_cases hsp : r = .sp
  · rw [hsp]
    rfl
  · rw [if_neg (fun h => hsp h.1.symm), if_neg hsp]
    by_cases hgp : r = .gp
    · rw [hgp]
      rfl
    · rw [if_neg (fun h => hgp h.1.symm), if_neg hgp]

namespace Emulator

variable {ρ : Type} [Renderer ρ]

theorem boot_eq_ok {image : ByteArray} {config : Config} {r : ρ} {e : Emulator ρ}
    (h : boot image config r = .ok e) :
    e.scheduler = .new (config.quantum.getD standardQuantum) config.stopPc config.maxSteps ∧
      e.timeout = config.timeout := by
  unfold boot at h
  simp only at h
  split at h
  · cases h
  · cases h
    exact ⟨rfl, rfl⟩

/-- The memory of a new console, before the executable is loaded. -/
def bootMemory (bootRom : Option ByteArray) : Memory :=
  match bootRom with
  | none => Memory.zeroed
  | some rom => Memory.zeroed.loadRom rom

theorem ram_bootMemory (bootRom : Option ByteArray) : (bootMemory bootRom).ram = .zeroed 21 := by
  cases bootRom with
  | none => rfl
  | some rom => rfl

theorem rom_bootMemory (bootRom : Option ByteArray) :
    (bootMemory bootRom).rom = .ofBytes 19 (bootRom.getD ByteArray.empty) := by
  cases bootRom with
  | none => exact (Region.ofBytes_empty 19).symm
  | some rom => rfl

theorem boot_eq (image : ByteArray) (config : Config) (r : ρ) :
    boot image config r =
      match (bootMemory config.bootRom).loadExecutable image with
      | (.error cause, _) => .error cause
      | (.ok header, memory) => .ok {
          computer := ⟨Cpu.initial.bootstrap header, { (Board.new r).reset with memory }⟩
          scheduler := .new (config.quantum.getD standardQuantum) config.stopPc config.maxSteps
          timeout := config.timeout } := by
  unfold boot bootMemory
  cases config.bootRom with
  | none => rfl
  | some rom => rfl

variable {pc gp load sp : UInt32} {payload : ByteArray}

theorem boot_build_of_le (hsize : payload.size < 0x100000000)
    (hfits : load.toNat % 0x200000 + payload.size ≤ 0x200000) (config : Config) (r : ρ) :
    ∃ e, boot (Executable.build pc gp load sp payload) config r = .ok e ∧
      e.computer.cpu = Cpu.initial.bootstrap (Executable.headerOf pc gp load sp payload) ∧
      e.computer.bus.gpu = (Gpu.new r).reset ∧
      (∀ i, e.computer.bus.byte .ram i =
        if load.toNat % 0x200000 ≤ i then Bytes.byteAt payload (i - load.toNat % 0x200000)
        else 0) ∧
      ∀ i < 0x80000, e.computer.bus.byte .rom i =
        Bytes.byteAt (config.bootRom.getD ByteArray.empty) i := by
  have hread := Executable.readHeader_build pc gp load sp payload
  have hpayload := Executable.payload_build pc gp load sp hsize
  have hstart := Memory.and_ramSize_sub_one load.toNat
  generalize load.toNat % 0x200000 = start at hfits hstart ⊢
  obtain rfl : _ = start := hstart
  rw [boot_eq, Memory.loadExecutable_eq_ok _ hread hpayload hfits]
  refine ⟨_, rfl, rfl, rfl, fun i => ?_, fun i hi => ?_⟩
  · change Bytes.byteAt (Bytes.overlay (bootMemory config.bootRom).ram.bytes _ payload) i = _
    rw [ram_bootMemory, Region.zeroed]
    exact Bytes.byteAt_overlay_zeros hfits i
  · change Bytes.byteAt (bootMemory config.bootRom).rom.bytes i = _
    rw [rom_bootMemory]
    exact Region.byteAt_ofBytes _ hi

theorem boot_build_of_lt (hsize : payload.size < 0x100000000)
    (hlarge : 0x200000 < load.toNat % 0x200000 + payload.size) (config : Config) (r : ρ) :
    boot (Executable.build pc gp load sp payload) config r =
      .error (.image (.doesNotFit (.ofNat (load.toNat % 0x200000)) (.ofNat payload.size))) := by
  have hread := Executable.readHeader_build pc gp load sp payload
  have hpayload := Executable.payload_build pc gp load sp hsize
  have hstart := Memory.and_ramSize_sub_one load.toNat
  generalize load.toNat % 0x200000 = start at hlarge hstart ⊢
  obtain rfl : _ = start := hstart
  rw [boot_eq, Memory.loadExecutable_eq_error _ hread hpayload hlarge]
  rfl

/-- An executable of words is in RAM word by word. -/
theorem boot_build_words {words : List UInt32} (hload : load.toNat % 4 = 0)
    (hfits : load.toNat % 0x200000 + 4 * words.length ≤ 0x200000) (config : Config) (r : ρ) :
    ∃ e, boot (Executable.build pc gp load sp (Bytes.ofWords words)) config r = .ok e ∧
      e.computer.cpu =
        Cpu.initial.bootstrap (Executable.headerOf pc gp load sp (Bytes.ofWords words)) ∧
      e.computer.bus.gpu = (Gpu.new r).reset ∧
      ∀ i word, words[i]? = some word → ∀ addr : UInt32,
        addr.toNat % 0x200000 = load.toNat % 0x200000 + 4 * i →
          e.computer.bus.memory.ram.loadWord addr = word := by
  obtain ⟨e, hboot, hcpu, hgpu, hram, -⟩ :
      ∃ e, boot (Executable.build pc gp load sp (Bytes.ofWords words)) config r = .ok e ∧ _ :=
    boot_build_of_le (by rw [Bytes.size_ofWords]; omega) (by rwa [Bytes.size_ofWords]) config r
  refine ⟨e, hboot, hcpu, hgpu, fun i word hi addr haddr => ?_⟩
  have hstart : Region.wordStart 21 addr = load.toNat % 0x200000 + 4 * i := by
    rw [Region.wordStart, Region.capacity_eq]
    omega
  rw [Region.loadWord_eq, hstart, ← Bytes.wordAt_ofWords hi]
  refine Bytes.wordAt_eq_of_bytes fun k hk => ?_
  have hbyte := hram (load.toNat % 0x200000 + 4 * i + k)
  rw [if_pos (by omega), show load.toNat % 0x200000 + 4 * i + k - load.toNat % 0x200000 =
    4 * i + k by omega] at hbyte
  rw [Bytes.byteOf_wordAt _ _ hk]
  exact hbyte

/-- When an executable that is built from its parts can be started, and what the registers, every
mirror of RAM and the segment of the boot ROM then hold. -/
theorem boot_build (pc gp load sp : UInt32) (payload : ByteArray)
    (hsize : payload.size < 0x100000000) (config : Config) (r : ρ) :
    let start := load.toNat % 0x200000
    let booted := boot (Executable.build pc gp load sp payload) config r
    ((∃ e, booted = .ok e) ↔ start + payload.size ≤ 0x200000) ∧
    (0x200000 < start + payload.size →
      booted = .error (.image (.doesNotFit (.ofNat start) (.ofNat payload.size)))) ∧
    ∀ e, booted = .ok e →
      e.pc = pc ∧
      (∀ s, e.reg s = if s = .gp then gp else if s = .sp then sp else 0) ∧
      (∀ addr, Storage.ofAddress? addr = some .ram →
        e.readWord addr = .ok (Bytes.assemble ((Width.word.unit (addr.toNat % 0x200000)).map
          fun i => if start ≤ i then Bytes.byteAt payload (i - start) else 0))) ∧
      ∀ addr, Storage.ofAddress? addr = some .rom →
        e.readWord addr = .ok (Bytes.assemble ((Width.word.unit (addr.toNat % 0x80000)).map
          (Bytes.byteAt (config.bootRom.getD ByteArray.empty)))) := by
  intro start booted
  rcases Nat.lt_or_ge 0x200000 (start + payload.size) with hlarge | hfits
  · have hfault : booted = .error _ := boot_build_of_lt hsize hlarge config r
    refine ⟨⟨fun ⟨e, he⟩ => ?_, fun hfits => absurd hlarge (Nat.not_lt.2 hfits)⟩,
      fun _ => hfault, fun e he => ?_⟩
    · rw [hfault] at he
      cases he
    · rw [hfault] at he
      cases he
  · obtain ⟨e, hok, hcpu, -, hram, hrom⟩ :
        ∃ e, booted = .ok e ∧ _ := boot_build_of_le hsize hfits config r
    refine ⟨⟨fun _ => hfits, fun _ => ⟨e, hok⟩⟩,
      fun hlarge => absurd hlarge (Nat.not_lt.2 hfits), fun e' he => ?_⟩
    obtain rfl : e = e' := Except.ok.inj (hok.symm.trans he)
    refine ⟨?_, fun s => ?_, fun addr haddr => ?_, fun addr haddr => ?_⟩
    · rw [Emulator.pc, hcpu]
      rfl
    · rw [Emulator.reg, hcpu]
      exact Cpu.reg_bootstrap _ s
    · rw [readWord, e.computer.bus.read_storage .word haddr]
      rw [List.map_congr_left fun i _ => hram i]
      rfl
    · rw [readWord, e.computer.bus.read_storage .word haddr]
      rw [List.map_congr_left fun i hi => hrom i ?_]
      · rfl
      · exact Width.lt_of_mem_unit (m := 0x20000) hi (Storage.index_lt haddr)

/-- Three bytes at the very end of RAM, read in the last word of one mirror, and a boot ROM of one
byte, read in the second copy of it. -/
theorem boot_build_at_end :
    ∃ e : Emulator PrimitiveLog,
      boot (Executable.build 0x80010000 0 0x801FFFFD 0x801FFF00 ⟨#[0x11, 0x22, 0x33]⟩)
        { bootRom := some ⟨#[0xAA]⟩ } {} = .ok e ∧
      e.readWord 0xA01FFFFE = .ok 0x33221100 ∧ e.readWord 0xBFC80001 = .ok 0x000000AA := by
  obtain ⟨hiff, -, hholds⟩ := boot_build 0x80010000 0 0x801FFFFD 0x801FFF00
    ⟨#[0x11, 0x22, 0x33]⟩ (by decide) { bootRom := some ⟨#[0xAA]⟩ }
    ({} : PrimitiveLog)
  obtain ⟨e, he⟩ := hiff.2 (by decide)
  obtain ⟨-, -, hram, hrom⟩ := hholds e he
  refine ⟨e, he, (hram 0xA01FFFFE (by decide)).trans ?_, (hrom 0xBFC80001 (by decide)).trans ?_⟩
  · decide
  · decide

end Emulator

end GameConsole
