import GameConsole.Proofs.Board.DmaWrite
import GameConsole.Proofs.Cpu.Stable
import GameConsole.Proofs.Memory.Contents

/-! What lasts on a console. Whatever is done to it, from outside or by the program that it runs,
its zero register reads as zero, and its boot ROM is the one that was loaded last: no write comes to
the ROM, and neither a transfer nor a reset touches it. -/

namespace GameConsole

variable {ρ : Type} [Renderer ρ]

/-! ### The boot ROM under single operations -/

namespace Board

omit [Renderer ρ] in
theorem rom_storeRegister (b : Board ρ) (addr data : UInt32) :
    (b.storeRegister addr data).memory.rom = b.memory.rom := by
  rw [storeRegister_eq]

theorem rom_dmaWrite (b : Board ρ) (addr data : UInt32) :
    (Dma.write b addr data).Leaves fun b' => b'.memory.rom = b.memory.rom := by
  refine Dma.leaves_write_of_stores (P := fun b' : Board ρ => b'.memory.rom = b.memory.rom)
    (fun b' gpu h => h) (fun b' register value _ h => ?_) rfl data
  rw [rom_storeRegister, h]

theorem rom_writeHardware (b : Board ρ) (offset data : UInt32) :
    (b.writeHardware offset data).Leaves fun b' => b'.memory.rom = b.memory.rom := by
  unfold writeHardware
  split_ifs
  · exact b.rom_dmaWrite offset data
  · rw [onGpu_eq, Outcome.leaves_mapState]
    exact Outcome.leaves_iff.2 fun _ _ => rfl
  · exact b.rom_storeRegister offset data
  · rfl

/-- No write changes the boot ROM, whatever comes of it. -/
theorem rom_write (b : Board ρ) (w : Width) (addr value : UInt32) :
    (b.write w addr value).Leaves fun b' => b'.memory.rom = b.memory.rom := by
  unfold write
  cases Segment.ofAddress? addr with
  | none => rfl
  | some segment =>
    cases segment with
    | ram => rfl
    | rom => rfl
    | scratch => rfl
    | hardware offset =>
      dsimp only
      split_ifs
      · exact b.rom_writeHardware offset _
      · rfl

end Board

theorem Memory.rom_loadExecutable (m : Memory) (image : ByteArray) :
    (m.loadExecutable image).2.rom = m.rom := by
  unfold loadExecutable
  cases Executable.readHeader image with
  | error cause => rfl
  | ok header =>
    dsimp only
    cases header.payload image with
    | error cause => rfl
    | ok payload =>
      dsimp only
      split <;> rfl

/-! ### Operations in any order -/

/-- What can be done to a console. -/
inductive Operation
  | step
  | read (w : Width) (addr : UInt32)
  | write (w : Width) (addr value : UInt32)
  | setReg (r : Register) (value : UInt32)
  | setPc (pc : UInt32)
  | bootstrap (header : Executable.Header)
  | resetCpu
  | resetMemory
  | resetGpu
  | resetBoard
  | loadExecutable (image : ByteArray)
  | loadRom (image : ByteArray)

namespace Operation

/-- The console after an operation, if it comes back. One that fails leaves what it has done so
far. -/
def run (c : Computer (Board ρ)) : Operation → Option (Computer (Board ρ))
  | step => c.step.state?
  | read _ _ => some c
  | write w addr value => (c.bus.write w addr value).state?.map fun bus => { c with bus }
  | setReg r value => some { c with cpu := c.cpu.setReg r value }
  | setPc pc => some (c.retarget pc)
  | bootstrap header => some { c with cpu := c.cpu.bootstrap header }
  | resetCpu => some { c with cpu := .initial }
  | resetMemory => some { c with bus := { c.bus with memory := c.bus.memory.reset } }
  | resetGpu => some { c with bus := { c.bus with gpu := c.bus.gpu.reset } }
  | resetBoard => some { c with bus := c.bus.reset }
  | loadExecutable image =>
    some { c with bus := { c.bus with memory := (c.bus.memory.loadExecutable image).2 } }
  | loadRom image => some { c with bus := { c.bus with memory := c.bus.memory.loadRom image } }

/-- The boot ROM that the operation loads. -/
def rom? : Operation → Option ByteArray
  | loadRom image => some image
  | _ => none

/-- The console after one operation after the other, if each of them comes back. -/
def runAll (c : Computer (Board ρ)) (ops : List Operation) : Option (Computer (Board ρ)) :=
  ops.foldlM run c

theorem runAll_cons {c c' c'' : Computer (Board ρ)} {op : Operation} {ops : List Operation}
    (h : op.run c = some c') (hrest : runAll c' ops = some c'') :
    runAll c (op :: ops) = some c'' := by
  rw [runAll, List.foldlM_cons, h]
  exact hrest

/-- The boot ROM that was loaded last. -/
def lastRom (ops : List Operation) : ByteArray :=
  (ops.filterMap rom?).getLast?.getD ByteArray.empty

theorem lastRom_snoc (ops : List Operation) (op : Operation) :
    lastRom (ops ++ [op]) = op.rom?.getD (lastRom ops) := by
  cases hrom : op.rom? with
  | none => simp [lastRom, hrom]
  | some image => simp [lastRom, hrom]

/-- What the operations keep, from a load of a boot ROM to the next. -/
structure Lasting (rom : ByteArray) (c : Computer (Board ρ)) : Prop where
  zero : c.cpu.reg .zero = 0
  rom : c.bus.memory.rom = .ofBytes 19 rom

theorem stable_lasting (rom : ByteArray) : Computer.Stable (Lasting (ρ := ρ) rom) where
  pc _ _ h := ⟨h.zero, h.rom⟩
  setReg c r value h := ⟨by rw [Cpu.reg_setReg, if_neg fun hr => hr.2 hr.1, h.zero], h.rom⟩
  write c w addr value h := (c.bus.rom_write w addr value).mono fun _ hrom =>
    ⟨h.zero, hrom.trans h.rom⟩

theorem Lasting.run {rom : ByteArray} {c c' : Computer (Board ρ)} (h : Lasting rom c)
    {op : Operation} (hrun : op.run c = some c') : Lasting (op.rom?.getD rom) c' := by
  have hstable := stable_lasting (ρ := ρ) rom
  cases op with
  | step => exact Outcome.leaves_iff.1 (hstable.step h) c' hrun
  | write w addr value =>
    obtain ⟨bus, hbus, rfl⟩ := Option.map_eq_some_iff.1 hrun
    exact Outcome.leaves_iff.1 (hstable.write c w addr value h) bus hbus
  | read w addr =>
    cases hrun
    exact h
  | setReg r value =>
    cases hrun
    exact hstable.setReg c r value h
  | setPc pc =>
    cases hrun
    exact hstable.pc c pc h
  | bootstrap header =>
    cases hrun
    have hgp := hstable.setReg c .gp header.gp h
    exact hstable.pc _ header.pc (hstable.setReg _ .sp header.sp hgp)
  | resetCpu =>
    cases hrun
    exact ⟨Vector.getElem_replicate _, h.rom⟩
  | resetMemory | resetGpu | resetBoard =>
    cases hrun
    exact ⟨h.zero, h.rom⟩
  | loadExecutable image =>
    cases hrun
    exact ⟨h.zero, (Memory.rom_loadExecutable _ image).trans h.rom⟩
  | loadRom image =>
    cases hrun
    exact ⟨h.zero, rfl⟩

theorem lasting_runAll {r : ρ} {ops : List Operation} {c : Computer (Board ρ)}
    (h : runAll ⟨.initial, Board.new r⟩ ops = some c) : Lasting (lastRom ops) c := by
  induction ops using List.reverseRecOn generalizing c with
  | nil =>
    cases h
    exact ⟨Vector.getElem_replicate _, (Region.ofBytes_empty 19).symm⟩
  | append_singleton ops op ih =>
    rw [runAll, List.foldlM_append, Option.bind_eq_bind, Option.bind_eq_some_iff] at h
    obtain ⟨c', hbefore, hlast⟩ := h
    rw [List.foldlM_cons, Option.bind_eq_bind, Option.bind_eq_some_iff] at hlast
    obtain ⟨_, hrun, ⟨⟩⟩ := hlast
    rw [lastRom_snoc]
    exact (ih hbefore).run hrun

/-- From a new console on, after any operations in any order, failed ones among them, the zero
register reads as zero, the boot ROM is the one that was loaded last, and no size has changed. -/
theorem runAll_new {r : ρ} {ops : List Operation} {c : Computer (Board ρ)}
    (h : runAll ⟨.initial, Board.new r⟩ ops = some c) :
    c.cpu.reg .zero = 0 ∧
      (∀ i < 0x80000, Bytes.byteAt c.bus.memory.rom.bytes i = Bytes.byteAt (lastRom ops) i) ∧
      c.bus.memory.ram.bytes.size = 0x200000 ∧ c.bus.memory.rom.bytes.size = 0x80000 ∧
      c.bus.memory.io.bytes.size = 0x4000 := by
  obtain ⟨hzero, hrom⟩ := lasting_runAll h
  refine ⟨hzero, fun i hi => ?_, Region.size_bytes _, Region.size_bytes _, Region.size_bytes _⟩
  rw [hrom]
  exact Region.byteAt_ofBytes _ hi

/-- A value for the zero register from outside and one by the instruction at the start of RAM, and
a write to the boot ROM. -/
theorem runAll_new_lui :
    ∃ c, runAll ⟨.initial, Board.new ({} : PrimitiveLog)⟩
        [.loadRom ⟨#[0xAA]⟩, .setReg .zero 7, .write .word 0x80000000 0x3C001234,
          .write .byte 0xBFC00000 0x55, .setPc 0x80000000, .step] = some c ∧
      c.cpu.pc = 0x80000004 ∧ c.cpu.reg .zero = 0 ∧
      Bytes.byteAt c.bus.memory.rom.bytes 0 = 0xAA := by
  have hrun (c : Computer (Board PrimitiveLog)) (rom : ByteArray) : ∃ c', runAll c
      [.loadRom rom, .setReg .zero 7, .write .word 0x80000000 0x3C001234,
        .write .byte 0xBFC00000 0x55, .setPc 0x80000000, .step] = some c' ∧
      c'.cpu.pc = 0x80000004 := by
    obtain ⟨k, ⟨ram, rom', io⟩, gpu⟩ := c
    let b₁ : Board PrimitiveLog := ⟨⟨ram, .ofBytes 19 rom, io⟩, gpu⟩
    let b₂ : Board PrimitiveLog :=
      ⟨⟨ram.storeWord 0x80000000 0x3C001234, .ofBytes 19 rom, io⟩, gpu⟩
    have hsegment : Segment.ofAddress? 0x80000000 = some .ram := by decide
    have hrefused : Segment.ofAddress? 0xBFC00000 = some .rom := by decide
    have hstore : run ⟨k, b₁⟩ (.write .word 0x80000000 0x3C001234) = some ⟨k, b₂⟩ := by
      simp only [run, Board.write, hsegment]
      rfl
    have hkeep : run ⟨k, b₂⟩ (.write .byte 0xBFC00000 0x55) = some ⟨k, b₂⟩ := by
      simp only [run, Board.write, hrefused]
      rfl
    have hfetch : Bus.read b₂ .word 0x80000000 = .ok 0x3C001234 := by
      change Board.read b₂ .word 0x80000000 = _
      simp only [Board.read, hsegment]
      exact congrArg Except.ok (Region.loadWord_storeWord_self (by decide) ram _ _)
    have hdecode : Instruction.decode 0x3C001234 0x80000000 = .ok (.lui .zero 0x1234) := by decide
    have hplain : Computer.step ⟨{ k with pc := 0x80000000 }, b₂⟩ =
        .done () ⟨{ k with pc := 0x80000004 }, b₂⟩ := Computer.step_of_plain hfetch hdecode rfl
    have hstep : run ⟨{ k with pc := 0x80000000 }, b₂⟩ .step =
        some ⟨{ k with pc := 0x80000004 }, b₂⟩ := by
      rw [run, hplain]
      rfl
    have hload : run ⟨k, ⟨⟨ram, rom', io⟩, gpu⟩⟩ (.loadRom rom) = some ⟨k, b₁⟩ := rfl
    have hzero : run ⟨k, b₁⟩ (.setReg .zero 7) = some ⟨k, b₁⟩ := rfl
    have hpc : run ⟨k, b₂⟩ (.setPc 0x80000000) = some ⟨{ k with pc := 0x80000000 }, b₂⟩ := rfl
    exact ⟨⟨{ k with pc := 0x80000004 }, b₂⟩, runAll_cons hload (runAll_cons hzero
      (runAll_cons hstore (runAll_cons hkeep (runAll_cons hpc (runAll_cons hstep rfl))))), rfl⟩
  obtain ⟨c, hc, hpc⟩ := hrun ⟨.initial, Board.new {}⟩ ⟨#[0xAA]⟩
  obtain ⟨hzero, hrom, -⟩ := runAll_new hc
  exact ⟨c, hc, hpc, hzero, (hrom 0 (by decide)).trans (by decide)⟩

end Operation

end GameConsole
