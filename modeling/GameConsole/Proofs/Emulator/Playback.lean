import GameConsole.Gpu.Raster
import GameConsole.Proofs.Board.Transfer
import GameConsole.Proofs.Cpu.DelaySlot
import GameConsole.Proofs.Cpu.Encoding
import GameConsole.Proofs.Emulator.Boot
import GameConsole.Proofs.Gpu.DrawingCommand
import GameConsole.Proofs.Scheduler.Quantum
import Mathlib.Tactic.IntervalCases

/-! A program that plays words to the GPU. Its six instructions point the GPU channel at a list of
one node, which lies behind them, and set a transfer off. From the image on, each instruction is
fetched from RAM, and with the sixth the GPU is fed with the words of the node, whatever they are,
as long as the renderer can draw the commands among them. -/

namespace GameConsole

open Region

theorem Computer.storeFrom_eq_done {β : Type} [Bus β] {k : Cpu} {b b' : β} {r : Register}
    {w : Width} {addr addr' value : UInt32} (haddr : addr = addr') (hvalue : k.reg r = value)
    (hwrite : Bus.write b w addr' value = .done () b') :
    storeFrom ⟨k, b⟩ r w addr = .done none ⟨k, b'⟩ := by
  subst haddr hvalue
  simp only [storeFrom, hwrite]

namespace Playback

/-- Where the program is loaded and starts. -/
def entry : UInt32 := 0x80001000

def program : List Instruction :=
  [.lui .a0 0x1F80, .ori .v0 .zero 0x1018, .sw .v0 .a0 0x10A0,
    .lui .v1 0x0100, .ori .v1 .v1 0x0401, .sw .v1 .a0 0x10A8]

/-- The header of the only node. -/
def header (words : List UInt32) : UInt32 := .ofNat (words.length * 0x1000000 + 0xFFFFFF)

/-- The program, and the node at the address that it names. -/
def code (words : List UInt32) : List UInt32 :=
  program.map Instruction.encode ++ header words :: words

def image (words : List UInt32) : ByteArray :=
  Executable.build entry 0 entry 0x801FFFF0 (Bytes.ofWords (code words))

variable {ρ : Type} [Renderer ρ] {words : List UInt32}

/-- The program and its node are in RAM. -/
def Loaded (words : List UInt32) (b : Board ρ) : Prop :=
  ∀ i word, (code words)[i]? = some word → ∀ addr : UInt32,
    addr.toNat % 0x200000 = 0x1000 + 4 * i → b.memory.ram.loadWord addr = word

theorem fetch {b : Board ρ} (h : Loaded words b) {n : Nat} {i : Instruction}
    (hi : program[n]? = some i) {pc : UInt32} (hpc : pc = entry + 4 * .ofNat n) :
    Bus.read b .word pc = .ok i.encode := by
  subst hpc
  have hn : n < 6 := (List.getElem?_eq_some_iff.1 hi).1
  have hplace : ∀ n < 6, (entry + 4 * UInt32.ofNat n).toNat % 0x200000 = 0x1000 + 4 * n := by decide
  have hsegment : ∀ n < 6, Segment.ofAddress? (entry + 4 * UInt32.ofNat n) = some .ram := by decide
  have hword : (code words)[n]? = some i.encode := by
    rw [code, List.getElem?_append_left hn, List.getElem?_map, hi]
    rfl
  have hload := h n _ hword _ (hplace n hn)
  change Board.read b .word _ = _
  simp only [Board.read, hsegment n hn]
  exact congrArg Except.ok hload

/-- The sixth instruction sets the transfer off. -/
theorem exists_write_of_loaded {b : Board ρ} {gpu : Gpu ρ} (h : Loaded words b)
    (hlength : words.length < 0x100) (hstart : b.memory.io.loadWord 0x10A0 = 0x1018)
    (hfed : b.gpu.feedAll words = .done () gpu) :
    ∃ b', b.write .word 0x1F8010A8 0x01000401 = .done () b' ∧ b'.gpu = gpu := by
  have hheader : b.memory.ram.loadWord 0x1018 = header words :=
    h 6 (header words) rfl 0x1018 (by decide)
  have hcount : Dma.countOf (header words) = words.length := by
    rw [Dma.countOf, header, toNat_shiftRight_24, UInt32.toNat_ofNat_of_lt' (by
      rw [UInt32.size]
      omega)]
    omega
  have hnext : Dma.nextOf (header words) = Dma.endMarker := by
    rw [← UInt32.toNat_inj, Dma.nextOf, Dma.endMarker, UInt32.toNat_and, header,
      UInt32.toNat_ofNat_of_lt' (by
        rw [UInt32.size]
        omega)]
    refine (Nat.and_two_pow_sub_one_eq_mod _ 24).trans ?_
    simp only [UInt32.reduceToNat]
    omega
  have hpayload : Dma.payload b.memory.ram 0x1018 = words := by
    rw [Dma.payload, hheader, hcount]
    refine List.ext_getElem (by simp) fun i hi hi' => ?_
    have hword : (code words)[7 + i]? = some words[i] := by
      rw [code, List.getElem?_append_right (by simp [program]; omega),
        show 7 + i - (program.map Instruction.encode).length = i + 1 by simp [program]; omega,
        List.getElem?_cons_succ, List.getElem?_eq_getElem hi']
    rw [List.getElem_map, List.getElem_range]
    refine h _ _ hword _ ?_
    simp only [UInt32.toNat_add, UInt32.toNat_mul, UInt32.toNat_ofNat', UInt32.reduceToNat]
    omega
  -- the board on which the walk begins, with the start pattern in the control register
  let b₁ := b.storeRegister 0x10A8 Dma.startPattern
  have hcursor : b₁.memory.io.loadWord 0x10A0 = 0x1018 := by
    rw [Board.io_storeRegister, loadWord_storeWord (by decide), if_neg (by decide), hstart]
  have hchain : Dma.Chain b₁.memory.ram (b₁.memory.io.loadWord 0x10A0) [0x1018] := by
    rw [hcursor, Board.ram_storeRegister]
    refine .cons (by decide) ?_
    rw [hheader, hnext]
    exact .nil
  have hfed₁ : b₁.gpu.feedAll (Dma.contents b₁.memory.ram [0x1018]) = .done () gpu := by
    rw [Board.ram_storeRegister, Board.gpu_storeRegister, Dma.contents, List.flatMap_singleton,
      hpayload, hfed]
  have hcontrol : Segment.ofAddress? 0x1F8010A8 = some (.hardware 0x10A8) := by decide
  rw [Board.write_channel b hcontrol (by decide),
    show (0x01000401 : UInt32) = Dma.startPattern from rfl, Dma.write_startPattern,
    Dma.walk_of_chain hchain hfed₁, Outcome.done_andThen]
  exact ⟨_, rfl, by rw [Board.gpu_storeRegister, Board.gpu_storeRegister]⟩

/-- The machine after each of the six steps of the program. -/
theorem exists_steps {c : Computer (Board ρ)} {gpu : Gpu ρ} (hpc : c.cpu.pc = entry)
    (hzero : c.cpu.reg .zero = 0) (h : Loaded words c.bus) (hlength : words.length < 0x100)
    (hfed : c.bus.gpu.feedAll words = .done () gpu) :
    ∃ m : Nat → Computer (Board ρ), m 0 = c ∧ (∀ n < 6, (m n).step = .done () (m (n + 1))) ∧
      (∀ n ≤ 6, (m n).cpu.pc = entry + 4 * .ofNat n) ∧ (m 6).bus.gpu = gpu := by
  obtain ⟨cpu, b⟩ := c
  replace hpc : cpu.pc = entry := hpc
  replace hzero : cpu.reg .zero = 0 := hzero
  -- the processor behind an instruction, and then with its result
  let next (k : Cpu) : Cpu := { k with pc := k.pc + 4 }
  let k₁ := (next cpu).setReg .a0 0x1F800000
  let k₂ := (next k₁).setReg .v0 ((next k₁).reg .zero ||| 0x1018)
  let k₃ := next k₂
  let k₄ := (next k₃).setReg .v1 0x01000000
  let k₅ := (next k₄).setReg .v1 ((next k₄).reg .v1 ||| 0x0401)
  let b₃ := b.storeRegister 0x10A0 0x1018
  have hpc₁ : k₁.pc = entry + 4 * .ofNat 1 := by simp only [k₁, next, Cpu.pc_setReg, hpc]; decide
  have hpc₂ : k₂.pc = entry + 4 * .ofNat 2 := by simp only [k₂, next, Cpu.pc_setReg, hpc₁]; decide
  have hpc₃ : k₃.pc = entry + 4 * .ofNat 3 := by simp only [k₃, next, hpc₂]; decide
  have hpc₄ : k₄.pc = entry + 4 * .ofNat 4 := by simp only [k₄, next, Cpu.pc_setReg, hpc₃]; decide
  have hpc₅ : k₅.pc = entry + 4 * .ofNat 5 := by simp only [k₅, next, Cpu.pc_setReg, hpc₄]; decide
  have hb₃ : Loaded words b₃ := by
    intro i word hi addr haddr
    rw [Board.ram_storeRegister]
    exact h i word hi addr haddr
  have hgpu₃ : b₃.gpu.feedAll words = .done () gpu := by rwa [Board.gpu_storeRegister]
  have hcursor : b₃.memory.io.loadWord 0x10A0 = 0x1018 := by
    rw [Board.io_storeRegister, loadWord_storeWord_self (by decide)]
  obtain ⟨b₆, hwrite₆, hgpu⟩ := exists_write_of_loaded hb₃ hlength hcursor hgpu₃
  have hnext (k : Cpu) (r : Register) : (next k).reg r = k.reg r := rfl
  have hv0 : (next k₂).reg .v0 = 0x1018 := by
    rw [hnext, Cpu.reg_setReg, if_pos (by decide), hnext, Cpu.reg_setReg, if_neg (by decide),
      hnext, hzero]
    decide
  have ha0 : k₂.reg .a0 = 0x1F800000 := by
    rw [Cpu.reg_setReg, if_neg (by decide), hnext, Cpu.reg_setReg, if_pos (by decide)]
  have hv1 : (next k₅).reg .v1 = 0x01000401 := by
    rw [hnext, Cpu.reg_setReg, if_pos (by decide), hnext, Cpu.reg_setReg, if_pos (by decide)]
    decide
  have haddr₃ : (next k₂).address .a0 0x10A0 = 0x1F8010A0 := by
    rw [Cpu.address, hnext, ha0]
    decide
  have haddr₆ : (next k₅).address .a0 0x10A8 = 0x1F8010A8 := by
    rw [Cpu.address, hnext, Cpu.reg_setReg, if_neg (by decide), hnext, Cpu.reg_setReg,
      if_neg (by decide), hnext, hnext, ha0]
    decide
  have hwrite₃ : b.write .word 0x1F8010A0 0x1018 = .done () b₃ := by
    have haddress : Segment.ofAddress? 0x1F8010A0 = some (.hardware 0x10A0) := by decide
    rw [Board.write_channel b haddress (by decide), Dma.write_of_plain b (by decide)]
  have h₁ : Computer.step ⟨cpu, b⟩ = .done () ⟨k₁, b⟩ :=
    Computer.step_of_plain (fetch h (n := 0) rfl hpc) (Instruction.decode_encode _ _) rfl
  have h₂ : Computer.step ⟨k₁, b⟩ = .done () ⟨k₂, b⟩ :=
    Computer.step_of_plain (fetch h (n := 1) rfl hpc₁) (Instruction.decode_encode _ _) rfl
  have h₃ : Computer.step ⟨k₂, b⟩ = .done () ⟨k₃, b₃⟩ :=
    Computer.step_of_plain (fetch h (n := 2) rfl hpc₂) (Instruction.decode_encode _ _)
      (Computer.storeFrom_eq_done haddr₃ hv0 hwrite₃)
  have h₄ : Computer.step ⟨k₃, b₃⟩ = .done () ⟨k₄, b₃⟩ :=
    Computer.step_of_plain (fetch hb₃ (n := 3) rfl hpc₃) (Instruction.decode_encode _ _) rfl
  have h₅ : Computer.step ⟨k₄, b₃⟩ = .done () ⟨k₅, b₃⟩ :=
    Computer.step_of_plain (fetch hb₃ (n := 4) rfl hpc₄) (Instruction.decode_encode _ _) rfl
  have h₆ : Computer.step ⟨k₅, b₃⟩ = .done () ⟨next k₅, b₆⟩ :=
    Computer.step_of_plain (fetch hb₃ (n := 5) rfl hpc₅) (Instruction.decode_encode _ _)
      (Computer.storeFrom_eq_done haddr₆ hv1 hwrite₆)
  refine ⟨fun
    | 0 => ⟨cpu, b⟩
    | 1 => ⟨k₁, b⟩
    | 2 => ⟨k₂, b⟩
    | 3 => ⟨k₃, b₃⟩
    | 4 => ⟨k₄, b₃⟩
    | 5 => ⟨k₅, b₃⟩
    | _ => ⟨next k₅, b₆⟩, rfl, fun n hn => ?_, fun n hn => ?_, hgpu⟩
  · interval_cases n
    exacts [h₁, h₂, h₃, h₄, h₅, h₆]
  · interval_cases n
    · exact hpc
    · exact hpc₁
    · exact hpc₂
    · exact hpc₃
    · exact hpc₄
    · exact hpc₅
    · simp only [next, hpc₅]
      decide

/-- Where the program has ended. -/
def halt : UInt32 := 0x80001018

omit [Renderer ρ] in
theorem not_stops {n : Nat} (hn : n < 6) {c : Computer (Board ρ)}
    (hpc : c.cpu.pc = entry + 4 * .ofNat n) {maxSteps : Option Nat}
    (hmax : ∀ limit ∈ maxSteps, n < limit) : ¬ Scheduler.Stops (some halt) maxSteps n c := by
  have hbefore : ∀ n < 6, halt ≠ entry + 4 * UInt32.ofNat n := by decide
  rintro (hstop | ⟨limit, hlimit, hle⟩)
  · rw [hpc, Option.some_inj] at hstop
    exact hbefore n hn hstop
  · exact absurd (hmax limit hlimit) (Nat.not_lt.2 hle)

/-- A new GPU draws a command from its words. -/
theorem exists_feedAll_words (command : Command) {r r' : ρ}
    (hdraw : Renderer.draw (Renderer.reset r .standard) command.packet = (.ok (), r')) :
    ∃ gpu, (Gpu.new r).reset.feedAll command.words = .done () gpu ∧ gpu.renderer = r' := by
  have hpackets := (Spells.command command .nil).ofWords.2
  rw [List.append_nil] at hpackets
  have hidle : Pipe.idle.Holds [] := Pipe.holds_nil rfl rfl
  have hfollows : Gpu.Follows 0 (Renderer.reset r .standard) [] (Gpu.new r).reset :=
    Gpu.follows_nil hidle 0 _
  have hfed := (hfollows.feedAll command.words).1
  rw [List.nil_append, hpackets, List.map_singleton, drawAll, hdraw] at hfed
  exact Outcome.mapState_eq_done_iff.1 hfed

/-- The program with the words of a command in a new emulator, up to where the command is drawn. -/
theorem exists_boot (command : Command) (config : Config) {r r' : ρ}
    (hdraw : Renderer.draw (Renderer.reset r .standard) command.packet = (.ok (), r')) :
    ∃ (e : Emulator ρ) (m : Nat → Computer (Board ρ)),
      Emulator.boot (image command.words) config r = .ok e ∧ m 0 = e.computer ∧
      (∀ n < 6, (m n).step = .done () (m (n + 1))) ∧
      (∀ n ≤ 6, (m n).cpu.pc = entry + 4 * .ofNat n) ∧ (m 6).bus.gpu.renderer = r' := by
  have hlength : command.words.length ≤ 8 := by
    cases command with
    | quad | sprite => simp [Command.words, Command.rest]
    | operation first rest opcode =>
      have hshort : ∀ o ∈ operationOpcodes, o.2 ≤ 2 := by decide
      have hrest := hshort _ opcode
      simp only [Command.words, Command.rest, List.length_cons]
      omega
  have hcode : (code command.words).length = 7 + command.words.length := by
    simp [code, program]
    omega
  obtain ⟨gpu, hfed, hgpu⟩ := exists_feedAll_words command hdraw
  obtain ⟨e, hboot, hcpu, hreset, hloaded⟩ :
      ∃ e, Emulator.boot (image command.words) config r = .ok e ∧ _ :=
    Emulator.boot_build_words (by decide) (by rw [hcode, entry]; simp; omega) config r
  obtain ⟨m, hfirst, hsteps, hpcs, hlast⟩ : ∃ m : Nat → Computer (Board ρ), m 0 = e.computer ∧ _ :=
    exists_steps (by rw [hcpu]; rfl)
      (by rw [hcpu, Cpu.reg_bootstrap, if_neg (by decide), if_neg (by decide)])
      (show Loaded command.words _ from hloaded) (by omega) (by rw [hreset, hfed])
  exact ⟨e, m, hboot, hfirst, hsteps, hpcs, by rw [hlast, hgpu]⟩

/-- A square with a color at each corner. -/
def square : Command :=
  .quad ⟨⟨0xFF, 0, 0, 0x38⟩, ⟨0, 0⟩⟩ ⟨⟨0, 0xFF, 0, 0⟩, ⟨64, 0⟩⟩ ⟨⟨0, 0, 0xFF, 0⟩, ⟨0, 64⟩⟩
    ⟨⟨0xFF, 0xFF, 0xFF, 0⟩, ⟨64, 64⟩⟩ (by decide)

theorem draw_log (l : PrimitiveLog) (command : Command) :
    Renderer.draw l command.packet = (.ok (), l.count command.primitive) := by
  simp only [Renderer.draw, Primitive.decode_eq_of_decodeFrom command.decodeFrom_packet]

theorem draw_raster (x : Raster) (command : Command) :
    Renderer.draw x command.packet = (.ok (), x.drawPrimitive command.primitive) := by
  simp only [Renderer.draw, Primitive.decode_eq_of_decodeFrom command.decodeFrom_packet]

end Playback

end GameConsole
