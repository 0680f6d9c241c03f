import GameConsole.Proofs.Board.Transfer
import GameConsole.Proofs.Scheduler.BusMap

/-! Boards with different renderers. What the GPU, the DMA engine and the bus do depends on the
renderer only by the faults of its drawing. So a map between renderers that goes along with drawing
gives a map between boards that goes along with the bus. -/

namespace GameConsole

variable {ρ σ : Type} [Renderer ρ] [Renderer σ]

/-- A map between renderers that goes along with drawing, the faults included. -/
def Renderer.DrawHom (f : ρ → σ) : Prop :=
  ∀ r p, Renderer.draw (f r) p = (Renderer.draw r p).map id f

namespace Gpu

omit [Renderer ρ] [Renderer σ]

/-- The same GPU with another renderer. -/
def mapRenderer (f : ρ → σ) (g : Gpu ρ) : Gpu σ := ⟨g.pipe, g.status, f g.renderer⟩

variable [Renderer ρ] [Renderer σ] {f : ρ → σ} (hf : Renderer.DrawHom f) (g : Gpu ρ)

include hf

theorem feed_mapRenderer (word : UInt32) :
    (g.mapRenderer f).feed word = (g.feed word).mapState (mapRenderer f) := by
  simp only [feed, mapRenderer]
  cases g.pipe.push word with
  | mk pipe packet =>
    cases packet with
    | none => rfl
    | some packet =>
      simp only [hf g.renderer packet, ← Outcome.mapState_ofAnswer, Outcome.mapState_mapState]
      rfl

theorem feedAll_mapRenderer (words : List UInt32) :
    (g.mapRenderer f).feedAll words = (g.feedAll words).mapState (mapRenderer f) := by
  induction words generalizing g with
  | nil => rfl
  | cons word words ih =>
    rw [feedAll, feedAll, feed_mapRenderer hf]
    exact Outcome.mapState_andThen fun _ g => ih g

theorem writeRegister_mapRenderer (addr data : UInt32) :
    (g.mapRenderer f).writeRegister addr data =
      (g.writeRegister addr data).mapState (mapRenderer f) := by
  simp only [writeRegister, feed_mapRenderer hf, control]
  split_ifs <;> rfl

end Gpu

namespace Board

omit [Renderer ρ] [Renderer σ]

/-- The same board with another renderer. -/
def mapRenderer (f : ρ → σ) (b : Board ρ) : Board σ :=
  ⟨b.memory, b.gpu.mapRenderer f⟩

theorem onGpu_mapRenderer {f : ρ → σ} (b : Board ρ) {act : Gpu ρ → Outcome (Gpu ρ) Unit}
    {act' : Gpu σ → Outcome (Gpu σ) Unit}
    (h : ∀ g, act' (g.mapRenderer f) = (act g).mapState (Gpu.mapRenderer f)) :
    (b.mapRenderer f).onGpu act' = (b.onGpu act).mapState (mapRenderer f) := by
  simp only [onGpu, mapRenderer, h, Outcome.mapState_mapState]
  rfl

theorem storeRegister_mapRenderer (f : ρ → σ) (b : Board ρ) (addr data : UInt32) :
    (b.mapRenderer f).storeRegister addr data = (b.storeRegister addr data).mapRenderer f := by
  obtain ⟨⟨_, _, _⟩, _⟩ := b
  rfl

theorem read_mapRenderer (f : ρ → σ) (b : Board ρ) (w : Width) (addr : UInt32) :
    (b.mapRenderer f).read w addr = b.read w addr := rfl

variable [Renderer ρ] [Renderer σ] {f : ρ → σ} (hf : Renderer.DrawHom f) (b : Board ρ)

include hf

theorem feedFromRam_mapRenderer (addr : UInt32) (count : Nat) :
    (b.mapRenderer f).feedFromRam addr count =
      (b.feedFromRam addr count).mapState (mapRenderer f) := by
  simp only [feedFromRam]
  exact b.onGpu_mapRenderer fun g => g.feedAll_mapRenderer hf _

theorem visit_mapRenderer (cursor : UInt32) :
    Dma.visit cursor (b.mapRenderer f) = (Dma.visit cursor b).mapState (mapRenderer f) := by
  simp only [Dma.visit, feedFromRam_mapRenderer hf]
  refine Outcome.mapState_andThen fun _ b' => ?_
  rw [storeRegister_mapRenderer]
  rfl

theorem walk_mapRenderer (cursor : UInt32) :
    Dma.walk cursor (b.mapRenderer f) = (Dma.walk cursor b).mapState (mapRenderer f) :=
  Outcome.repeatUntil_mapState (fun _ => rfl) (fun b => visit_mapRenderer hf b cursor) b

theorem dmaWrite_mapRenderer (addr data : UInt32) :
    Dma.write (b.mapRenderer f) addr data = (Dma.write b addr data).mapState (mapRenderer f) := by
  have hexecute (b : Board ρ) : Dma.execute (b.mapRenderer f) addr =
      (Dma.execute b addr).mapState (mapRenderer f) := by
    have hio : (b.mapRenderer f).memory.io = b.memory.io := rfl
    rw [Dma.execute, Dma.execute, hio]
    by_cases hstart : b.memory.io.loadWord (Dma.controlRegister addr) = Dma.startPattern
    · rw [if_pos hstart, if_pos hstart, walk_mapRenderer hf]
    · rw [if_neg hstart, if_neg hstart]
      rfl
  simp only [Dma.write, storeRegister_mapRenderer, hexecute]
  split_ifs
  · rfl
  · refine Outcome.mapState_andThen fun _ b' => ?_
    rw [storeRegister_mapRenderer]
    rfl
  · simp only [Outcome.done_andThen, storeRegister_mapRenderer, Outcome.mapState]

theorem write_mapRenderer (w : Width) (addr value : UInt32) :
    (b.mapRenderer f).write w addr value = (b.write w addr value).mapState (mapRenderer f) := by
  have hhardware (offset data : UInt32) : (b.mapRenderer f).writeHardware offset data =
      (b.writeHardware offset data).mapState (mapRenderer f) := by
    simp only [writeHardware, dmaWrite_mapRenderer hf, storeRegister_mapRenderer]
    split_ifs
    · rfl
    · exact b.onGpu_mapRenderer fun g => g.writeRegister_mapRenderer hf _ _
    · rfl
    · rfl
  simp only [write, hhardware]
  cases Segment.ofAddress? addr with
  | none => rfl
  | some segment =>
    cases segment with
    | hardware offset =>
      dsimp only
      split_ifs <;> rfl
    | _ => rfl

theorem busHom_mapRenderer : Bus.Hom (mapRenderer f) where
  read b w addr := b.read_mapRenderer f w addr
  write b w addr value := b.write_mapRenderer hf w addr value

end Board

end GameConsole
