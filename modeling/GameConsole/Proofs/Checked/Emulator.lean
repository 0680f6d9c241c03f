import GameConsole.Proofs.Checked.Board
import GameConsole.Proofs.Emulator.Playback

/-! No program brings the console to an operation that is not defined. The GPU of a new emulator is
sound, each step of its processor keeps it so, and on a sound board every access, shift, division
and number of the next step is within its bounds. -/

namespace GameConsole

namespace Pipe

theorem Sound.of_isIdle {p : Pipe} (hp : p.Sound) (hidle : p.isIdle = true) :
    p.row = 0 ∧ p.size = 0 := by
  simp only [isIdle, beq_iff_eq] at hidle
  exact hp.resolve_left (by omega)

theorem Sound.of_not_isIdle {p : Pipe} (hp : p.Sound) (hidle : p.isIdle = false) :
    p.row < p.size ∧ p.size ≤ 255 := by
  simp only [isIdle, beq_eq_false_iff_ne] at hidle
  exact hp.resolve_right (by omega)

theorem sound_idle : idle.Sound := .inr ⟨rfl, rfl⟩

end Pipe

/-- All operations are defined: those of the next step, the number of words that the pipe lacks,
and a look at any place of the picture. -/
structure Computer.Defined (c : Computer (Board Raster)) : Prop where
  step : c.step? = some c.step
  remaining : c.bus.gpu.pipe.remaining? = some c.bus.gpu.pipe.remaining
  idle : c.bus.gpu.pipe.isIdle = true → c.bus.gpu.pipe.row = 0 ∧ c.bus.gpu.pipe.size = 0
  pending : c.bus.gpu.pipe.isIdle = false →
    c.bus.gpu.pipe.row < c.bus.gpu.pipe.size ∧ c.bus.gpu.pipe.size ≤ 255
  size_pixels : c.bus.gpu.renderer.pixels.size =
    c.bus.gpu.renderer.resolution.width * c.bus.gpu.renderer.resolution.height
  look : ∀ x y, c.bus.gpu.renderer.look? x y = some (c.bus.gpu.renderer.pixel? x y)

namespace Computer

theorem sound_after? {c c' : Computer (Board Raster)} (hc : c.bus.Sound) {n : Nat}
    (h : c.after? n = some c') : c'.bus.Sound := by
  induction n generalizing c with
  | zero =>
    cases h
    exact hc
  | succ n ih =>
    rw [after?, Option.bind_eq_some_iff] at h
    obtain ⟨d, hstep, hrest⟩ := h
    exact ih (Outcome.leaves_iff.1 (safe_step Board.bus_safe hc).holds d hstep) hrest

theorem defined_of_sound {c : Computer (Board Raster)} (hc : c.bus.Sound) : c.Defined where
  step := (safe_step Board.bus_safe hc).eq
  remaining := hc.pipe.remaining?_eq
  idle := hc.pipe.of_isIdle
  pending := hc.pipe.of_not_isIdle
  size_pixels := hc.renderer.size_pixels
  look := Raster.look?_eq hc.renderer

end Computer

namespace Emulator

variable {image : ByteArray} {config : Config} {r : Raster} {e : Emulator Raster}

theorem sound_bus_of_boot (hboot : boot image config r = .ok e) : e.computer.bus.Sound := by
  have hgpu : e.computer.bus.gpu = ((Board.new r).reset).gpu := by
    simp only [boot] at hboot
    split at hboot
    · cases hboot
    · cases hboot
      rfl
  rw [Board.Sound, hgpu]
  exact ⟨Pipe.sound_idle, Raster.sound_black⟩

/-- After any number of steps of a new emulator that come back, successful or not, all operations
are defined. -/
theorem defined_after_of_boot (hboot : boot image config r = .ok e) {n : Nat}
    {c : Computer (Board Raster)} (hc : e.computer.after? n = some c) : c.Defined :=
  Computer.defined_of_sound (Computer.sound_after? (sound_bus_of_boot hboot) hc)

/-- A program that has stored into two registers and had a square drawn. -/
theorem defined_after_of_boot_playback :
    ∃ (e : Emulator Raster) (c : Computer (Board Raster)),
      boot (Playback.image Playback.square.words) {} .initial = .ok e ∧
      e.computer.after? 6 = some c ∧
      c.bus.gpu.renderer = Raster.initial.drawPrimitive Playback.square.primitive ∧ c.Defined := by
  obtain ⟨e, m, hboot, hfirst, hsteps, -, hdrawn⟩ := Playback.exists_boot Playback.square {}
    (Playback.draw_raster (Renderer.reset Raster.initial .standard) _)
  have hafter : e.computer.after? 6 = some (m 6) := by
    rw [← hfirst]
    exact Computer.after?_of_steps hsteps le_rfl
  exact ⟨e, m 6, hboot, hafter, hdrawn, defined_after_of_boot hboot hafter⟩

end Emulator

end GameConsole
