import GameConsole.Gpu.Raster
import GameConsole.Proofs.Board.RendererMap
import GameConsole.Proofs.Emulator.Timeless

/-! The renderer only consumes. Two sessions with the same image and the same calls, on renderers
that refuse the same commands, agree in everything but the renderer itself: both are images of one
session whose renderer is the list of the commands that it was given. The clock of a run does not
matter either, if there is no limit of time. -/

namespace GameConsole

variable {ρ σ τ : Type} [Renderer ρ] [Renderer σ] [Renderer τ]

namespace Renderer

/-- A renderer after a number of commands, the refused ones among them. -/
def drawEach (r : ρ) (packets : List Packet) : ρ := packets.foldl (fun r p => (draw r p).2) r

theorem drawEach_concat (r : ρ) (packets : List Packet) (p : Packet) :
    drawEach r (packets ++ [p]) = (draw (drawEach r packets) p).2 := by
  rw [drawEach, List.foldl_append]
  rfl

/-- What a new renderer says to a command that comes after some others. -/
def verdict (r : ρ) (packets : List Packet) (p : Packet) : Except Fault Unit :=
  (draw (drawEach (reset r .standard) packets) p).1

/-- Two renderers that refuse the same commands, with the same faults, after the same ones. -/
def RefuseAlike (r : ρ) (s : σ) : Prop := ∀ packets p, verdict r packets p = verdict s packets p

/-- The two renderers of the console refuse what stands for no shape. -/
theorem refuseAlike_log_raster (l : PrimitiveLog) (x : Raster) : RefuseAlike l x := by
  intro packets p
  simp only [verdict, draw]
  cases Primitive.decode p.opcode p.words <;> rfl

end Renderer

/-- A renderer with the commands that it was given since its last reset. -/
structure Recorded (ρ : Type) where
  renderer : ρ
  packets : List Packet := []

instance : Renderer (Recorded ρ) where
  reset r resolution := ⟨Renderer.reset r.renderer resolution, []⟩
  draw r p :=
    let (answer, renderer) := Renderer.draw r.renderer p
    (answer, ⟨renderer, r.packets ++ [p]⟩)

theorem Recorded.drawHom_renderer : Renderer.DrawHom (renderer : Recorded ρ → ρ) := by
  intro r p
  rfl

/-- The commands that a renderer was given since its last reset, and nothing of the renderer. It
refuses the commands that are refused by the verdict. -/
structure Transcript (verdict : List Packet → Packet → Except Fault Unit) where
  packets : List Packet

namespace Transcript

variable {verdict : List Packet → Packet → Except Fault Unit}

instance : Renderer (Transcript verdict) where
  reset _ _ := ⟨[]⟩
  draw t p := (verdict t.packets p, ⟨t.packets ++ [p]⟩)

/-- The recorded renderer that a transcript of its commands stands for. -/
def replay (r : ρ) (t : Transcript verdict) : Recorded ρ :=
  ⟨Renderer.drawEach (Renderer.reset r .standard) t.packets, t.packets⟩

theorem drawHom_replay {r : ρ} (h : ∀ packets p, Renderer.verdict r packets p = verdict packets p) :
    Renderer.DrawHom (replay r : Transcript verdict → Recorded ρ) := by
  intro t p
  have hverdict := h t.packets p
  have hconcat := Renderer.drawEach_concat (Renderer.reset r .standard) t.packets p
  simp only [Renderer.draw, ← hverdict, Renderer.verdict, Prod.map, replay, hconcat, id_eq]

end Transcript

namespace Emulator

omit [Renderer ρ] [Renderer σ] in
/-- The same emulator with another renderer. -/
def mapRenderer (f : ρ → σ) (e : Emulator ρ) : Emulator σ :=
  ⟨e.computer.mapBus (Board.mapRenderer f), e.scheduler, e.timeout⟩

section

variable {f : τ → ρ} (hf : Renderer.DrawHom f) (e : Emulator τ)

include hf

theorem step_mapRenderer : (e.mapRenderer f).step = e.step.mapState (mapRenderer f) := by
  have hquantum := Scheduler.runQuantum_mapBus (Board.busHom_mapRenderer hf) e.scheduler e.computer
  simp only [step_eq, mapRenderer, hquantum, Outcome.mapState_mapState]
  rfl

theorem run_mapRenderer (clock : Nat → Nat) (n : Nat) :
    (e.mapRenderer f).run clock n = (e.run clock n).map (Prod.map id (mapRenderer f)) := by
  induction n generalizing e with
  | zero => rfl
  | succ n ih =>
    have hstop : (e.mapRenderer f).shouldStop (clock n) = e.shouldStop (clock n) := rfl
    have hfin : (e.mapRenderer f).scheduler.finished = e.scheduler.finished := rfl
    rw [run_succ_eq, run_succ_eq, hstop, hfin, step_mapRenderer hf]
    by_cases h : e.shouldStop (clock n) = true
    · rw [if_pos h, if_pos h]
      rfl
    rw [if_neg h, if_neg h]
    cases e.step with
    | fault cause e' => rfl
    | endless => rfl
    | done u e' => exact ih e'

theorem call_mapRenderer (c : Call) :
    (e.mapRenderer f).call c = (e.call c).map (Prod.map id (mapRenderer f)) := by
  cases c with
  | step =>
    rw [call, call, step_mapRenderer hf]
    cases e.step <;> rfl
  | run clock allowance =>
    simp only [call, run_mapRenderer hf, Option.map_map]
    rfl
  | shouldStop elapsed => rfl

theorem calls_mapRenderer (cs : List Call) :
    (e.mapRenderer f).calls cs = (e.calls cs).map (Prod.map id (mapRenderer f)) := by
  induction cs generalizing e with
  | nil => rfl
  | cons c cs ih =>
    rw [calls, calls, call_mapRenderer hf]
    cases e.call c with
    | none => rfl
    | some result =>
      simp only [Option.map_some, Option.bind_some, Prod.map, ih, Option.map_map]
      rfl

omit hf in
/-- Only the reset of the renderer matters for a new emulator. -/
theorem boot_mapRenderer {t : τ} {r : ρ}
    (hreset : f (Renderer.reset t .standard) = Renderer.reset r .standard) (image : ByteArray)
    (config : Config) : boot image config r = (boot image config t).map (mapRenderer f) := by
  simp only [boot, Board.reset, Board.new, Gpu.reset, Gpu.new, ← hreset]
  split <;> rfl

end

/-! ### Sessions -/

/-- What becomes of a new emulator with an image and of calls to it: a fault if it cannot be
started, and otherwise the answers and the emulator at the end. A session with a run that does not
come back has no end. -/
def session (image : ByteArray) (config : Config) (r : ρ) (cs : List Call) :
    Except Fault (Option (List Answer × Emulator ρ)) := (boot image config r).map (calls cs)

/-- A session with another renderer at its end. -/
def sessionMap (f : ρ → σ) :
    Except Fault (Option (List Answer × Emulator ρ)) →
      Except Fault (Option (List Answer × Emulator σ)) :=
  Except.map (Option.map (Prod.map id (mapRenderer f)))

theorem session_mapRenderer {f : τ → ρ} (hf : Renderer.DrawHom f) {t : τ} {r : ρ}
    (hreset : f (Renderer.reset t .standard) = Renderer.reset r .standard) (image : ByteArray)
    (config : Config) (cs : List Call) :
    session image config r cs = sessionMap f (session image config t cs) := by
  rw [session, session, boot_mapRenderer hreset]
  cases boot image config t with
  | error e => rfl
  | ok e => exact congrArg Except.ok (calls_mapRenderer hf e cs)

theorem session_timeless (image : ByteArray) {config : Config} (htime : config.timeout = none)
    (r : ρ) (cs : List Call) :
    session image config r (cs.map Call.timeless) = session image config r cs := by
  rw [session, session]
  cases hboot : boot image config r with
  | error e => rfl
  | ok e =>
    have htime' : e.timeout = none := (boot_eq_ok hboot).2.trans htime
    exact congrArg Except.ok (calls_timeless (sound_of_boot hboot) htime' cs)

omit [Renderer ρ] [Renderer σ] in
theorem sessionMap_eq_ok_some {f : ρ → σ} {answers : List Answer} {e : Emulator σ}
    {result : Except Fault (Option (List Answer × Emulator ρ))}
    (h : sessionMap f result = .ok (some (answers, e))) :
    ∃ e', result = .ok (some (answers, e')) ∧ e'.mapRenderer f = e := by
  match result with
  | .error _ | .ok none => cases h
  | .ok (some (_, e')) =>
    cases h
    exact ⟨e', rfl, rfl⟩

/-- A session without the renderer at its end. -/
def bare : Except Fault (Option (List Answer × Emulator ρ)) →
    Except Fault (Option (List Answer × Emulator Unit)) := sessionMap fun _ => ()

omit [Renderer ρ] [Renderer σ] [Renderer τ] in
theorem sessionMap_sessionMap (f : τ → ρ) (g : ρ → σ)
    (result : Except Fault (Option (List Answer × Emulator τ))) :
    sessionMap g (sessionMap f result) = sessionMap (g ∘ f) result := by
  match result with
  | .error _ | .ok none | .ok (some _) => rfl

/-- A recorded session is the image of a session of transcripts, whatever gives the verdicts. -/
theorem session_recorded {r : ρ} {verdict : List Packet → Packet → Except Fault Unit}
    (h : ∀ packets p, Renderer.verdict r packets p = verdict packets p) (image : ByteArray)
    (config : Config) (cs : List Call) :
    session image config (⟨r, []⟩ : Recorded ρ) cs =
      sessionMap (Transcript.replay r) (session image config (⟨[]⟩ : Transcript verdict) cs) :=
  session_mapRenderer (Transcript.drawHom_replay h) rfl image config cs

/-- Recording changes nothing for the renderer. -/
theorem session_eq_recorded (image : ByteArray) (config : Config) (r : ρ) (cs : List Call) :
    session image config r cs =
      sessionMap Recorded.renderer (session image config (⟨r, []⟩ : Recorded ρ) cs) :=
  session_mapRenderer (t := ⟨r, []⟩) Recorded.drawHom_renderer rfl image config cs

/-- The same commands are given to renderers that refuse alike, by machines that are alike. -/
theorem packets_session {r : ρ} {s : σ} (h : Renderer.RefuseAlike r s) (image : ByteArray)
    {config : Config} (htime : config.timeout = none) {cs cs' : List Call}
    (hcalls : cs.map Call.timeless = cs'.map Call.timeless) :
    sessionMap Recorded.packets (session image config (⟨r, []⟩ : Recorded ρ) cs) =
      sessionMap Recorded.packets (session image config (⟨s, []⟩ : Recorded σ) cs') := by
  rw [← session_timeless image htime, hcalls, session_timeless image htime,
    session_recorded h, session_recorded fun _ _ => rfl, sessionMap_sessionMap,
    sessionMap_sessionMap]
  rfl

theorem bare_session {r : ρ} {s : σ} (h : Renderer.RefuseAlike r s) (image : ByteArray)
    {config : Config} (htime : config.timeout = none) {cs cs' : List Call}
    (hcalls : cs.map Call.timeless = cs'.map Call.timeless) :
    bare (session image config r cs) = bare (session image config s cs') := by
  have hpackets := packets_session h image htime hcalls
  have hbare := congrArg (sessionMap fun _ => ()) hpackets
  rw [sessionMap_sessionMap, sessionMap_sessionMap] at hbare
  rw [bare, bare, session_eq_recorded, session_eq_recorded image config s, sessionMap_sessionMap,
    sessionMap_sessionMap]
  exact hbare

/-- The renderer at the end of a recorded session has been reset and given the commands of the
record, in their order. -/
theorem renderer_session {r : ρ} {image : ByteArray} {config : Config} {cs : List Call}
    {answers : List Answer} {e : Emulator (Recorded ρ)}
    (h : session image config (⟨r, []⟩ : Recorded ρ) cs = .ok (some (answers, e))) :
    e.renderer.renderer =
      Renderer.drawEach (Renderer.reset r .standard) e.renderer.packets := by
  rw [session_recorded fun _ _ => rfl] at h
  match hsession : session image config (⟨[]⟩ : Transcript (Renderer.verdict r)) cs with
  | .error _ | .ok none =>
    rw [hsession] at h
    cases h
  | .ok (some (_, t)) =>
    rw [hsession] at h
    cases h
    rfl

/-- Sessions without a limit of time on two renderers that refuse the same commands, as the two of
the console do: they differ in the renderers alone, which the same commands made what they are. -/
theorem session_of_refuseAlike {r : ρ} {s : σ} (h : Renderer.RefuseAlike r s) (image : ByteArray)
    {config : Config} (htime : config.timeout = none) {cs cs' : List Call}
    (hcalls : cs.map Call.timeless = cs'.map Call.timeless) :
    bare (session image config r cs) = bare (session image config s cs') ∧
    sessionMap Recorded.packets (session image config (⟨r, []⟩ : Recorded ρ) cs) =
      sessionMap Recorded.packets (session image config (⟨s, []⟩ : Recorded σ) cs') ∧
    session image config r cs =
      sessionMap Recorded.renderer (session image config (⟨r, []⟩ : Recorded ρ) cs) ∧
    (∀ answers e, session image config (⟨r, []⟩ : Recorded ρ) cs = .ok (some (answers, e)) →
      e.renderer.renderer =
        Renderer.drawEach (Renderer.reset r .standard) e.renderer.packets) ∧
    ∀ (l : PrimitiveLog) (x : Raster),
      bare (session image config l cs) = bare (session image config x cs') :=
  ⟨bare_session h image htime hcalls, packets_session h image htime hcalls,
    session_eq_recorded image config r cs, fun _ _ hend => renderer_session hend,
    fun l x => bare_session (Renderer.refuseAlike_log_raster l x) image htime hcalls⟩

/-- A session of two quanta in which a square is drawn, on the two renderers of the console. -/
theorem session_of_refuseAlike_playback :
    ∃ (l : Emulator PrimitiveLog) (x : Emulator Raster),
      let image := Playback.image Playback.square.words
      let config : Config := { stopPc := some Playback.halt, quantum := some 4 }
      let answers : List Answer := [.stepped (.ok ()), .stepped (.ok ()), .ran .stopCondition]
      session image config ({} : PrimitiveLog) [.step, .step, .run (fun _ => 0) 1] =
        .ok (some (answers, l)) ∧
      session image config Raster.initial [.step, .step, .run (fun n => n) 1] =
        .ok (some (answers, x)) ∧
      l.executed = 6 ∧ l.renderer.quads = 1 ∧
      x.mapRenderer (fun _ => ()) = l.mapRenderer fun _ => () := by
  obtain ⟨e, e₁, l, hboot, hone, -, htwo, hfin, hcount, hdrawn⟩ :=
    Playback.exists_quanta (r := ({} : PrimitiveLog)) Playback.square (Playback.draw_log _ _) none
      (k := 6) (by decide) (by decide) (by simp) (.inl rfl)
  have hrun : l.run (fun _ => 0) 1 = some (.stopCondition, l) := by rw [run, if_pos hfin]
  have hlog : session (Playback.image Playback.square.words)
      { stopPc := some Playback.halt, quantum := some 4 } ({} : PrimitiveLog)
      [.step, .step, .run (fun _ => 0) 1] =
        .ok (some ([.stepped (.ok ()), .stepped (.ok ()), .ran .stopCondition], l)) := by
    rw [session, hboot]
    simp only [Except.map, calls, call, hone, htwo, hrun, Option.bind_some, Option.map_some]
  have hcalls : [Call.step, .step, .run (fun _ => 0) 1].map Call.timeless =
      [Call.step, .step, .run (fun n => n) 1].map Call.timeless := rfl
  obtain ⟨hbare, -⟩ := session_of_refuseAlike (Renderer.refuseAlike_log_raster {} .initial)
    (Playback.image Playback.square.words)
    (rfl : ({ stopPc := some Playback.halt, quantum := some 4 } : Config).timeout = none) hcalls
  rw [hlog] at hbare
  obtain ⟨x, hraster, hx⟩ := sessionMap_eq_ok_some hbare.symm
  exact ⟨l, x, hlog, hraster, hcount, by rw [hdrawn rfl]; rfl, hx⟩

end Emulator

end GameConsole
