import GameConsole.Proofs.Raster.Shape

/-! The picture after a sequence of commands. The loop over the rectangle around a triangle leaves
no place of it out, so drawing a shape lays the whole shape over the picture. Each command lays its
shapes in their order, and a pixel has the color of the last shape that covers its place. -/

namespace GameConsole

namespace Raster

open Barycentric

/-! ### Drawing one shape -/

theorem overlaid_fillSquare (s : Raster) (size : Nat) (origin : Point) :
    Overlaid s (s.fillSquare origin size spriteColor) (Shape.square size origin).layer :=
  overlaid_forRectangle (fun s x y => overlaid_put s x y spriteColor) s _ _ size size

theorem mem_span {a b c q : Int} {size : Nat} (hq : 0 ≤ q) (hsize : q < size)
    (hlow : min a (min b c) ≤ q) (hhigh : q ≤ max a (max b c)) :
    (span a b c size).1 ≤ q ∧ q < (span a b c size).1 + (span a b c size).2 := by
  simp only [span]
  omega

/-- The rectangle around the corners has all of the triangle. -/
theorem mem_bounds {a b c p : ℤ × ℤ} {k : Barycentric a b c p} (h : k.Nonneg) :
    (min a.1 (min b.1 c.1) ≤ p.1 ∧ p.1 ≤ max a.1 (max b.1 c.1)) ∧
      min a.2 (min b.2 c.2) ≤ p.2 ∧ p.2 ≤ max a.2 (max b.2 c.2) := by
  have hx := k.floor_mean_mem h a.1 b.1 c.1
  have hy := k.floor_mean_mem h a.2 b.2 c.2
  rw [k.mean_fst, Int.floor_intCast] at hx
  rw [k.mean_snd, Int.floor_intCast] at hy
  exact ⟨hx, hy⟩

/-- One step of the loop over that rectangle. -/
theorem overlaid_plot (s : Raster) (a b c : Vertex) (x y : Int) :
    let area := edge (place a.point) (place b.point) (place c.point)
    let w := Weights.at (place a.point) (place b.point) (place c.point) (x, y)
    area ≠ 0 → Overlaid s
      (if w.inside area then s.put x y (w.shade area a.color b.color c.color) else s)
      ((Shape.triangle a b c).layer.on (· = (x, y))) := by
  intro area w harea
  split
  · rename_i hinside
    have hcolor : (Shape.triangle a b c).layer (x, y) =
        some (w.shade area a.color b.color c.color) := if_pos ⟨harea, hinside⟩
    rw [Layer.on_place hcolor]
    exact overlaid_put s x y _
  · rename_i hinside
    have hcolor : (Shape.triangle a b c).layer (x, y) = none := if_neg fun h => hinside h.2
    rw [Layer.on_place hcolor]
    exact (Overlaid.refl s).congr fun _ _ _ _ => by simp [Layer.on]

theorem overlaid_fillTriangle (s : Raster) (a b c : Vertex) :
    Overlaid s (s.fillTriangle a b c) (Shape.triangle a b c).layer := by
  simp only [fillTriangle]
  split
  · rename_i harea
    refine (Overlaid.refl s).congr fun x y _ _ => ?_
    exact (if_neg fun h => h.1 harea).symm
  · rename_i harea
    refine (overlaid_forRectangle (fun s x y => overlaid_plot s a b c x y harea) s _ _ _ _).congr
      fun x y hx hy => ?_
    simp only [Layer.on]
    split
    · rfl
    · rename_i hout
      symm
      rw [Shape.layer_eq_none_iff, Shape.covers_triangle_iff]
      rintro ⟨_, hinside⟩
      obtain ⟨⟨hleft, hright⟩, htop, hbottom⟩ := mem_bounds hinside
      exact hout ⟨mem_span (by omega) (by omega) hleft hright,
        mem_span (by omega) (by omega) htop hbottom⟩

/-! ### Drawing commands -/

end Raster

/-- The shapes of a primitive, in the order in which they are drawn. -/
def Primitive.shapes : Primitive → List Raster.Shape
  | quad a b c d => [.triangle a b c, .triangle b c d]
  | sprite size _ origin => [.square size origin]
  | operation _ => []

/-- The shapes of a command. One that cannot be decoded has none. -/
def Packet.shapes (p : Packet) : List Raster.Shape :=
  match Primitive.decode p.opcode p.words with
  | .ok primitive => primitive.shapes
  | .error _ => []

namespace Raster

/-- The shapes one in front of the other, the last one in front of all. -/
def front (shapes : List Shape) : Layer := fun p => shapes.reverse.findSome? (·.layer p)

theorem front_append (shapes shapes' : List Shape) :
    front (shapes ++ shapes') = (front shapes).under (front shapes') := by
  funext p
  simp only [front, Layer.under, List.reverse_append, List.findSome?_append]

theorem front_singleton (s : Shape) : front [s] = s.layer := by
  funext p
  simp [front]

theorem overlaid_drawPrimitive (s : Raster) (primitive : Primitive) :
    Overlaid s (s.drawPrimitive primitive) (front primitive.shapes) := by
  cases primitive with
  | quad a b c d =>
    have hfront : front [.triangle a b c, .triangle b c d] =
        (Shape.triangle a b c).layer.under (Shape.triangle b c d).layer := by
      rw [← front_singleton, ← front_singleton, ← front_append]
      rfl
    rw [Primitive.shapes, hfront]
    exact (overlaid_fillTriangle s a b c).trans (overlaid_fillTriangle _ b c d)
  | sprite size color origin =>
    rw [Primitive.shapes, front_singleton]
    exact overlaid_fillSquare s size origin
  | operation opcode => exact Overlaid.refl s

/-- A command lays its shapes over the picture, and a failing one nothing. -/
theorem overlaid_draw (s : Raster) (p : Packet) :
    Overlaid s (Renderer.draw s p).2 (front p.shapes) := by
  simp only [Renderer.draw, Packet.shapes]
  cases Primitive.decode p.opcode p.words with
  | error e => exact Overlaid.refl s
  | ok primitive => exact overlaid_drawPrimitive s primitive

/-- Draws commands in order, and goes on after one that fails. -/
def drawEach (s : Raster) (packets : List Packet) : Raster :=
  packets.foldl (fun s p => (Renderer.draw s p).2) s

theorem overlaid_drawEach (s : Raster) (packets : List Packet) :
    Overlaid s (s.drawEach packets) (front (packets.flatMap Packet.shapes)) := by
  induction packets generalizing s with
  | nil => exact Overlaid.refl s
  | cons p packets ih =>
    rw [List.flatMap_cons, front_append]
    exact (overlaid_draw s p).trans (ih _)

/-! ### The picture -/

theorem pixel?_black (r : Resolution) (x y : Nat) : (black r).pixel? x y =
    if x < r.width ∧ y < r.height then some 0 else none := by
  by_cases h : x < r.width ∧ y < r.height
  · have hindex : y * r.width + x < r.width * r.height := by
      calc y * r.width + x < y * r.width + r.width := by omega
        _ = r.width * (y + 1) := by ring
        _ ≤ r.width * r.height := Nat.mul_le_mul_left _ h.2
    simp [pixel?, black, h, hindex]
  · simp [pixel?, black, h]

/-- The color that is seen at a place: that of the last shape which covers it, and black where no
shape does. -/
def Shown (shapes : List Shape) (p : ℤ × ℤ) (rgb : UInt32) : Prop :=
  (∃ earlier s later, shapes = earlier ++ s :: later ∧ s.Covers p ∧ s.HasColor p rgb ∧
    ∀ t ∈ later, ¬ t.Covers p) ∨
  (∀ s ∈ shapes, ¬ s.Covers p) ∧ rgb = 0

theorem front_eq_none_iff (shapes : List Shape) (p : ℤ × ℤ) :
    front shapes p = none ↔ ∀ s ∈ shapes, ¬ s.Covers p := by
  simp [front, Shape.layer_eq_none_iff]

theorem front_eq_some_iff (shapes : List Shape) (p : ℤ × ℤ) (rgb : UInt32) :
    front shapes p = some rgb ↔ ∃ earlier s later, shapes = earlier ++ s :: later ∧ s.Covers p ∧
      s.HasColor p rgb ∧ ∀ t ∈ later, ¬ t.Covers p := by
  simp only [front, List.findSome?_eq_some_iff, Shape.layer_eq_some_iff, Shape.layer_eq_none_iff]
  constructor
  · rintro ⟨later, s, earlier, hshapes, ⟨hcovers, hcolor⟩, hlater⟩
    refine ⟨earlier.reverse, s, later.reverse, ?_, hcovers, hcolor, by simpa using hlater⟩
    rw [← List.reverse_reverse shapes, hshapes]
    simp
  · rintro ⟨earlier, s, later, rfl, hcovers, hcolor, hlater⟩
    exact ⟨later.reverse, s, earlier.reverse, by simp, ⟨hcovers, hcolor⟩, by simpa using hlater⟩

theorem shown_iff (shapes : List Shape) (p : ℤ × ℤ) (rgb : UInt32) :
    Shown shapes p rgb ↔ (front shapes p).getD 0 = rgb := by
  rw [Shown, ← front_eq_some_iff, ← front_eq_none_iff]
  cases front shapes p with
  | none => simp [eq_comm]
  | some rgb' => simp

/-- Each pixel has the color that is seen at its place, whatever the resolution is. In a triangle
its channels are means of those at the corners, rounded down and never cut to a byte. -/
theorem pixel?_drawEach (s : Raster) (r : Resolution) (packets : List Packet) :
    let picture := (Renderer.reset s r).drawEach packets
    let shapes := packets.flatMap Packet.shapes
    (∀ x y : Nat, picture.pixel? x y = none ↔ ¬ (x < r.width ∧ y < r.height)) ∧
    (∀ (x y : Nat) (rgb : UInt32), picture.pixel? x y = some rgb ↔
      (x < r.width ∧ y < r.height) ∧ Shown shapes (x, y) rgb) ∧
    (∀ (r' : Resolution) (x y : Nat), x < r.width ∧ y < r.height → x < r'.width ∧ y < r'.height →
      picture.pixel? x y = ((Renderer.reset s r').drawEach packets).pixel? x y) ∧
    ∀ (a b c : Vertex) (p : ℤ × ℤ), (Shape.triangle a b c).Covers p → ∀ ka kb kc : UInt8,
      let pa := place a.point
      let pb := place b.point
      let pc := place c.point
      let channel := ((Weights.at pa pb pc p).mix (edge pa pb pc) ka kb kc).toNat
      (channel : ℤ) = ((ka.toNat : ℤ) * edge pb pc p + (kb.toNat : ℤ) * edge pc pa p +
        (kc.toNat : ℤ) * edge pa pb p).tdiv (edge pa pb pc) ∧
      min ka.toNat (min kb.toNat kc.toNat) ≤ channel ∧
      channel ≤ max ka.toNat (max kb.toNat kc.toNat) := by
  intro picture shapes
  have hpixel (r' : Resolution) (x y : Nat) : ((Renderer.reset s r').drawEach packets).pixel? x y =
      if x < r'.width ∧ y < r'.height then some ((front shapes (x, y)).getD 0) else none := by
    rw [(overlaid_drawEach _ packets).pixel?]
    change Option.map _ ((black r').pixel? x y) = _
    rw [pixel?_black]
    split <;> rfl
  refine ⟨fun x y => ?_, fun x y rgb => ?_, fun r' x y h h' => ?_,
    fun a b c p hcovers ka kb kc => ?_⟩
  · rw [hpixel r x y]
    split <;> simp_all
  · rw [hpixel r x y, shown_iff]
    split <;> simp_all
  · rw [hpixel r x y, hpixel r' x y, if_pos h, if_pos h']
  · obtain ⟨harea, hinside⟩ := (Shape.covers_triangle_iff a b c p).1 hcovers
    intro pa pb pc channel
    have hchannel : (channel : ℤ) = _ := toNat_mix harea hinside ka kb kc
    obtain ⟨hlow, hhigh⟩ := floor_mean_byte hinside ka kb kc
    rw [← hchannel] at hlow hhigh
    refine ⟨hchannel.trans (tdiv_eq_floor_mean harea hinside ka kb kc).symm, ?_, ?_⟩
    · exact_mod_cast hlow
    · exact_mod_cast hhigh

/-- A quad that is red, green and blue at the corners of its first triangle, and a place in it. -/
theorem pixel?_drawEach_quad :
    let quad : Packet := ⟨0x38, #[0x380000FF, 0x00000000, 0x0000FF00, 0x00000004, 0x00FF0000,
      0x00040000, 0x00000000, 0x00040004]⟩
    ((Renderer.reset initial ⟨8, 8⟩).drawEach [quad]).pixel? 1 1 = some 0x7F3F3F := by
  intro quad
  let a : Vertex := ⟨⟨0xFF, 0, 0, 0x38⟩, ⟨0, 0⟩⟩
  let b : Vertex := ⟨⟨0, 0xFF, 0, 0⟩, ⟨4, 0⟩⟩
  let c : Vertex := ⟨⟨0, 0, 0xFF, 0⟩, ⟨0, 4⟩⟩
  let d : Vertex := ⟨⟨0, 0, 0, 0⟩, ⟨4, 4⟩⟩
  have hshapes : [quad].flatMap Packet.shapes = [.triangle a b c, .triangle b c d] := by decide
  have hseen : (Shape.triangle a b c).layer (1, 1) = some 0x7F3F3F := by decide
  have hclear : (Shape.triangle b c d).layer (1, 1) = none := by decide
  obtain ⟨hcovers, hcolor⟩ := (Shape.layer_eq_some_iff _ _ _).1 hseen
  obtain ⟨-, hpixel, -⟩ := pixel?_drawEach initial ⟨8, 8⟩ [quad]
  refine (hpixel 1 1 0x7F3F3F).2 ⟨by decide, .inl ⟨[], _, _, hshapes, hcovers, hcolor, ?_⟩⟩
  simpa [Shape.layer_eq_none_iff] using hclear

end Raster

end GameConsole
