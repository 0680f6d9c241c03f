import GameConsole.Gpu.Raster
import GameConsole.Proofs.Checked.Basic
import GameConsole.Proofs.Raster.Layer

/-! Drawing with checked numbers. The corners of a shape have 16 bits and so do the places that it
covers, which bounds every area, weight and color sum; a pixel that is set is one of the picture. -/

namespace GameConsole.Raster

open Checked

/-! ### Checked drawing -/

/-- Sets a pixel, if its index fits its type and is one of the framebuffer. -/
def put? (s : Raster) (x y : Int) (rgb : UInt32) : Option Raster := do
  let x ← i32 x
  let y ← i32 y
  if x < 0 ∨ y < 0 then return s
  if x < s.resolution.width ∧ y < s.resolution.height then
    let row ← u32 (y * s.resolution.width)
    let i ← u32 (row + x)
    if h : i.toNat < s.pixels.size then return { s with pixels := s.pixels.set i.toNat rgb h }
    else none
  else return s

/-- The value of a pixel of the picture, if its index fits its type and is one of the
framebuffer. -/
def look? (s : Raster) (x y : Nat) : Option (Option UInt32) := do
  if s.resolution.width ≤ x ∨ s.resolution.height ≤ y then return none
  let row ← u32 (y * s.resolution.width)
  let i ← u32 (row + x)
  return some (← s.pixels[i.toNat]?)

def forRectangle? (s : Raster) (x y : Int) (width height : Nat)
    (f : Raster → Int → Int → Option Raster) : Option Raster :=
  steps? (fun j s => do
    let y ← i32 (y + j)
    steps? (fun i s => do
      let x ← i32 (x + i)
      f s x y) width s) height s

def fillSquare? (s : Raster) (origin : Point) (size : Nat) (rgb : UInt32) : Option Raster := do
  let _ ← i32 (origin.x.toInt + size)
  let _ ← i32 (origin.y.toInt + size)
  s.forRectangle? origin.x.toInt origin.y.toInt size size fun s x y => s.put? x y rgb

def edge? (a b c : Int × Int) : Option Int := do
  let p ← i64 ((← i64 (b.1 - a.1)) * (← i64 (c.2 - a.2)))
  let q ← i64 ((← i64 (b.2 - a.2)) * (← i64 (c.1 - a.1)))
  i64 (p - q)

def Weights.at? (a b c p : Int × Int) : Option Weights := do
  return ⟨← edge? b c p, ← edge? c a p, ← edge? a b p⟩

def Weights.mix? (w : Weights) (area : Int) (a b c : UInt8) : Option UInt32 := do
  let p ← i64 (a.toNat * w.a)
  let q ← i64 (b.toNat * w.b)
  let r ← i64 (c.toNat * w.c)
  let sum ← i64 ((← i64 (p + q)) + r)
  let mean ← div? sum area
  return .ofNat (min 255 (max 0 mean)).toNat

def Weights.shade? (w : Weights) (area : Int) (a b c : Color) : Option UInt32 := do
  let red ← shiftLeft? (← w.mix? area a.r b.r c.r) 16
  let green ← shiftLeft? (← w.mix? area a.g b.g c.g) 8
  return red ||| green ||| (← w.mix? area a.b b.b c.b)

def span? (a b c : Int) (size : Nat) : Option (Int × Nat) := do
  let last ← i64 (size - 1)
  let low := max (min a (min b c)) 0
  let high := min (max a (max b c)) last
  return (low, (high + 1 - low).toNat)

def fillTriangle? (s : Raster) (a b c : Vertex) : Option Raster := do
  let pa := place a.point
  let pb := place b.point
  let pc := place c.point
  let area ← edge? pa pb pc
  if area = 0 then return s
  let (x, width) ← span? pa.1 pb.1 pc.1 s.resolution.width
  let (y, height) ← span? pa.2 pb.2 pc.2 s.resolution.height
  s.forRectangle? x y width height fun s x y => do
    let w ← Weights.at? pa pb pc (x, y)
    if w.inside area then s.put? x y (← w.shade? area a.color b.color c.color) else return s

def drawPrimitive? (s : Raster) : Primitive → Option Raster
  | .quad a b c d => do (← s.fillTriangle? a b c).fillTriangle? b c d
  | .sprite size _ origin => s.fillSquare? origin size spriteColor
  | .operation _ => return s

def draw? (s : Raster) (p : Packet) : Option (Except Fault Unit × Raster) :=
  match Primitive.decode p.opcode p.words with
  | .error e => return (.error e, s)
  | .ok primitive => return (.ok (), ← s.drawPrimitive? primitive)

/-- The framebuffer has a pixel for each place of the picture, and their number fits its type. -/
structure Sound (s : Raster) : Prop where
  width_le : s.resolution.width ≤ 0xFFFF
  height_le : s.resolution.height ≤ 0xFFFF
  size_pixels : s.pixels.size = s.resolution.width * s.resolution.height

/-! ### Pixels -/

theorem index_lt {w h x y : Nat} (hx : x < w) (hy : y < h) : y * w + x < w * h := by
  calc y * w + x < y * w + w := Nat.add_lt_add_left hx _
    _ = w * (y + 1) := by rw [Nat.mul_comm w, Nat.succ_mul]
    _ ≤ w * h := Nat.mul_le_mul_left w hy

/-- The index of a place fits its type where the number of places does. -/
theorem u32_index {w h x y : Nat} (hx : x < w) (hy : y < h) (hsize : w * h ≤ 0x100000000) :
    u32 (y * w) = some ↑(y * w) ∧ u32 (↑(y * w) + x) = some ↑(y * w + x) := by
  have hindex := index_lt hx hy
  constructor
  · rw [← Int.natCast_mul, u32_eq (by omega)]
  · rw [← Int.natCast_add, u32_eq (by omega)]

theorem Sound.index {s : Raster} (hs : s.Sound) {x y : Nat} (hx : x < s.resolution.width)
    (hy : y < s.resolution.height) : u32 (y * s.resolution.width) = some ↑(y * s.resolution.width) ∧
      u32 (↑(y * s.resolution.width) + x) = some ↑(y * s.resolution.width + x) ∧
      y * s.resolution.width + x < s.pixels.size := by
  have hsize : s.resolution.width * s.resolution.height ≤ 0xFFFF * 0xFFFF :=
    Nat.mul_le_mul hs.width_le hs.height_le
  obtain ⟨hrow, hindex⟩ := u32_index hx hy (by omega)
  exact ⟨hrow, hindex, by rw [hs.size_pixels]; exact index_lt hx hy⟩

theorem look?_eq_of_size {s : Raster}
    (hpixels : s.pixels.size = s.resolution.width * s.resolution.height)
    (hsize : s.resolution.width * s.resolution.height ≤ 0x100000000) (x y : Nat) :
    s.look? x y = some (s.pixel? x y) := by
  by_cases hin : x < s.resolution.width ∧ y < s.resolution.height
  · obtain ⟨hrow, hindex⟩ := u32_index hin.1 hin.2 hsize
    have hlt := index_lt hin.1 hin.2
    rw [← hpixels] at hlt
    have hout : ¬ (s.resolution.width ≤ x ∨ s.resolution.height ≤ y) := by omega
    simp only [look?, if_neg hout, hrow, hindex, Option.bind_eq_bind, Option.bind_some,
      Int.toNat_natCast, pixel?, if_pos hin, Array.getElem?_eq_getElem hlt]
    rfl
  · have hout : s.resolution.width ≤ x ∨ s.resolution.height ≤ y := by omega
    simp only [look?, if_pos hout, pixel?, if_neg hin]
    rfl

theorem look?_eq {s : Raster} (hs : s.Sound) (x y : Nat) : s.look? x y = some (s.pixel? x y) := by
  have hsize : s.resolution.width * s.resolution.height ≤ 0xFFFF * 0xFFFF :=
    Nat.mul_le_mul hs.width_le hs.height_le
  exact look?_eq_of_size hs.size_pixels (by omega) x y

/-- A coordinate of a shape or beside one. -/
def Near (x : Int) : Prop := -0x10000 ≤ x ∧ x ≤ 0x10000

theorem near_of_abs_le {x : Int} (h : |x| ≤ 0x8000) : Near x := by
  rw [abs_le] at h
  exact ⟨by omega, by omega⟩

theorem Near.i32_eq {x : Int} (h : Near x) : i32 x = some x :=
  Checked.i32_eq ⟨by have := h.1; omega, by have := h.2; omega⟩

theorem safe_put {s : Raster} (hs : s.Sound) {x y : Int} (hx : Near x) (hy : Near y)
    (rgb : UInt32) : Safe (s.put? x y rgb) (s.put x y rgb) Sound := by
  rw [put_eq]
  by_cases hin : 0 ≤ x ∧ x < s.resolution.width ∧ 0 ≤ y ∧ y < s.resolution.height
  · obtain ⟨hx0, hxw, hy0, hyh⟩ := hin
    rw [if_pos ⟨hx0, hxw, hy0, hyh⟩]
    lift x to ℕ using hx0
    lift y to ℕ using hy0
    obtain ⟨hrow, hindex, hsize⟩ := hs.index (by omega : x < _) (by omega : y < _)
    have hout : ¬ ((x : Int) < 0 ∨ (y : Int) < 0) := by omega
    constructor
    · simp only [put?, hx.i32_eq, hy.i32_eq, hrow, hindex, Option.bind_eq_bind, Option.bind_some,
        if_neg hout, if_pos (And.intro hxw hyh), Int.toNat_natCast, dif_pos hsize,
        Array.setIfInBounds]
      rfl
    · exact ⟨hs.width_le, hs.height_le, by simpa using hs.size_pixels⟩
  · rw [if_neg hin]
    refine ⟨?_, hs⟩
    simp only [put?, hx.i32_eq, hy.i32_eq, Option.bind_eq_bind, Option.bind_some]
    by_cases hneg : x < 0 ∨ y < 0
    · rw [if_pos hneg]
      rfl
    · have hfar : ¬ (x < s.resolution.width ∧ y < s.resolution.height) := by omega
      simp only [if_neg hneg, if_neg hfar]
      rfl

theorem safe_forRectangle {f? : Raster → Int → Int → Option Raster}
    {f : Raster → Int → Int → Raster} {x y : Int} {width height : Nat}
    (hx : ∀ i < width, Near (x + i)) (hy : ∀ j < height, Near (y + j))
    (h : ∀ i < width, ∀ j < height, ∀ s, Sound s →
      Safe (f? s (x + i) (y + j)) (f s (x + i) (y + j)) Sound)
    {s : Raster} (hs : s.Sound) :
    Safe (s.forRectangle? x y width height f?) (s.forRectangle x y width height f) Sound := by
  refine safe_steps? (fun j hj s hs => ?_) hs
  simp only [(hy j hj).i32_eq, Option.bind_eq_bind, Option.bind_some]
  refine safe_steps? (fun i hi s hs => ?_) hs
  simp only [(hx i hi).i32_eq, Option.bind_some]
  exact h i hi j hj s hs

theorem abs_toInt_le (x : Int16) : |x.toInt| ≤ 0x8000 := by
  have hlow := x.le_toInt
  have hhigh := x.toInt_lt
  rw [abs_le]
  omega

theorem safe_fillSquare {s : Raster} (hs : s.Sound) (origin : Point) {size : Nat}
    (hsize : size ≤ 0x8000) (rgb : UInt32) :
    Safe (s.fillSquare? origin size rgb) (s.fillSquare origin size rgb) Sound := by
  have hnear (o : Int16) (i : Nat) (hi : i ≤ size) : Near (o.toInt + i) := by
    have ho := abs_le.1 (abs_toInt_le o)
    exact ⟨by omega, by omega⟩
  simp only [fillSquare?, (hnear _ size le_rfl).i32_eq, Option.bind_eq_bind, Option.bind_some]
  exact safe_forRectangle (fun i hi => hnear _ i hi.le) (fun j hj => hnear _ j hj.le)
    (fun i hi j hj s hs => safe_put hs (hnear _ i hi.le) (hnear _ j hj.le) rgb) hs

/-! ### Triangles -/

/-- A place whose coordinates have 16 bits. -/
def Close (p : Int × Int) : Prop := |p.1| ≤ 0x8000 ∧ |p.2| ≤ 0x8000

theorem close_place (p : Point) : Close (place p) := ⟨abs_toInt_le p.x, abs_toInt_le p.y⟩

section

variable {a b c p : Int × Int} (ha : Close a) (hb : Close b) (hc : Close c) (hp : Close p)

include ha hb hc

theorem abs_edge_le : |edge a b c| ≤ 0x200000000 :=
  abs_sub_le_add (abs_mul_le (abs_sub_le_add hb.1 ha.1) (abs_sub_le_add hc.2 ha.2))
    (abs_mul_le (abs_sub_le_add hb.2 ha.2) (abs_sub_le_add hc.1 ha.1))

theorem edge?_eq : edge? a b c = some (edge a b c) := by
  have hsub {x y : Int} (hx : |x| ≤ 0x8000) (hy : |y| ≤ 0x8000) : |x - y| ≤ 0x10000 :=
    abs_sub_le_add hx hy
  have hmul {x y : Int} (hx : |x| ≤ 0x10000) (hy : |y| ≤ 0x10000) : |x * y| ≤ 0x100000000 :=
    abs_mul_le hx hy
  have h₁ := hsub hb.1 ha.1
  have h₂ := hsub hc.2 ha.2
  have h₃ := hsub hb.2 ha.2
  have h₄ := hsub hc.1 ha.1
  simp only [edge?, i64_eq h₁ (by decide), i64_eq h₂ (by decide), i64_eq h₃ (by decide),
    i64_eq h₄ (by decide), i64_eq (hmul h₁ h₂) (by decide), i64_eq (hmul h₃ h₄) (by decide),
    Option.bind_eq_bind, Option.bind_some]
  exact i64_eq (abs_edge_le ha hb hc) (by decide)

include hp

theorem at?_eq : Weights.at? a b c p = some (Weights.at a b c p) := by
  simp only [Weights.at?, edge?_eq hb hc hp, edge?_eq hc ha hp, edge?_eq ha hb hp,
    Option.bind_eq_bind, Option.bind_some]
  rfl

end

/-- The weights at a place with coordinates of 16 bits are as small as its areas. -/
def Weights.Small (w : Weights) : Prop :=
  |w.a| ≤ 0x200000000 ∧ |w.b| ≤ 0x200000000 ∧ |w.c| ≤ 0x200000000

theorem small_at {a b c p : Int × Int} (ha : Close a) (hb : Close b) (hc : Close c)
    (hp : Close p) : (Weights.at a b c p).Small :=
  ⟨abs_edge_le hb hc hp, abs_edge_le hc ha hp, abs_edge_le ha hb hp⟩

theorem mix_lt (w : Weights) (area : Int) (a b c : UInt8) : (w.mix area a b c).toNat < 0x100 := by
  rw [Weights.mix, UInt32.toNat_ofNat']
  omega

/-- Channels of a byte each have no common bits in a pixel. -/
theorem or_eq_add {r g b : UInt32} (hr : r.toNat < 0x100) (hg : g.toNat < 0x100)
    (hb : b.toNat < 0x100) :
    r <<< UInt32.ofNat 16 ||| g <<< UInt32.ofNat 8 ||| b = r * 0x10000 + g * 0x100 + b := by
  have hgreen := Nat.shiftLeft_add_eq_or_of_lt (show g.toNat <<< 8 < 2 ^ 16 by omega) r.toNat
  have hblue := Nat.shiftLeft_add_eq_or_of_lt (show b.toNat < 2 ^ 8 by omega)
    (r.toNat * 0x100 + g.toNat)
  have hrow : r.toNat <<< 16 + g.toNat <<< 8 = (r.toNat * 0x100 + g.toNat) <<< 8 := by omega
  apply UInt32.toNat_inj.1
  simp only [UInt32.toNat_or, UInt32.toNat_shiftLeft, UInt32.toNat_add, UInt32.toNat_mul,
    UInt32.reduceToNat, UInt32.toNat_ofNat', Nat.reducePow, Nat.reduceMod]
  rw [Nat.mod_eq_of_lt (by omega : r.toNat <<< 16 < 4294967296),
    Nat.mod_eq_of_lt (by omega : g.toNat <<< 8 < 4294967296), ← hgreen, hrow, ← hblue]
  omega

section

variable {w : Weights} (hw : w.Small) {area : Int} (harea : area ≠ 0)

include hw harea

theorem mix?_eq (a b c : UInt8) : w.mix? area a b c = some (w.mix area a b c) := by
  have hterm (channel : UInt8) {weight : Int} (h : |weight| ≤ 0x200000000) :
      |(channel.toNat : Int) * weight| ≤ 0x20000000000 := by
    have hchannel : |(channel.toNat : Int)| ≤ 0x100 := by
      have := channel.toNat_lt
      rw [abs_le]
      omega
    exact abs_mul_le hchannel h
  have hp := hterm a hw.1
  have hq := hterm b hw.2.1
  have hr := hterm c hw.2.2
  have hpq : |(a.toNat : Int) * w.a + b.toNat * w.b| ≤ 0x40000000000 := abs_add_le_add hp hq
  have hsum : |(a.toNat : Int) * w.a + b.toNat * w.b + c.toNat * w.c| ≤ 0x60000000000 :=
    abs_add_le_add hpq hr
  simp only [Weights.mix?, i64_eq hp (by decide), i64_eq hq (by decide), i64_eq hr (by decide),
    i64_eq hpq (by decide), i64_eq hsum (by decide), div?_eq harea hsum (by decide),
    Option.bind_eq_bind, Option.bind_some]
  rfl

theorem shade?_eq (a b c : Color) : w.shade? area a b c = some (w.shade area a b c) := by
  have hshift (x : UInt32) {n : Nat} (hn : n < 32) : shiftLeft? x n = some (x <<< .ofNat n) :=
    if_pos hn
  simp only [Weights.shade?, mix?_eq hw harea, hshift _ (by decide : 16 < 32),
    hshift _ (by decide : 8 < 32), Option.bind_eq_bind, Option.bind_some,
    or_eq_add (mix_lt ..) (mix_lt ..) (mix_lt ..)]
  rfl

end

/-! ### Shapes -/

theorem span?_eq (a b c : Int) {size : Nat} (hsize : size ≤ 0xFFFF) :
    span? a b c size = some (span a b c size) := by
  have hlast : |(size : Int) - 1| ≤ 0x10000 := by
    rw [abs_le]
    omega
  simp only [span?, i64_eq hlast (by decide), Option.bind_eq_bind, Option.bind_some]
  rfl

/-- The span of three coordinates of 16 bits has only such coordinates. -/
theorem span_le {a b c : Int} (ha : |a| ≤ 0x8000) (hb : |b| ≤ 0x8000) (hc : |c| ≤ 0x8000)
    {size i : Nat} (hi : i < (span a b c size).2) : |(span a b c size).1 + i| ≤ 0x8000 := by
  simp only [span] at hi ⊢
  rw [abs_le] at ha hb hc ⊢
  omega

theorem safe_plot {s : Raster} (hs : s.Sound) {a b c : Vertex}
    (harea : edge (place a.point) (place b.point) (place c.point) ≠ 0) {x y : Int}
    (hp : Close (x, y)) :
    Safe (do
        let w ← Weights.at? (place a.point) (place b.point) (place c.point) (x, y)
        if w.inside (edge (place a.point) (place b.point) (place c.point)) then
          s.put? x y (← w.shade? (edge (place a.point) (place b.point) (place c.point))
            a.color b.color c.color)
        else return s)
      (let w := Weights.at (place a.point) (place b.point) (place c.point) (x, y)
        if w.inside (edge (place a.point) (place b.point) (place c.point)) then
          s.put x y (w.shade (edge (place a.point) (place b.point) (place c.point))
            a.color b.color c.color)
        else s) Sound := by
  have ha := close_place a.point
  have hb := close_place b.point
  have hc := close_place c.point
  simp only [at?_eq ha hb hc hp, shade?_eq (small_at ha hb hc hp) harea, Option.bind_eq_bind,
    Option.bind_some]
  split_ifs
  · exact safe_put hs (near_of_abs_le hp.1) (near_of_abs_le hp.2) _
  · exact .some hs

theorem safe_fillTriangle {s : Raster} (hs : s.Sound) (a b c : Vertex) :
    Safe (s.fillTriangle? a b c) (s.fillTriangle a b c) Sound := by
  have ha := close_place a.point
  have hb := close_place b.point
  have hc := close_place c.point
  rw [fillTriangle?, fillTriangle]
  simp only [edge?_eq ha hb hc, span?_eq _ _ _ hs.width_le, span?_eq _ _ _ hs.height_le,
    Option.bind_eq_bind, Option.bind_some]
  by_cases harea : edge (place a.point) (place b.point) (place c.point) = 0
  · rw [if_pos harea, if_pos harea]
    exact .some hs
  rw [if_neg harea, if_neg harea]
  have hx {i : Nat} := @span_le _ _ _ ha.1 hb.1 hc.1 s.resolution.width i
  have hy {j : Nat} := @span_le _ _ _ ha.2 hb.2 hc.2 s.resolution.height j
  exact safe_forRectangle (fun i hi => near_of_abs_le (hx hi)) (fun j hj => near_of_abs_le (hy hj))
    (fun i hi j hj s hs => safe_plot hs harea ⟨hx hi, hy hj⟩) hs

/-- A sprite of a command is small. -/
theorem size_le_of_decode {opcode : UInt8} {words : Array UInt32} {size : Nat} {color : Color}
    {origin : Point} (h : Primitive.decode opcode words = .ok (.sprite size color origin)) :
    size ≤ 16 := by
  simp only [Primitive.decode] at h
  split_ifs at h <;> cases h <;> decide

theorem safe_draw {s : Raster} (hs : s.Sound) (p : Packet) :
    Safe (s.draw? p) (Renderer.draw s p) fun answer => answer.2.Sound := by
  simp only [draw?, Renderer.draw]
  cases hdecode : Primitive.decode p.opcode p.words with
  | error e => exact .some hs
  | ok primitive =>
    have hprimitive : Safe (s.drawPrimitive? primitive) (s.drawPrimitive primitive) Sound := by
      cases primitive with
      | quad a b c d =>
        exact (safe_fillTriangle hs a b c).bind fun hs => safe_fillTriangle hs b c d
      | sprite size color origin =>
        have hsize := size_le_of_decode hdecode
        exact safe_fillSquare hs origin (by omega) spriteColor
      | operation opcode => exact .some hs
    exact hprimitive.bind fun hs => .some hs

theorem sound_black : (black .standard).Sound := by
  refine ⟨by decide, by decide, ?_⟩
  simp [black]

end GameConsole.Raster
