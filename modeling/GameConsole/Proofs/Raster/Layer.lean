import GameConsole.Gpu.Raster
import Mathlib.Algebra.Order.Group.Nat
import Mathlib.Tactic.Lift

/-! Drawing as laying colors over a picture. What a step of drawing does is a layer: a color for
some places of the plane, and none for the others. The steps of a loop make one layer together, and
what lies outside the picture does not matter. -/

namespace GameConsole.Raster

/-- The places that are drawn at, with their colors. -/
abbrev Layer := ℤ × ℤ → Option UInt32

namespace Layer

/-- The part of a layer that lies on some places. -/
def on (layer : Layer) (region : ℤ × ℤ → Prop) [DecidablePred region] : Layer := fun p =>
  if region p then layer p else none

/-- Two layers, the second one in front. -/
def under (back front : Layer) : Layer := fun p => (front p).or (back p)

/-- At a single place only the color there matters. -/
theorem on_place {layer : Layer} {p : ℤ × ℤ} {color : Option UInt32} (h : layer p = color) :
    layer.on (· = p) = Layer.on (fun _ => color) (· = p) := by
  funext q
  by_cases hq : q = p
  · subst hq
    simp [on, h]
  · simp [on, hq]

theorem on_under_on (layer : Layer) (region region' : ℤ × ℤ → Prop) [DecidablePred region]
    [DecidablePred region'] :
    (layer.on region).under (layer.on region') = layer.on fun p => region' p ∨ region p := by
  funext p
  by_cases h : region' p
  · cases hp : layer p <;> simp [under, on, h, hp]
  · simp [under, on, h]

end Layer

/-- The second picture is the first one with a layer in front. -/
structure Overlaid (s s' : Raster) (layer : Layer) : Prop where
  resolution : s'.resolution = s.resolution
  pixel? : ∀ x y : Nat, s'.pixel? x y = (s.pixel? x y).map ((layer (x, y)).getD ·)

namespace Overlaid

variable {s s' s'' : Raster} {layer layer' : Layer}

theorem refl (s : Raster) : Overlaid s s fun _ => none where
  resolution := rfl
  pixel? x y := by simp

theorem trans (h : Overlaid s s' layer) (h' : Overlaid s' s'' layer') :
    Overlaid s s'' (layer.under layer') where
  resolution := h'.resolution.trans h.resolution
  pixel? x y := by
    rw [h'.pixel?, h.pixel?, Option.map_map]
    congr 1
    funext old
    cases hfront : layer' (x, y) <;> simp [Layer.under, hfront]

/-- Only the part of a layer that lies in the picture matters. -/
theorem congr (h : Overlaid s s' layer)
    (hsame : ∀ x y : Nat, x < s.resolution.width → y < s.resolution.height →
      layer (x, y) = layer' (x, y)) : Overlaid s s' layer' where
  resolution := h.resolution
  pixel? x y := by
    rw [h.pixel?]
    by_cases hin : x < s.resolution.width ∧ y < s.resolution.height
    · rw [hsame x y hin.1 hin.2]
    · simp [Raster.pixel?, hin]

theorem of_region {region region' : ℤ × ℤ → Prop} [DecidablePred region] [DecidablePred region']
    (h : Overlaid s s' (layer.on region)) (hsame : ∀ p, region p ↔ region' p) :
    Overlaid s s' (layer.on region') := by
  refine h.congr fun x y _ _ => ?_
  simp only [Layer.on, hsame]

end Overlaid

theorem row_div {w x y : Nat} (hx : x < w) : (y * w + x) / w = y := by
  rw [Nat.mul_comm, Nat.mul_add_div (by omega), Nat.div_eq_of_lt hx, Nat.add_zero]

/-- The places of a picture have a pixel each. -/
theorem index_inj {w x y i j : Nat} (hx : x < w) (hi : i < w) :
    y * w + x = j * w + i ↔ x = i ∧ y = j := by
  constructor
  · intro h
    have hrow : y = j := by rw [← row_div (y := y) hx, h, row_div hi]
    subst hrow
    exact ⟨by omega, rfl⟩
  · rintro ⟨rfl, rfl⟩
    rfl

theorem getElem?_setIfInBounds_eq_map {α : Type} (xs : Array α) (i j : Nat) (a : α) :
    (xs.setIfInBounds i a)[j]? = xs[j]?.map fun old => if i = j then a else old := by
  rw [Array.getElem?_setIfInBounds]
  by_cases h : i = j
  · subst h
    by_cases hi : i < xs.size <;> simp [hi]
  · simp [h]

theorem put_eq (s : Raster) (x y : Int) (rgb : UInt32) : s.put x y rgb =
    if 0 ≤ x ∧ x < s.resolution.width ∧ 0 ≤ y ∧ y < s.resolution.height then
      { s with pixels := s.pixels.setIfInBounds (y.toNat * s.resolution.width + x.toNat) rgb }
    else s := by
  obtain ⟨resolution, pixels⟩ := s
  rfl

theorem overlaid_put (s : Raster) (x y : Int) (rgb : UInt32) :
    Overlaid s (s.put x y rgb) (Layer.on (fun _ => some rgb) (· = (x, y))) := by
  rw [put_eq]
  split
  · rename_i hin
    obtain ⟨hx, hxw, hy, hyh⟩ := hin
    lift x to ℕ using hx
    lift y to ℕ using hy
    refine ⟨rfl, fun i j => ?_⟩
    by_cases hij : i < s.resolution.width ∧ j < s.resolution.height
    · have hplace : y * s.resolution.width + x = j * s.resolution.width + i ↔ x = i ∧ y = j :=
        index_inj (by omega) hij.1
      have hlayer : ((i : ℤ), (j : ℤ)) = (↑x, ↑y) ↔ x = i ∧ y = j := by
        rw [Prod.mk.injEq]
        omega
      simp only [pixel?, if_pos hij, Int.toNat_natCast, getElem?_setIfInBounds_eq_map, hplace,
        Layer.on, hlayer]
      congr 1
      funext old
      split <;> rfl
    · simp [pixel?, hij]
  · rename_i hout
    refine (Overlaid.refl s).congr fun i j hi hj => ?_
    rw [Layer.on, if_neg]
    rintro ⟨⟩
    omega

/-- The steps of a loop, each of which lays its part of one layer over the picture. -/
theorem overlaid_fold {layer : Layer} {n : Nat} {f : Nat → Raster → Raster}
    {region : Nat → ℤ × ℤ → Prop} [∀ i, DecidablePred (region i)]
    (h : ∀ i s, Overlaid s (f i s) (layer.on (region i))) (s : Raster) :
    Overlaid s (n.fold (fun i _ s => f i s) s) (layer.on fun p => ∃ i < n, region i p) := by
  induction n with
  | zero =>
    refine (Overlaid.refl s).congr fun x y _ _ => ?_
    simp [Layer.on]
  | succ n ih =>
    rw [Nat.fold_succ]
    have hstep := ih.trans (h n _)
    rw [Layer.on_under_on] at hstep
    refine hstep.of_region fun p => ?_
    rw [Nat.exists_lt_succ_right, or_comm]

/-- A loop over a rectangle draws what its steps draw at their own places. -/
theorem overlaid_forRectangle {layer : Layer} {f : Raster → Int → Int → Raster}
    (h : ∀ s x y, Overlaid s (f s x y) (layer.on (· = (x, y)))) (s : Raster) (x y : Int)
    (width height : Nat) : Overlaid s (s.forRectangle x y width height f)
      (layer.on fun p => (x ≤ p.1 ∧ p.1 < x + width) ∧ y ≤ p.2 ∧ p.2 < y + height) := by
  have hrow (j : Nat) (s : Raster) := overlaid_fold (n := width) (fun i s => h s (x + i) (y + j)) s
  refine (overlaid_fold hrow s).of_region fun p => ?_
  constructor
  · rintro ⟨j, hj, i, hi, rfl⟩
    omega
  · rintro ⟨⟨hx, hxw⟩, hy, hyh⟩
    refine ⟨(p.2 - y).toNat, by omega, (p.1 - x).toNat, by omega, ?_⟩
    ext <;> simp <;> omega

end GameConsole.Raster
