import GameConsole.Proofs.Raster.Barycentric
import GameConsole.Proofs.Raster.Layer

/-! The shapes that are drawn. A triangle covers the part of the grid that lies in the convex hull
of its corners, and its colors are the floors of the exact means. The signed areas that decide this
in whole numbers agree with it for either sense of rotation, because the area and the weights change
their signs together. -/

namespace GameConsole.Raster

open Barycentric

/-! ### Triangles in whole numbers -/

section Triangle

variable {a b c p : ℤ × ℤ}

theorem Weights.inside_eq_true_iff (w : Weights) (area : ℤ) : w.inside area = true ↔
    if 0 < area then 0 ≤ w.a ∧ 0 ≤ w.b ∧ 0 ≤ w.c else w.a ≤ 0 ∧ w.b ≤ 0 ∧ w.c ≤ 0 := by
  unfold inside
  split <;> simp [and_assoc]

theorem inside_iff_nonneg (h : edge a b c ≠ 0) :
    (Weights.at a b c p).inside (edge a b c) = true ↔ (ofEdge h p).Nonneg := by
  have hweight (n : ℤ) : 0 ≤ (n : ℚ) / edge a b c ↔
      if 0 < edge a b c then 0 ≤ n else n ≤ 0 := by
    rw [div_nonneg_iff]
    norm_cast
    split <;> omega
  simp only [Nonneg, ofEdge, hweight, Weights.inside_eq_true_iff, Weights.at]
  split <;> rfl

/-- Division toward zero is the floor, where the quotient is not negative. -/
theorem tdiv_eq_floor {n d : ℤ} (h : 0 ≤ (n : ℚ) / d) : n.tdiv d = ⌊(n : ℚ) / d⌋ := by
  have hnonneg {m e : ℤ} (hm : 0 ≤ m) (he : 0 ≤ e) : m.tdiv e = ⌊(m : ℚ) / e⌋ := by
    lift e to ℕ using he
    rw [Int.tdiv_eq_ediv_of_nonneg hm, Int.cast_natCast, Rat.floor_intCast_div_natCast]
  rw [div_nonneg_iff] at h
  norm_cast at h
  rcases h with ⟨hn, hd⟩ | ⟨hn, hd⟩
  · exact hnonneg hn hd
  · simpa using hnonneg (neg_nonneg.2 hn) (neg_nonneg.2 hd)

/-- The quotient that a channel comes from is the floor of the exact mean, and lies between the
values at the corners. -/
theorem tdiv_eq_floor_mean (h : edge a b c ≠ 0) (hinside : (ofEdge h p).Nonneg) (x y z : UInt8) :
    ((x.toNat : ℤ) * edge b c p + (y.toNat : ℤ) * edge c a p + (z.toNat : ℤ) * edge a b p).tdiv
      (edge a b c) = ⌊(ofEdge h p).mean x.toNat y.toNat z.toNat⌋ := by
  have hmean : (ofEdge h p).mean x.toNat y.toNat z.toNat = (((x.toNat : ℤ) * edge b c p +
      (y.toNat : ℤ) * edge c a p + (z.toNat : ℤ) * edge a b p : ℤ) : ℚ) / edge a b c := by
    simp only [mean, ofEdge]
    push_cast
    ring
  rw [hmean]
  apply tdiv_eq_floor
  rw [← hmean]
  exact le_mean hinside (Nat.cast_nonneg _) (Nat.cast_nonneg _) (Nat.cast_nonneg _)

theorem floor_mean_byte {k : Barycentric a b c p} (h : k.Nonneg) (x y z : UInt8) :
    min (x.toNat : ℤ) (min (y.toNat : ℤ) z.toNat) ≤ ⌊k.mean x.toNat y.toNat z.toNat⌋ ∧
      ⌊k.mean x.toNat y.toNat z.toNat⌋ ≤ max (x.toNat : ℤ) (max (y.toNat : ℤ) z.toNat) := by
  exact_mod_cast k.floor_mean_mem h x.toNat y.toNat z.toNat

/-- The range of a byte cuts nothing off. -/
theorem toNat_mix (h : edge a b c ≠ 0) (hinside : (ofEdge h p).Nonneg) (x y z : UInt8) :
    (((Weights.at a b c p).mix (edge a b c) x y z).toNat : ℤ) =
      ⌊(ofEdge h p).mean x.toNat y.toNat z.toNat⌋ := by
  obtain ⟨hlow, hhigh⟩ := floor_mean_byte hinside x y z
  have hx := x.toNat_lt
  have hy := y.toNat_lt
  have hz := z.toNat_lt
  simp only [Weights.mix, Weights.at, tdiv_eq_floor_mean h hinside, UInt32.toNat_ofNat']
  omega

theorem mix_eq_iff (h : edge a b c ≠ 0) (hinside : (ofEdge h p).Nonneg) (x y z channel : UInt8) :
    (Weights.at a b c p).mix (edge a b c) x y z = channel.toUInt32 ↔
      (channel.toNat : ℤ) = ⌊(ofEdge h p).mean x.toNat y.toNat z.toNat⌋ := by
  rw [← toNat_mix h hinside, ← UInt32.toNat_inj, UInt8.toNat_toUInt32]
  omega

theorem exists_mix_eq (h : edge a b c ≠ 0) (hinside : (ofEdge h p).Nonneg) (x y z : UInt8) :
    ∃ channel : UInt8, (Weights.at a b c p).mix (edge a b c) x y z = channel.toUInt32 := by
  have hmix := toNat_mix h hinside x y z
  obtain ⟨hlow, hhigh⟩ := floor_mean_byte hinside x y z
  have hx := x.toNat_lt
  have hy := y.toNat_lt
  have hz := z.toNat_lt
  refine ⟨.ofNat ((Weights.at a b c p).mix (edge a b c) x y z).toNat, ?_⟩
  rw [← UInt32.toNat_inj, UInt8.toNat_toUInt32, UInt8.toNat_ofNat']
  omega

end Triangle

/-! ### Shapes -/

inductive Shape
  | triangle (a b c : Vertex)
  | square (size : Nat) (origin : Point)
deriving DecidableEq

namespace Shape

/-- The places of the grid that a shape covers. A triangle without area covers none. -/
def Covers : Shape → ℤ × ℤ → Prop
  | triangle a b c, p =>
    let hull := corners (place a.point) (place b.point) (place c.point)
    ¬ Collinear ℚ hull ∧ rat p ∈ convexHull ℚ hull
  | square size origin, p =>
    (origin.x.toInt ≤ p.1 ∧ p.1 < origin.x.toInt + size) ∧
      origin.y.toInt ≤ p.2 ∧ p.2 < origin.y.toInt + size

/-- The color of a shape at a place. In a triangle each channel is the floor of the exact mean of
its values at the corners, with the weights that put the place together. -/
def HasColor : Shape → ℤ × ℤ → UInt32 → Prop
  | triangle a b c, p, rgb =>
    ∃ (k : Barycentric (place a.point) (place b.point) (place c.point) p) (color : Color),
      rgb = color.rgb ∧
      (color.r.toNat : ℤ) = ⌊k.mean a.color.r.toNat b.color.r.toNat c.color.r.toNat⌋ ∧
      (color.g.toNat : ℤ) = ⌊k.mean a.color.g.toNat b.color.g.toNat c.color.g.toNat⌋ ∧
      (color.b.toNat : ℤ) = ⌊k.mean a.color.b.toNat b.color.b.toNat c.color.b.toNat⌋
  | square _ _, _, rgb => rgb = 0x7F7F7F

/-- What drawing a shape lays over a picture. -/
def layer : Shape → Layer
  | triangle a b c => fun p =>
    let pa := place a.point
    let pb := place b.point
    let pc := place c.point
    let area := edge pa pb pc
    let w := Weights.at pa pb pc p
    if area ≠ 0 ∧ w.inside area then some (w.shade area a.color b.color c.color) else none
  | square size origin =>
    Layer.on (fun _ => some spriteColor) fun p =>
      (origin.x.toInt ≤ p.1 ∧ p.1 < origin.x.toInt + size) ∧
        origin.y.toInt ≤ p.2 ∧ p.2 < origin.y.toInt + size

theorem covers_triangle_iff (a b c : Vertex) (p : ℤ × ℤ) : (triangle a b c).Covers p ↔
    ∃ h : edge (place a.point) (place b.point) (place c.point) ≠ 0, (ofEdge h p).Nonneg := by
  simp only [Covers, collinear_corners_iff, mem_convexHull_corners_iff]
  constructor
  · rintro ⟨h, k, hk⟩
    rw [k.eq_ofEdge h] at hk
    exact ⟨h, hk⟩
  · rintro ⟨h, hk⟩
    exact ⟨h, _, hk⟩

theorem hasColor_triangle_iff {a b c : Vertex} {p : ℤ × ℤ}
    (h : edge (place a.point) (place b.point) (place c.point) ≠ 0) (hinside : (ofEdge h p).Nonneg)
    (rgb : UInt32) : (triangle a b c).HasColor p rgb ↔
      rgb = (Weights.at (place a.point) (place b.point) (place c.point) p).shade
        (edge (place a.point) (place b.point) (place c.point)) a.color b.color c.color := by
  simp only [HasColor]
  constructor
  · rintro ⟨k, color, rfl, hr, hg, hb⟩
    rw [k.eq_ofEdge h, ← mix_eq_iff h hinside] at hr hg hb
    rw [Weights.shade, hr, hg, hb, Color.rgb]
  · rintro rfl
    obtain ⟨red, hr⟩ := exists_mix_eq h hinside a.color.r b.color.r c.color.r
    obtain ⟨green, hg⟩ := exists_mix_eq h hinside a.color.g b.color.g c.color.g
    obtain ⟨blue, hb⟩ := exists_mix_eq h hinside a.color.b b.color.b c.color.b
    refine ⟨ofEdge h p, ⟨red, green, blue, 0⟩, ?_, ?_, ?_, ?_⟩
    · rw [Weights.shade, hr, hg, hb, Color.rgb]
    · exact (mix_eq_iff h hinside _ _ _ _).1 hr
    · exact (mix_eq_iff h hinside _ _ _ _).1 hg
    · exact (mix_eq_iff h hinside _ _ _ _).1 hb

theorem layer_eq_none_iff (s : Shape) (p : ℤ × ℤ) : s.layer p = none ↔ ¬ s.Covers p := by
  cases s with
  | triangle a b c =>
    rw [covers_triangle_iff]
    simp only [layer]
    split
    · rename_i h
      simp [h.1, (inside_iff_nonneg h.1).1 h.2]
    · rename_i h
      simp only [true_iff]
      rintro ⟨harea, hinside⟩
      exact h ⟨harea, (inside_iff_nonneg harea).2 hinside⟩
  | square size origin => simp [layer, Layer.on, Covers]

theorem layer_eq_some_iff (s : Shape) (p : ℤ × ℤ) (rgb : UInt32) :
    s.layer p = some rgb ↔ s.Covers p ∧ s.HasColor p rgb := by
  cases s with
  | triangle a b c =>
    rw [covers_triangle_iff]
    simp only [layer]
    split
    · rename_i h
      have hinside := (inside_iff_nonneg h.1).1 h.2
      simp [h.1, hinside, hasColor_triangle_iff h.1 hinside, eq_comm]
    · rename_i h
      simp only [reduceCtorEq, false_iff]
      rintro ⟨⟨harea, hinside⟩, -⟩
      exact h ⟨harea, (inside_iff_nonneg harea).2 hinside⟩
  | square size origin => simp [layer, Layer.on, Covers, HasColor, spriteColor, eq_comm]

end Shape

end GameConsole.Raster
