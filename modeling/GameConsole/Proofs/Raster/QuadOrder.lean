import GameConsole.Proofs.Gpu.DrawingCommand
import GameConsole.Proofs.Raster.Picture
import Mathlib.Analysis.Convex.Side

/-! The order in which the corners of a quad are given. A triangle is the same shape whichever of
its corners comes first, and the two triangles of a quad have the same colors along the edge that
they share. Where the other two corners are not on the same side of that edge the triangles have no
other place in common, so that it does not matter which one is drawn last. -/

namespace GameConsole.Raster

/-! ### The corners of a triangle -/

namespace Barycentric

variable {a b c p : ℤ × ℤ}

/-- The weights for the corners with the last two exchanged. -/
def swap (k : Barycentric a b c p) : Barycentric a c b p where
  u := k.u
  v := k.w
  w := k.v
  total := (add_right_comm _ _ _).trans k.total
  place := (add_right_comm _ _ _).trans k.place

/-- The weights for the corners with the first one last. -/
def rotate (k : Barycentric a b c p) : Barycentric b c a p where
  u := k.v
  v := k.w
  w := k.u
  total := (add_rotate _ _ _).symm.trans k.total
  place := (add_rotate _ _ _).symm.trans k.place

/-- A place on the line through two corners has the same weights with any third corner. -/
def across (k : Barycentric a b c p) (h : k.u = 0) (d : ℤ × ℤ) : Barycentric b c d p where
  u := k.v
  v := k.w
  w := 0
  total := by
    have htotal := k.total
    rwa [h, zero_add, ← add_zero (k.v + k.w)] at htotal
  place := by
    have hplace := k.place
    rwa [h, zero_smul, zero_add, ← add_zero (k.v • rat b + k.w • rat c), ← zero_smul ℚ (rat d)]
      at hplace

variable (k : Barycentric a b c p) (x y z : ℚ)

theorem mean_swap : k.swap.mean x z y = k.mean x y z := add_right_comm _ _ _

theorem mean_rotate : k.rotate.mean y z x = k.mean x y z := by
  simp only [mean, rotate]
  ring

theorem mean_across (h : k.u = 0) (d : ℤ × ℤ) (t : ℚ) :
    (k.across h d).mean y z t = k.mean x y z := by
  simp only [mean, across, h]
  ring

end Barycentric

namespace Shape

variable (a b c d : Vertex) {p : ℤ × ℤ} {rgb : UInt32}

theorem layer_ext {s t : Shape} (hcovers : ∀ p, s.Covers p ↔ t.Covers p)
    (hcolor : ∀ p rgb, s.HasColor p rgb ↔ t.HasColor p rgb) : s.layer = t.layer := by
  funext p
  apply Option.ext
  intro rgb
  rw [layer_eq_some_iff, layer_eq_some_iff, hcovers, hcolor]

variable {a b c d}

theorem HasColor.swap (h : (triangle a b c).HasColor p rgb) : (triangle a c b).HasColor p rgb := by
  obtain ⟨k, color, hrgb, hr, hg, hb⟩ := h
  exact ⟨k.swap, color, hrgb, by rwa [k.mean_swap], by rwa [k.mean_swap], by rwa [k.mean_swap]⟩

theorem HasColor.rotate (h : (triangle a b c).HasColor p rgb) :
    (triangle b c a).HasColor p rgb := by
  obtain ⟨k, color, hrgb, hr, hg, hb⟩ := h
  exact ⟨k.rotate, color, hrgb, by rwa [k.mean_rotate], by rwa [k.mean_rotate],
    by rwa [k.mean_rotate]⟩

variable (a b c d)

theorem layer_swap : (triangle a c b).layer = (triangle a b c).layer := by
  refine layer_ext (fun p => ?_) fun p rgb => ⟨HasColor.swap, HasColor.swap⟩
  simp only [Covers, corners, Set.pair_comm (rat (place c.point))]

theorem layer_rotate : (triangle b c a).layer = (triangle a b c).layer := by
  refine layer_ext (fun p => ?_) fun p rgb => ⟨fun h => h.rotate.rotate, HasColor.rotate⟩
  have hcorners : corners (place b.point) (place c.point) (place a.point) =
      corners (place a.point) (place b.point) (place c.point) := by
    simp only [corners]
    rw [Set.pair_comm (rat (place c.point)), Set.insert_comm]
  simp only [Covers, hcorners]

end Shape

/-! ### The edge between two triangles -/

theorem edge_rotate (a b c : ℤ × ℤ) : edge b c a = edge a b c := by
  unfold edge
  ring

/-- On the line through two corners the color does not depend on the third. -/
theorem Shape.HasColor.across {a b c d : Vertex} {p : ℤ × ℤ} {rgb : UInt32}
    (harea : edge (place a.point) (place b.point) (place c.point) ≠ 0)
    (hline : edge (place b.point) (place c.point) p = 0) (h : (triangle a b c).HasColor p rgb) :
    (triangle b c d).HasColor p rgb := by
  obtain ⟨k, color, hrgb, hr, hg, hb⟩ := h
  have hu : k.u = 0 := by
    have hmul := k.mul_edge.1
    rw [hline, Int.cast_zero] at hmul
    exact (mul_eq_zero.1 hmul).resolve_right (by exact_mod_cast harea)
  exact ⟨k.across hu _, color, hrgb, by rwa [k.mean_across], by rwa [k.mean_across],
    by rwa [k.mean_across]⟩

section Line

variable {a b c d p : ℤ × ℤ}

/-- A place that is in two triangles on either side of a line lies on the line. -/
theorem edge_eq_zero_of_nonneg (h : edge a b c ≠ 0) (h' : edge b c d ≠ 0)
    (hside : edge b c a * edge b c d ≤ 0) (hin : (Barycentric.ofEdge h p).Nonneg)
    (hin' : (Barycentric.ofEdge h' p).Nonneg) : edge b c p = 0 := by
  have hu : (0 : ℚ) ≤ edge b c p / edge a b c := hin.1
  have hw : (0 : ℚ) ≤ edge b c p / edge b c d := hin'.2.2
  have hopposite : (edge a b c * edge b c d : ℚ) < 0 := by
    rw [edge_rotate] at hside
    exact_mod_cast lt_of_le_of_ne hside (mul_ne_zero h h')
  by_contra hp
  have hpos : (0 : ℚ) < edge b c p ^ 2 := by positivity
  have hproduct := mul_nonneg hu hw
  rw [div_mul_div_comm, ← sq] at hproduct
  exact absurd hproduct (not_le.2 (div_neg_of_pos_of_neg hpos hopposite))

/-- A place of a triangle on the line through two corners lies between them. -/
theorem mem_segment_of_nonneg (h : edge a b c ≠ 0) (hin : (Barycentric.ofEdge h p).Nonneg)
    (hline : edge b c p = 0) : rat p ∈ segment ℚ (rat b) (rat c) := by
  obtain ⟨-, hv, hw⟩ := hin
  have hu : (Barycentric.ofEdge h p).u = 0 := by simp [Barycentric.ofEdge, hline]
  have htotal := (Barycentric.ofEdge h p).total
  have hplace := (Barycentric.ofEdge h p).place
  rw [hu, zero_add] at htotal
  rw [hu, zero_smul, zero_add] at hplace
  exact ⟨_, _, hv, hw, htotal, hplace⟩

/-- How far a vector leads to one side of the line through `b` and `c`. -/
def cross (b c : ℤ × ℤ) : ℚ × ℚ →ₗ[ℚ] ℚ :=
  ((c.1 - b.1 : ℚ)) • LinearMap.snd ℚ ℚ ℚ - ((c.2 - b.2 : ℚ)) • LinearMap.fst ℚ ℚ ℚ

theorem cross_apply (b c : ℤ × ℤ) (q : ℚ × ℚ) :
    cross b c q = (c.1 - b.1) * q.2 - (c.2 - b.2) * q.1 := rfl

theorem cross_sub (b c p : ℤ × ℤ) : cross b c (rat p - rat b) = edge b c p := by
  rw [cross_apply]
  simp [rat, edge]

theorem edge_eq_zero_of_mem_segment (h : rat p ∈ segment ℚ (rat b) (rat c)) : edge b c p = 0 := by
  obtain ⟨v, w, -, -, htotal, hplace⟩ := h
  have hstep : rat p - rat b = w • (rat c - rat b) := by
    rw [← hplace, eq_sub_of_add_eq htotal]
    module
  have hcross : cross b c (rat c - rat b) = 0 := by
    rw [cross_sub]
    simp [edge, mul_comm]
  have hzero := cross_sub b c p
  rw [hstep, map_smul, hcross, smul_zero] at hzero
  exact_mod_cast hzero.symm

theorem vadd_mem_line_iff (h : b ≠ c) (v : ℚ × ℚ) :
    v +ᵥ rat b ∈ line[ℚ, rat b, rat c] ↔ cross b c v = 0 := by
  rw [vadd_left_mem_affineSpan_pair]
  constructor
  · rintro ⟨r, rfl⟩
    simp only [cross_apply, rat, vsub_eq_sub, Prod.smul_fst, Prod.smul_snd, Prod.fst_sub,
      Prod.snd_sub, smul_eq_mul]
    ring
  · intro hv
    rw [cross_apply] at hv
    obtain ⟨e, q, r, ⟨hx, hy⟩, hvx, hvy⟩ := exists_direction hv
    have hq : q ≠ 0 := by
      rintro rfl
      rw [zero_mul, sub_eq_zero, Int.cast_inj] at hx hy
      exact h (Prod.ext hx hy).symm
    refine ⟨r / q, Prod.ext ?_ ?_⟩
    · change r / q * (c.1 - b.1 : ℚ) = v.1
      rw [hx, hvx]
      field_simp
    · change r / q * (c.2 - b.2 : ℚ) = v.2
      rw [hy, hvy]
      field_simp

theorem mem_line_iff (h : b ≠ c) (q : ℚ × ℚ) :
    q ∈ line[ℚ, rat b, rat c] ↔ cross b c (q - rat b) = 0 := by
  rw [← vadd_mem_line_iff h, vadd_eq_add, sub_add_cancel]

/-- Two places are strictly on the same side of a line if the areas have the same sign. -/
theorem sSameSide_iff (h : b ≠ c) : line[ℚ, rat b, rat c].SSameSide (rat a) (rat d) ↔
    0 < edge b c a * edge b c d := by
  have hcast : 0 < edge b c a * edge b c d ↔ (0 : ℚ) < edge b c a * edge b c d := by
    exact_mod_cast Iff.rfl
  rw [AffineSubspace.sSameSide_iff_exists_left (left_mem_affineSpan_pair ℚ _ _), mem_line_iff h,
    mem_line_iff h, cross_sub, cross_sub, hcast]
  constructor
  · rintro ⟨ha, hd, q, hq, hray⟩
    have hbeyond : cross b c (rat d -ᵥ q) = edge b c d := by
      rw [mem_line_iff h] at hq
      rw [vsub_eq_sub, ← sub_sub_sub_cancel_right (rat d) q (rat b), map_sub, hq, sub_zero,
        cross_sub]
    have hsame := hray.map (cross b c)
    rw [hbeyond, vsub_eq_sub, cross_sub] at hsame
    obtain ⟨r, r', hr, hr', heq⟩ := hsame.exists_pos ha hd
    rw [smul_eq_mul, smul_eq_mul] at heq
    refine pos_of_mul_pos_right ?_ hr.le
    calc 0 < r' * (edge b c d : ℚ) ^ 2 := by positivity
      _ = r * (edge b c a * edge b c d) := by rw [← mul_assoc, heq, sq, mul_assoc]
  · intro hpos
    obtain ⟨ha, hd⟩ := mul_ne_zero_iff.1 hpos.ne'
    have hratio : (0 : ℚ) < edge b c d / edge b c a := by
      rw [← mul_div_mul_left _ _ ha]
      exact div_pos hpos (mul_self_pos.2 ha)
    -- From here a step along the ray of `a` leads to `d`.
    refine ⟨ha, hd, rat d - ((edge b c d : ℚ) / edge b c a) • (rat a - rat b), ?_, ?_⟩
    · rw [mem_line_iff h, sub_right_comm, map_sub, map_smul, cross_sub, cross_sub, smul_eq_mul,
        div_mul_cancel₀ _ ha, sub_self]
    · rw [vsub_eq_sub, vsub_eq_sub, sub_sub_cancel]
      exact SameRay.sameRay_pos_smul_right _ hratio

end Line

/-! ### Pictures that are drawn alike -/

/-- The second picture has the size of the first one, and the same pixels outside of it. -/
structure Framed (s s' : Raster) : Prop where
  resolution : s'.resolution = s.resolution
  pixels : ∀ i, (∀ x y : Nat, x < s.resolution.width → y < s.resolution.height →
    y * s.resolution.width + x ≠ i) → s'.pixels[i]? = s.pixels[i]?

namespace Framed

variable {s s' s'' : Raster}

theorem refl (s : Raster) : Framed s s := ⟨rfl, fun _ _ => rfl⟩

theorem trans (h : Framed s s') (h' : Framed s' s'') : Framed s s'' where
  resolution := h'.resolution.trans h.resolution
  pixels i hi := by
    rw [h'.pixels i (h.resolution ▸ hi), h.pixels i hi]

theorem put (s : Raster) (x y : Int) (rgb : UInt32) : Framed s (s.put x y rgb) := by
  rw [put_eq]
  split
  · rename_i hin
    obtain ⟨hx, hxw, hy, hyh⟩ := hin
    refine ⟨rfl, fun i hi => Array.getElem?_setIfInBounds_ne ?_⟩
    exact hi x.toNat y.toNat (by omega) (by omega)
  · exact refl s

theorem fold {n : Nat} {f : Nat → Raster → Raster} (h : ∀ i s, Framed s (f i s)) (s : Raster) :
    Framed s (n.fold (fun i _ s => f i s) s) := by
  induction n with
  | zero => exact refl s
  | succ n ih =>
    rw [Nat.fold_succ]
    exact ih.trans (h n _)

theorem forRectangle {f : Raster → Int → Int → Raster} (h : ∀ s x y, Framed s (f s x y))
    (s : Raster) (x y : Int) (width height : Nat) :
    Framed s (s.forRectangle x y width height f) :=
  fold (fun j s => fold (fun i s => h s (x + i) (y + j)) s) s

theorem fillTriangle (s : Raster) (a b c : Vertex) : Framed s (s.fillTriangle a b c) := by
  simp only [Raster.fillTriangle]
  split
  · exact refl s
  · refine forRectangle (fun s x y => ?_) s _ _ _ _
    split
    · exact put s x y _
    · exact refl s

end Framed

/-- A picture is told from its frame and the layer that is in front of it. -/
theorem eq_of_overlaid {s s₁ s₂ : Raster} {layer : Layer} (h₁ : Overlaid s s₁ layer)
    (h₂ : Overlaid s s₂ layer) (hframe₁ : Framed s s₁) (hframe₂ : Framed s s₂) : s₁ = s₂ := by
  have hpixels : s₁.pixels = s₂.pixels := by
    -- An index belongs to the frame or to one place of the picture.
    apply Array.ext_getElem?
    intro i
    by_cases hi : ∀ x y : Nat, x < s.resolution.width → y < s.resolution.height →
        y * s.resolution.width + x ≠ i
    · rw [hframe₁.pixels i hi, hframe₂.pixels i hi]
    · push Not at hi
      obtain ⟨x, y, hx, hy, rfl⟩ := hi
      have hpixel := (h₁.pixel? x y).trans (h₂.pixel? x y).symm
      simpa only [pixel?, h₁.resolution, h₂.resolution, hx, hy, and_self, if_true] using hpixel
  obtain ⟨resolution₁, pixels₁⟩ := s₁
  obtain ⟨resolution₂, pixels₂⟩ := s₂
  cases h₁.resolution.trans h₂.resolution.symm
  cases hpixels
  rfl

/-- Layers that agree where both of them have a color can be laid in either order. -/
theorem Layer.under_comm {back front : Layer}
    (h : ∀ p rgb rgb', back p = some rgb → front p = some rgb' → rgb = rgb') :
    back.under front = front.under back := by
  funext p
  simp only [Layer.under]
  cases hback : back p with
  | none => simp
  | some rgb =>
    cases hfront : front p with
    | none => rfl
    | some rgb' => rw [h p rgb rgb' hback hfront]

/-! ### Quads -/

section Quad

variable (s : Raster) {a b c d : Vertex}

/-- Triangles of the same shape are drawn alike. -/
theorem fillTriangle_eq_of_layer {a' b' c' : Vertex}
    (h : (Shape.triangle a' b' c').layer = (Shape.triangle a b c).layer) :
    s.fillTriangle a' b' c' = s.fillTriangle a b c :=
  eq_of_overlaid (h ▸ overlaid_fillTriangle s a' b' c') (overlaid_fillTriangle s a b c)
    (.fillTriangle s a' b' c') (.fillTriangle s a b c)

theorem fillTriangle_swap (a b c : Vertex) : s.fillTriangle a c b = s.fillTriangle a b c :=
  s.fillTriangle_eq_of_layer (Shape.layer_swap a b c)

theorem fillTriangle_rotate (a b c : Vertex) : s.fillTriangle b c a = s.fillTriangle a b c :=
  s.fillTriangle_eq_of_layer (Shape.layer_rotate a b c)

theorem fillTriangle_swap_left (a b c : Vertex) : s.fillTriangle b a c = s.fillTriangle a b c :=
  (s.fillTriangle_rotate b a c).symm.trans (s.fillTriangle_swap a b c)

/-- The corners `a` and `d` are not strictly on the same side of the line through `b` and `c`. If
`b` and `c` are at one place there is no such line. -/
def Apart (a b c d : Vertex) : Prop :=
  place b.point ≠ place c.point →
    ¬ line[ℚ, rat (place b.point), rat (place c.point)].SSameSide (rat (place a.point))
      (rat (place d.point))

theorem apart_iff (a b c d : Vertex) : Apart a b c d ↔
    edge (place b.point) (place c.point) (place a.point) *
      edge (place b.point) (place c.point) (place d.point) ≤ 0 := by
  by_cases h : place b.point = place c.point
  · simp [Apart, h, edge]
  · simp [Apart, h, sSameSide_iff h]

variable {p : ℤ × ℤ}

/-- The places of both triangles are those of the edge that they share. -/
theorem Apart.edge_eq_zero (hapart : Apart a b c d) (h : (Shape.triangle a b c).Covers p)
    (h' : (Shape.triangle b c d).Covers p) : edge (place b.point) (place c.point) p = 0 := by
  obtain ⟨harea, hin⟩ := (Shape.covers_triangle_iff a b c p).1 h
  obtain ⟨harea', hin'⟩ := (Shape.covers_triangle_iff b c d p).1 h'
  exact edge_eq_zero_of_nonneg harea harea' ((apart_iff a b c d).1 hapart) hin hin'

/-- Along the edge that two triangles share they have the same colors. -/
theorem hasColor_iff_of_edge_eq_zero {rgb : UInt32} (h : (Shape.triangle a b c).Covers p)
    (h' : (Shape.triangle b c d).Covers p) (hline : edge (place b.point) (place c.point) p = 0) :
    (Shape.triangle a b c).HasColor p rgb ↔ (Shape.triangle b c d).HasColor p rgb := by
  obtain ⟨harea, -⟩ := (Shape.covers_triangle_iff a b c p).1 h
  obtain ⟨harea', -⟩ := (Shape.covers_triangle_iff b c d p).1 h'
  rw [edge_rotate] at harea'
  exact ⟨fun h => h.across harea hline,
    fun h => (h.rotate.rotate.across harea' hline).rotate.rotate⟩

theorem fillTriangle_comm (hapart : Apart a b c d) :
    (s.fillTriangle b c d).fillTriangle a b c = (s.fillTriangle a b c).fillTriangle b c d := by
  have hlayers : (Shape.triangle b c d).layer.under (Shape.triangle a b c).layer =
      (Shape.triangle a b c).layer.under (Shape.triangle b c d).layer := by
    -- A place of both layers lies on the common edge, and the colors are the same there.
    refine Layer.under_comm fun p rgb rgb' hrgb hrgb' => ?_
    have hsecond := (Shape.layer_eq_some_iff _ _ _).1 hrgb
    have hfirst := (Shape.layer_eq_some_iff _ _ _).1 hrgb'
    have hline := hapart.edge_eq_zero hfirst.1 hsecond.1
    have hsame := (hasColor_iff_of_edge_eq_zero hfirst.1 hsecond.1 hline).2 hsecond.2
    rw [(Shape.layer_eq_some_iff _ _ _).2 ⟨hfirst.1, hsame⟩] at hrgb'
    exact Option.some.inj hrgb'
  have hback := (overlaid_fillTriangle s b c d).trans (overlaid_fillTriangle _ a b c)
  rw [hlayers] at hback
  exact eq_of_overlaid hback ((overlaid_fillTriangle s a b c).trans (overlaid_fillTriangle _ b c d))
    ((Framed.fillTriangle s b c d).trans (.fillTriangle _ a b c))
    ((Framed.fillTriangle s a b c).trans (.fillTriangle _ b c d))

/-- The words of a quad. -/
def quadWords (a b c d : Vertex) : Array UInt32 :=
  #[a.color.pack, a.point.pack, b.color.pack, b.point.pack, c.color.pack, c.point.pack,
    d.color.pack, d.point.pack]

theorem draw_quadWords {opcode : UInt8} (h : opcode ∈ quadOpcodes) (a b c d : Vertex) :
    Renderer.draw s ⟨opcode, quadWords a b c d⟩ =
      (.ok (), (s.fillTriangle a b c).fillTriangle b c d) := by
  have hfamily : ∀ o ∈ quadOpcodes, o &&& 0xFC = 0x38 :=
    List.forall_iff_forall_mem.1 (by decide)
  have hdecode : Primitive.decode opcode (quadWords a b c d) = .ok (.quad a b c d) := by
    simp [Primitive.decode, hfamily _ h, quadWords, Color.unpack_pack, Point.unpack_pack]
  simp only [Renderer.draw, hdecode]
  rfl

/-- The corners of the inner edge of a quad may be exchanged, and if the outer corners are not on
the same side of it, these as well: the triangles have the same colors where they meet. -/
theorem draw_quad_reordered {opcode : UInt8} (hopcode : opcode ∈ quadOpcodes) (a b c d : Vertex) :
    let draw (a b c d : Vertex) : Except Fault Unit × Raster :=
      Renderer.draw s ⟨opcode, quadWords a b c d⟩
    let inner := segment ℚ (rat (place b.point)) (rat (place c.point))
    draw a b c d = (.ok (), (s.fillTriangle a b c).fillTriangle b c d) ∧
    draw a c b d = draw a b c d ∧
    (∀ p, (Shape.triangle a b c).Covers p → (Shape.triangle b c d).Covers p → rat p ∈ inner →
      ∀ rgb, (Shape.triangle a b c).HasColor p rgb ↔ (Shape.triangle b c d).HasColor p rgb) ∧
    (Apart a b c d →
      (∀ p, (Shape.triangle a b c).Covers p → (Shape.triangle b c d).Covers p → rat p ∈ inner) ∧
      draw a b c d = (.ok (), (s.fillTriangle b c d).fillTriangle a b c) ∧
      draw d b c a = draw a b c d ∧ draw d c b a = draw a b c d) := by
  intro draw inner
  have hdraw (a b c d : Vertex) :
      draw a b c d = (.ok (), (s.fillTriangle a b c).fillTriangle b c d) :=
    s.draw_quadWords hopcode a b c d
  have hexchange (a b c d : Vertex) : draw a c b d = draw a b c d := by
    rw [hdraw, hdraw, s.fillTriangle_swap a b c, fillTriangle_swap_left]
  refine ⟨hdraw a b c d, hexchange a b c d, fun p h h' hp rgb => ?_, fun hapart => ?_⟩
  · exact hasColor_iff_of_edge_eq_zero h h' (edge_eq_zero_of_mem_segment hp)
  · have hback : draw d b c a = draw a b c d := by
      rw [hdraw, hdraw, ← s.fillTriangle_comm hapart, ← fillTriangle_rotate _ d b c,
        fillTriangle_rotate _ a b c]
    refine ⟨fun p h h' => ?_, ?_, hback, (hexchange d b c a).trans hback⟩
    · obtain ⟨harea, hin⟩ := (Shape.covers_triangle_iff a b c p).1 h
      exact mem_segment_of_nonneg harea hin (hapart.edge_eq_zero h h')
    · rw [hdraw, s.fillTriangle_comm hapart]

/-- A square in four colors, whose corners are given from the last to the first. -/
theorem draw_quad_reordered_square :
    let a : Vertex := ⟨⟨0xFF, 0, 0, 0x38⟩, ⟨0, 0⟩⟩
    let b : Vertex := ⟨⟨0, 0xFF, 0, 0⟩, ⟨4, 0⟩⟩
    let c : Vertex := ⟨⟨0, 0, 0xFF, 0⟩, ⟨0, 4⟩⟩
    let d : Vertex := ⟨⟨0, 0, 0, 0⟩, ⟨4, 4⟩⟩
    0x38 ∈ quadOpcodes ∧ Apart a b c d ∧
      Renderer.draw initial ⟨0x38, quadWords d c b a⟩ =
        Renderer.draw initial ⟨0x38, quadWords a b c d⟩ := by
  intro a b c d
  have hopcode : 0x38 ∈ quadOpcodes := by decide
  have hapart : Apart a b c d := (apart_iff a b c d).2 (by decide)
  obtain ⟨-, -, -, horder⟩ := draw_quad_reordered initial hopcode a b c d
  exact ⟨hopcode, hapart, (horder hapart).2.2.2⟩

end Quad

end GameConsole.Raster
