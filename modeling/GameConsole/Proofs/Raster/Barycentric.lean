import GameConsole.Gpu.Raster
import Mathlib.Analysis.Convex.Join
import Mathlib.Analysis.Convex.Combination
import Mathlib.Analysis.Normed.Field.Lemmas
import Mathlib.Analysis.Normed.Group.AddTorsor
import Mathlib.Data.Rat.Floor
import Mathlib.LinearAlgebra.AffineSpace.FiniteDimensional

/-! The plane that triangles lie in. A place is put together from the corners of a triangle with
weights that add up to one. The `edge` function gives these weights, multiplied by the area: the
area is zero exactly if the corners lie on a line, and otherwise no other weights put the place
together. It is in the convex hull of the corners exactly if none of the weights is negative. -/

namespace GameConsole.Raster

/-- A place of the grid as a point of the rational plane. -/
def rat (p : ℤ × ℤ) : ℚ × ℚ := (p.1, p.2)

def corners (a b c : ℤ × ℤ) : Set (ℚ × ℚ) := {rat a, rat b, rat c}

/-- Weights of the corners `a`, `b`, `c` that put the place `p` together. -/
@[ext]
structure Barycentric (a b c p : ℤ × ℤ) where
  u : ℚ
  v : ℚ
  w : ℚ
  total : u + v + w = 1
  place : u • rat a + v • rat b + w • rat c = rat p

namespace Barycentric

variable {a b c p : ℤ × ℤ}

/-- The mean of three values, one for each corner. -/
def mean (k : Barycentric a b c p) (x y z : ℚ) : ℚ := k.u * x + k.v * y + k.w * z

def Nonneg (k : Barycentric a b c p) : Prop := 0 ≤ k.u ∧ 0 ≤ k.v ∧ 0 ≤ k.w

theorem mean_fst (k : Barycentric a b c p) : k.mean a.1 b.1 c.1 = p.1 := by
  simpa [rat, mean] using congrArg Prod.fst k.place

theorem mean_snd (k : Barycentric a b c p) : k.mean a.2 b.2 c.2 = p.2 := by
  simpa [rat, mean] using congrArg Prod.snd k.place

/-! ### Bounds of a mean -/

theorem mean_le {k : Barycentric a b c p} (h : k.Nonneg) {x y z m : ℚ} (hx : x ≤ m) (hy : y ≤ m)
    (hz : z ≤ m) : k.mean x y z ≤ m := by
  obtain ⟨hu, hv, hw⟩ := h
  calc k.mean x y z ≤ k.u * m + k.v * m + k.w * m := by unfold mean; gcongr
    _ = (k.u + k.v + k.w) * m := by ring
    _ = m := by rw [k.total, one_mul]

theorem le_mean {k : Barycentric a b c p} (h : k.Nonneg) {x y z m : ℚ} (hx : m ≤ x) (hy : m ≤ y)
    (hz : m ≤ z) : m ≤ k.mean x y z := by
  obtain ⟨hu, hv, hw⟩ := h
  calc m = (k.u + k.v + k.w) * m := by rw [k.total, one_mul]
    _ = k.u * m + k.v * m + k.w * m := by ring
    _ ≤ k.mean x y z := by unfold mean; gcongr

/-- The floor of a mean of whole numbers lies between the least and the greatest of them. -/
theorem floor_mean_mem {k : Barycentric a b c p} (h : k.Nonneg) (x y z : ℤ) :
    min x (min y z) ≤ ⌊k.mean x y z⌋ ∧ ⌊k.mean x y z⌋ ≤ max x (max y z) := by
  constructor
  · apply Int.le_floor.2
    apply le_mean h <;> norm_cast <;> simp
  · have hmean : k.mean x y z ≤ (max x (max y z) : ℤ) := by
      apply mean_le h <;> norm_cast <;> simp
    exact_mod_cast (Int.floor_le _).trans hmean

/-! ### The weights from the areas -/

theorem edge_add_edge_add_edge (a b c p : ℤ × ℤ) :
    edge b c p + edge c a p + edge a b p = edge a b c := by
  unfold edge
  ring

/-- A weight is the part of the area that lies across from its corner. -/
theorem mul_edge (k : Barycentric a b c p) :
    k.u * edge a b c = edge b c p ∧ k.v * edge a b c = edge c a p ∧
      k.w * edge a b c = edge a b p := by
  have hx := k.mean_fst
  have hy := k.mean_snd
  have htotal := k.total
  simp only [mean] at hx hy
  simp only [edge, Int.cast_sub, Int.cast_mul, ← hx, ← hy]
  obtain hu : k.u = 1 - k.v - k.w := by linear_combination htotal
  rw [hu]
  refine ⟨?_, ?_, ?_⟩ <;> ring

/-- The weights that the areas give. -/
def ofEdge (h : edge a b c ≠ 0) (p : ℤ × ℤ) : Barycentric a b c p where
  u := edge b c p / edge a b c
  v := edge c a p / edge a b c
  w := edge a b p / edge a b c
  total := by
    rw [← add_div, ← add_div, div_eq_one_iff_eq (by exact_mod_cast h)]
    exact_mod_cast edge_add_edge_add_edge a b c p
  place := by
    have harea : (edge a b c : ℚ) ≠ 0 := by exact_mod_cast h
    ext
    · simp only [rat, Prod.fst_add, Prod.smul_fst, smul_eq_mul]
      field_simp
      simp only [edge]
      push_cast
      ring
    · simp only [rat, Prod.snd_add, Prod.smul_snd, smul_eq_mul]
      field_simp
      simp only [edge]
      push_cast
      ring

/-- In a triangle with an area there is one way to put a place together. -/
theorem eq_ofEdge (h : edge a b c ≠ 0) (k : Barycentric a b c p) : k = ofEdge h p := by
  have harea : (edge a b c : ℚ) ≠ 0 := by exact_mod_cast h
  obtain ⟨hu, hv, hw⟩ := k.mul_edge
  ext
  · exact (eq_div_iff harea).2 hu
  · exact (eq_div_iff harea).2 hv
  · exact (eq_div_iff harea).2 hw

end Barycentric

/-! ### Lines and hulls -/

/-- Two steps that are parallel go along one direction. -/
theorem exists_direction {x y s t : ℚ} (h : x * t - y * s = 0) :
    ∃ (d : ℚ × ℚ) (q r : ℚ), (x = q * d.1 ∧ y = q * d.2) ∧ s = r * d.1 ∧ t = r * d.2 := by
  by_cases hx : x = 0
  · by_cases hy : y = 0
    · exact ⟨(s, t), 0, 1, by simp [hx, hy], by simp⟩
    · refine ⟨(x, y), 1, t / y, by simp, ?_, by field_simp⟩
      field_simp
      linear_combination -h
  · refine ⟨(x, y), 1, s / x, by simp, by field_simp, ?_⟩
    field_simp
    linear_combination h

theorem collinear_corners_iff (a b c : ℤ × ℤ) : Collinear ℚ (corners a b c) ↔ edge a b c = 0 := by
  have hcoords (d : ℚ × ℚ) (r : ℚ) (q : ℤ × ℤ) :
      rat q = r • d +ᵥ rat a ↔ (q.1 - a.1 : ℚ) = r * d.1 ∧ (q.2 - a.2 : ℚ) = r * d.2 := by
    simp [Prod.ext_iff, rat, sub_eq_iff_eq_add]
  have hedge : edge a b c = 0 ↔
      ((b.1 - a.1) * (c.2 - a.2) - (b.2 - a.2) * (c.1 - a.1) : ℚ) = 0 := by
    unfold edge
    exact_mod_cast Iff.rfl
  rw [corners, collinear_iff_of_mem (show rat a ∈ _ by simp), hedge]
  constructor
  · rintro ⟨d, hd⟩
    obtain ⟨r, hr⟩ := hd (rat b) (by simp)
    obtain ⟨s, hs⟩ := hd (rat c) (by simp)
    obtain ⟨hbx, hby⟩ := (hcoords d r b).1 hr
    obtain ⟨hcx, hcy⟩ := (hcoords d s c).1 hs
    rw [hbx, hby, hcx, hcy]
    ring
  · intro h
    obtain ⟨d, q, r, hb, hc⟩ := exists_direction h
    refine ⟨d, ?_⟩
    rintro _ (rfl | rfl | rfl)
    · exact ⟨0, by simp⟩
    · exact ⟨q, (hcoords d q b).2 hb⟩
    · exact ⟨r, (hcoords d r c).2 hc⟩

theorem mem_convexHull_corners_iff (a b c p : ℤ × ℤ) :
    rat p ∈ convexHull ℚ (corners a b c) ↔ ∃ k : Barycentric a b c p, k.Nonneg := by
  constructor
  · intro h
    rw [corners, convexHull_insert (by simp), convexHull_pair, mem_convexJoin] at h
    obtain ⟨_, rfl, q, ⟨s, t, hs, ht, hst, rfl⟩, u, v, hu, hv, huv, hp⟩ := h
    refine ⟨⟨u, v * s, v * t, ?_, ?_⟩, hu, mul_nonneg hv hs, mul_nonneg hv ht⟩
    · linear_combination huv + v * hst
    · rw [← hp, smul_add, smul_smul, smul_smul, add_assoc]
  · rintro ⟨k, hu, hv, hw⟩
    refine mem_convexHull_of_exists_fintype ![k.u, k.v, k.w] ![rat a, rat b, rat c] ?_ ?_ ?_ ?_
    · simp [Fin.forall_fin_succ, hu, hv, hw]
    · simpa [Fin.sum_univ_three] using k.total
    · simp [Fin.forall_fin_succ, corners]
    · simpa [Fin.sum_univ_three] using k.place

end GameConsole.Raster
