import SupportPolygon.Region

/-!
# How far the margin moves an edge

`getConstraints` lowers the bound of a row by `ch_boundary`, or sets it to `0`
when `|c| ≤ ch_boundary`. The row is the edge's unnormalised line equation, so
for an edge of Euclidean length `l` the inner side of its line moves inward by
`min ch_boundary |c| / l`, which is `min (ch_boundary / l) d` for the distance
`d` of the origin to the line (`halfPlane_edgeRow_eq_shift`). The bound becomes
`0` when `l * d ≤ ch_boundary`.
-/

namespace SupportPolygon

open Pointwise

/-- The Euclidean length of the segment from `p0` to `p1`. -/
noncomputable def edgeLength (p0 p1 : ℝ × ℝ) : ℝ :=
  Real.sqrt ((p1.1 - p0.1) ^ 2 + (p1.2 - p0.2) ^ 2)

/-- The distance from the origin to the line through `p0` and `p1`. -/
noncomputable def originDistance (p0 p1 : ℝ × ℝ) : ℝ := |area p0 p1 0| / edgeLength p0 p1

/-- The closed side of the line from `p0` to `p1` on which a loop turning `w` has its
inside. -/
def innerSide (w : Winding) (p0 p1 : ℝ × ℝ) : Set (ℝ × ℝ) := {p | 0 ≤ w.sign * area p0 p1 p}

/-- The unit normal of the line from `p0` to `p1` that points to its inner side. -/
noncomputable def inwardNormal (w : Winding) (p0 p1 : ℝ × ℝ) : ℝ × ℝ :=
  (w.sign / edgeLength p0 p1) • (p0.2 - p1.2, p1.1 - p0.1)

theorem edgeLength_sq (p0 p1 : ℝ × ℝ) :
    edgeLength p0 p1 * edgeLength p0 p1 = (p1.1 - p0.1) ^ 2 + (p1.2 - p0.2) ^ 2 :=
  Real.mul_self_sqrt (by positivity)

theorem edgeLength_pos {p0 p1 : ℝ × ℝ} (h : p0 ≠ p1) : 0 < edgeLength p0 p1 := by
  apply Real.sqrt_pos.mpr
  rcases ne_or_eq p0.1 p1.1 with h1 | h1
  · exact add_pos_of_pos_of_nonneg (sq_pos_iff.mpr (sub_ne_zero.mpr (Ne.symm h1))) (sq_nonneg _)
  · have h2 : p0.2 ≠ p1.2 := fun h2 => h (Prod.ext h1 h2)
    exact add_pos_of_nonneg_of_pos (sq_nonneg _) (sq_pos_iff.mpr (sub_ne_zero.mpr (Ne.symm h2)))

theorem mem_shift_innerSide (w : Winding) {p0 p1 : ℝ × ℝ} (h : p0 ≠ p1) (δ : ℝ) (p : ℝ × ℝ) :
    p ∈ (δ • inwardNormal w p0 p1) +ᵥ innerSide w p0 p1 ↔
      δ * edgeLength p0 p1 ≤ w.sign * area p0 p1 p := by
  have hl := edgeLength_pos h
  have hsq := edgeLength_sq p0 p1
  have hs := Winding.sign_mul_self (α := ℝ) w
  have key : w.sign * area p0 p1 (-(δ • inwardNormal w p0 p1) + p) =
      w.sign * area p0 p1 p - δ * edgeLength p0 p1 := by
    have hinv : edgeLength p0 p1 * (edgeLength p0 p1)⁻¹ = 1 := mul_inv_cancel₀ hl.ne'
    simp only [inwardNormal, area, Prod.smul_fst, Prod.smul_snd, Prod.fst_add, Prod.snd_add,
      Prod.fst_neg, Prod.snd_neg, smul_eq_mul]
    linear_combination
      (-δ * ((p1.1 - p0.1) ^ 2 + (p1.2 - p0.2) ^ 2) * (edgeLength p0 p1)⁻¹) * hs +
      (δ * (edgeLength p0 p1)⁻¹) * hsq - δ * edgeLength p0 p1 * hinv
  rw [Set.mem_vadd_set_iff_neg_vadd_mem, vadd_eq_add, innerSide, Set.mem_setOf_eq, key, sub_nonneg]

theorem halfPlane_edgeRow_eq_shift (boundary : ℝ) (w : Winding) {p0 p1 : PointXYZ ℝ}
    (hne : p0.xy ≠ p1.xy) (h0 : 0 < w.sign * area p0.xy p1.xy 0) :
    (edgeRow boundary (getLineCoefficients p0 p1)).halfPlane =
      (min (boundary / edgeLength p0.xy p1.xy) (originDistance p0.xy p1.xy) •
        inwardNormal w p0.xy p1.xy) +ᵥ innerSide w p0.xy p1.xy := by
  have hl := edgeLength_pos hne
  have hside : side (area p0.xy p1.xy 0) = w.sign := by
    unfold side
    cases w <;> simp only [Winding.sign] at h0 ⊢ <;> split_ifs with h <;> linarith
  ext p
  rw [mem_shift_innerSide w hne, mem_halfPlane_edge, hside, originDistance,
    min_div_div_right hl.le, div_mul_cancel₀ _ hl.ne', min_comm]

theorem edgeRow_b_eq_zero_iff (boundary : ℝ) {p0 p1 : PointXYZ ℝ} (hne : p0.xy ≠ p1.xy) :
    (edgeRow boundary (getLineCoefficients p0 p1)).b = 0 ↔
      edgeLength p0.xy p1.xy * originDistance p0.xy p1.xy ≤ boundary := by
  rw [edgeRow_eq, originDistance, mul_div_cancel₀ _ (edgeLength_pos hne).ne',
    ← getLineCoefficients_c, sub_eq_zero, eq_comm, min_eq_left_iff]

end SupportPolygon
