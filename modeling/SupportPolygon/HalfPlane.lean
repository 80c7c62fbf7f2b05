import SupportPolygon.Loops

/-!
# The half-plane of one row

`edgeRow_eq` reads the two branches of the loop body as one formula: the row is the
line's equation times `-side c`, with bound `|c| - min |c| boundary`. A point is admitted
when it lies on the origin's side of the line, at least `min |c| boundary` into it in
units of the unnormalised equation (`mem_halfPlane_edgeRow`). Every bound is nonnegative.
-/

namespace SupportPolygon

variable {α : Type} [LinearOrderedField α]

/-- The half-plane `A(z,0) x + A(z,1) y ≤ b[z]` of one row. -/
def Row.halfPlane (r : Row α) : Set (α × α) := {p | r.a0 * p.1 + r.a1 * p.2 ≤ r.b}

/-- The points every row of a system admits. -/
def feasible (rs : List (Row α)) : Set (α × α) := {p | ∀ r ∈ rs, p ∈ r.halfPlane}

/-- The sign the loop body gives a line: `-1` when `c ≤ 0`, `1` otherwise. -/
def side (c : α) : α := if c ≤ 0 then -1 else 1

theorem side_mul (c : α) : side c * c = |c| := by
  unfold side
  split_ifs with h
  · rw [abs_of_nonpos h]; ring
  · rw [abs_of_pos (not_le.mp h)]; ring

theorem edgeRow_eq (boundary : α) (l : Line α) :
    edgeRow boundary l = ⟨-side l.c * l.a, -side l.c * l.b, |l.c| - min |l.c| boundary⟩ := by
  unfold edgeRow side
  split_ifs with hc hb hb <;> simp only [Row.mk.injEq] <;> refine ⟨by ring, by ring, ?_⟩
  · rw [min_eq_left hb]; ring
  · rw [min_eq_right (le_of_lt (not_le.mp hb)), abs_of_nonpos hc]
  · rw [min_eq_left hb]; ring
  · rw [min_eq_right (le_of_lt (not_le.mp hb)), abs_of_pos (not_le.mp hc)]

theorem mem_halfPlane_edgeRow (boundary : α) (l : Line α) (p : α × α) :
    p ∈ (edgeRow boundary l).halfPlane ↔
      min |l.c| boundary ≤ side l.c * (l.a * p.1 + l.b * p.2 + l.c) := by
  have h : side l.c * (l.a * p.1 + l.b * p.2 + l.c) =
      |l.c| - (-side l.c * l.a * p.1 + -side l.c * l.b * p.2) := by
    rw [← side_mul]; ring
  rw [edgeRow_eq, h]
  simp only [Row.halfPlane, Set.mem_setOf_eq]
  constructor <;> intro _ <;> linarith

theorem edgeRow_b_nonneg (boundary : α) (l : Line α) :
    0 ≤ (edgeRow boundary l).b := by
  rw [edgeRow_eq]
  exact sub_nonneg.mpr (min_le_left _ _)

theorem halfPlane_edgeRow_anti {m₁ m₂ : α} (h : m₁ ≤ m₂) (l : Line α) :
    (edgeRow m₂ l).halfPlane ⊆ (edgeRow m₁ l).halfPlane := by
  intro p hp
  rw [mem_halfPlane_edgeRow] at hp ⊢
  exact le_trans (min_le_min_left _ h) hp

-- ---------------------------------------------------------------------------
-- The line through two hull points
-- ---------------------------------------------------------------------------

theorem getLineCoefficients_eval (p0 p1 : PointXYZ α) (p : α × α) :
    (getLineCoefficients p0 p1).a * p.1 + (getLineCoefficients p0 p1).b * p.2 +
      (getLineCoefficients p0 p1).c = area p0.xy p1.xy p := by
  simp only [getLineCoefficients, area, PointXYZ.xy]; ring

theorem getLineCoefficients_c (p0 p1 : PointXYZ α) :
    (getLineCoefficients p0 p1).c = area p0.xy p1.xy 0 := by
  simpa using getLineCoefficients_eval p0 p1 0

theorem getLineCoefficients_swap (p0 p1 : PointXYZ α) :
    getLineCoefficients p1 p0 =
      ⟨-(getLineCoefficients p0 p1).a, -(getLineCoefficients p0 p1).b,
        -(getLineCoefficients p0 p1).c⟩ := by
  simp only [getLineCoefficients, Line.mk.injEq]
  refine ⟨by ring, by ring, by ring⟩

theorem mem_halfPlane_edge (boundary : α) (p0 p1 : PointXYZ α) (p : α × α) :
    p ∈ (edgeRow boundary (getLineCoefficients p0 p1)).halfPlane ↔
      min |area p0.xy p1.xy 0| boundary ≤ side (area p0.xy p1.xy 0) * area p0.xy p1.xy p := by
  rw [mem_halfPlane_edgeRow, getLineCoefficients_eval, getLineCoefficients_c]

-- ---------------------------------------------------------------------------
-- Rows of a whole run
-- ---------------------------------------------------------------------------

theorem exists_of_mem_mapM {β γ : Type} {f : β → Option γ} :
    ∀ {l : List β} {rs : List γ}, l.mapM f = some rs → ∀ r ∈ rs, ∃ x ∈ l, f x = some r
  | [], rs, h, r, hr => by
    rw [List.mapM_nil] at h
    cases h
    simp at hr
  | x :: l, rs, h, r, hr => by
    obtain ⟨y, ys, hx, hl, rfl⟩ := mapM_cons_eq_some.mp h
    rcases List.mem_cons.mp hr with rfl | hr
    · exact ⟨x, List.mem_cons_self _ _, hx⟩
    · obtain ⟨x', hx', h'⟩ := exists_of_mem_mapM hl r hr
      exact ⟨x', List.mem_cons_of_mem _ hx', h'⟩

theorem exists_of_mem_constraintRows {boundary : α} {H : PointCloud α} {I : List (List Nat)}
    {rs : List (Row α)} (h : constraintRows boundary H I = some rs) :
    ∀ r ∈ rs, ∃ p0 p1 : PointXYZ α, r = edgeRow boundary (getLineCoefficients p0 p1) := by
  intro r hr
  obtain ⟨e, -, he⟩ := exists_of_mem_mapM h r hr
  simp only [edgeRowAt, bind, pure] at he
  rcases h0 : H[e.1]? with _ | p0 <;> rcases h1 : H[e.2]? with _ | p1 <;>
    simp [h0, h1] at he
  exact ⟨p0, p1, he.symm⟩

theorem constraintRows_b_nonneg {boundary : α} {H : PointCloud α}
    {I : List (List Nat)} {rs : List (Row α)} (h : constraintRows boundary H I = some rs) :
    ∀ r ∈ rs, 0 ≤ r.b ∧ (0 : α × α) ∈ r.halfPlane := by
  intro r hr
  obtain ⟨p0, p1, rfl⟩ := exists_of_mem_constraintRows h r hr
  exact ⟨edgeRow_b_nonneg _ _, by simpa [Row.halfPlane] using edgeRow_b_nonneg _ _⟩

end SupportPolygon
