import SupportPolygon.HalfPlane

/-!
# Start vertex and winding of the hull loop

The hull library promises one loop of indices, but neither its start vertex
nor its winding. Starting the loop elsewhere rotates the rows `getConstraints`
writes and keeps the rows past them. Reversing the loop reverses every edge,
which negates its line `(a, b, c)`; the sign rule on `c` undoes the negation
when `c ≠ 0`, but when the edge's line passes through the origin both windings
take the branch `c ≤ 0` and the two rows have opposite normals.
-/

namespace SupportPolygon

variable {α β γ : Type}

-- ---------------------------------------------------------------------------
-- Lists
-- ---------------------------------------------------------------------------

theorem edges_rotate (L : List β) (k : Nat) : edges (L.rotate k) = (edges L).rotate k := by
  apply List.ext_getElem (by simp)
  intro j _ _
  simp only [edges, List.getElem_zip, List.getElem_rotate, List.length_rotate, length_edges,
    List.length_zip, min_self, Prod.mk.injEq, true_and]
  congr 1
  rw [Nat.mod_add_mod, Nat.mod_add_mod, Nat.add_right_comm]

theorem edges_reverse (L : List β) :
    edges L.reverse = ((edges L).reverse.rotate 1).map Prod.swap := by
  apply List.ext_getElem (by simp)
  intro j h1 h2
  have hj : j < L.length := by simpa using h1
  simp only [edges, List.getElem_map, List.getElem_zip, List.getElem_rotate, List.getElem_reverse,
    List.length_rotate, List.length_reverse, List.length_zip, min_self, Prod.swap_prod_mk,
    Prod.mk.injEq, and_true]
  congr 1
  by_cases h : j + 1 < L.length
  · rw [Nat.mod_eq_of_lt h, Nat.mod_eq_of_lt (by omega)]; omega
  · rw [show j + 1 = L.length by omega, Nat.mod_self, Nat.sub_zero,
      show L.length - 1 + 1 = L.length by omega, Nat.mod_self]
    omega

theorem mapM_append_singleton (f : β → Option γ) (l : List β) (x : β) :
    (l ++ [x]).mapM f = (l.mapM f).bind fun rs => (f x).map fun r => rs ++ [r] := by
  rw [List.mapM_append, List.mapM_cons, List.mapM_nil]
  rcases l.mapM f with _ | rs
  · rfl
  · rcases f x <;> rfl

theorem mapM_rotate_one (f : β → Option γ) : ∀ l : List β,
    (l.rotate 1).mapM f = (l.mapM f).map (·.rotate 1)
  | [] => by rw [List.rotate_nil, List.mapM_nil]; rfl
  | x :: l => by
    rw [List.rotate_cons_succ, List.rotate_zero, mapM_append_singleton, List.mapM_cons]
    rcases f x with _ | r <;> rcases l.mapM f with _ | rs <;>
      simp [bind, pure, List.rotate_cons_succ]

theorem mapM_rotate (f : β → Option γ) (l : List β) :
    ∀ k : Nat, (l.rotate k).mapM f = (l.mapM f).map (·.rotate k)
  | 0 => by
    rw [List.rotate_zero]
    rcases l.mapM f with _ | rs <;> simp only [Option.map_none', Option.map_some', List.rotate_zero]
  | k + 1 => by
    rw [← List.rotate_rotate, mapM_rotate_one, mapM_rotate f l k, Option.map_map]
    congr 1
    funext rs
    simp [Function.comp_def, List.rotate_rotate]

theorem mapM_reverse (f : β → Option γ) : ∀ l : List β,
    l.reverse.mapM f = (l.mapM f).map List.reverse
  | [] => by rw [List.reverse_nil, List.mapM_nil]; rfl
  | x :: l => by
    rw [List.reverse_cons, mapM_append_singleton, mapM_reverse f l, List.mapM_cons]
    rcases f x with _ | r <;> rcases l.mapM f with _ | rs <;> simp [bind, pure]

theorem mapM_map_congr {δ : Type} (f : β → Option γ) (g : δ → Option γ) (h : δ → β) :
    ∀ l : List δ, (∀ x ∈ l, f (h x) = g x) → (l.map h).mapM f = l.mapM g
  | [], _ => rfl
  | x :: l, hl => by
    rw [List.map_cons, List.mapM_cons, List.mapM_cons, hl x (List.mem_cons_self x l),
      mapM_map_congr f g h l fun y hy => hl y (List.mem_cons_of_mem x hy)]

theorem length_of_mapM_eq_some {f : β → Option γ} :
    ∀ {l : List β} {rs : List γ}, l.mapM f = some rs → rs.length = l.length
  | [], rs, h => by rw [List.mapM_nil] at h; cases h; rfl
  | x :: l, rs, h => by
    obtain ⟨_, ys, -, hl, rfl⟩ := mapM_cons_eq_some.mp h
    simp [length_of_mapM_eq_some hl]

-- ---------------------------------------------------------------------------
-- Rows
-- ---------------------------------------------------------------------------

section Rows

variable [LinearOrderedField α]

theorem side_neg {c : α} (hc : c ≠ 0) : side (-c) = -side c := by
  unfold side
  rcases lt_or_gt_of_ne hc with h | h
  · simp [not_le.mpr (neg_pos.mpr h), le_of_lt h]
  · simp [neg_nonpos.mpr (le_of_lt h), not_le.mpr h]

theorem edgeRow_swap (boundary : α) {p0 p1 : PointXYZ α} (hc : (getLineCoefficients p0 p1).c ≠ 0) :
    edgeRow boundary (getLineCoefficients p1 p0) = edgeRow boundary (getLineCoefficients p0 p1) := by
  rw [getLineCoefficients_swap, edgeRow_eq, edgeRow_eq]
  simp only [side_neg hc, abs_neg, Row.mk.injEq]
  exact ⟨by ring, by ring, trivial⟩

theorem edgeRow_swap_of_zero (boundary : α) {p0 p1 : PointXYZ α}
    (hc : (getLineCoefficients p0 p1).c = 0) :
    edgeRow boundary (getLineCoefficients p1 p0) =
      ⟨-(edgeRow boundary (getLineCoefficients p0 p1)).a0,
        -(edgeRow boundary (getLineCoefficients p0 p1)).a1,
        (edgeRow boundary (getLineCoefficients p0 p1)).b⟩ := by
  rw [getLineCoefficients_swap, edgeRow_eq, edgeRow_eq]
  simp only [hc, neg_zero, Row.mk.injEq]
  exact ⟨by ring, by ring, trivial⟩

theorem constraintRows_rotate (boundary : α) (H : PointCloud α) (L : List Nat) (k : Nat) :
    constraintRows boundary H [L.rotate k] = (constraintRows boundary H [L]).map (·.rotate k) := by
  simp only [constraintRows, List.flatMap_cons, List.flatMap_nil, List.append_nil, edges_rotate,
    mapM_rotate]

theorem constraintRows_reverse (boundary : α) (H : PointCloud α) (L : List Nat)
    (h : ∀ e ∈ edges L, ∀ p0 p1 : PointXYZ α, H[e.1]? = some p0 → H[e.2]? = some p1 →
      (getLineCoefficients p0 p1).c ≠ 0) :
    constraintRows boundary H [L.reverse] =
      (constraintRows boundary H [L]).map fun rs => rs.reverse.rotate 1 := by
  simp only [constraintRows, List.flatMap_cons, List.flatMap_nil, List.append_nil, edges_reverse]
  rw [mapM_map_congr (edgeRowAt boundary H) (edgeRowAt boundary H), mapM_rotate, mapM_reverse,
    Option.map_map]
  · rfl
  intro e he
  have he : e ∈ edges L := List.mem_reverse.mp ((List.mem_rotate).mp he)
  simp only [edgeRowAt, Prod.fst_swap, Prod.snd_swap, bind, pure]
  rcases h0 : H[e.1]? with _ | p0 <;> rcases h1 : H[e.2]? with _ | p1 <;> try rfl
  simp [edgeRow_swap boundary (h e he p0 p1 h0 h1)]

-- ---------------------------------------------------------------------------
-- The buffers
-- ---------------------------------------------------------------------------

open Yarp

section Reorder

variable (f : ∀ {δ : Type}, List δ → List δ)
  (hmap : ∀ {δ ε : Type} (g : δ → ε) (l : List δ), f (l.map g) = (f l).map g)
  (hlen : ∀ {δ : Type} (l : List δ), (f l).length = l.length)
include hmap hlen

theorem getConstraintsWith_reorder (boundary : α) (H : PointCloud α) (L L' : List Nat)
    (A : Matrix α) (b : Vector α)
    (h : constraintRows boundary H [L'] = (constraintRows boundary H [L]).map f) :
    getConstraintsWith boundary H [L'] A b =
      (getConstraintsWith boundary H [L] A b).map (reorderRows f L.length) := by
  rw [getConstraintsWith_eq, getConstraintsWith_eq, h]
  rcases hrs : constraintRows boundary H [L] with _ | rs
  · rfl
  · have hE : rs.length = L.length := by simpa using length_of_mapM_eq_some hrs
    rw [Option.map_some', Option.some_bind, Option.some_bind,
      writeRows_reorder f hmap hlen (shape_resize A b H.length) rs, hE]

end Reorder

/-- Which start vertex the loop has does not matter: the rows written are rotated with it
and the rows past them are kept. Which winding it has matters exactly on the edges whose
line passes through the origin: there the reversed edge's row has the opposite normal,
elsewhere it is the same row. -/
theorem getConstraints_start_and_winding (boundary : α) (H : PointCloud α) (L : List Nat)
    (A : Matrix α) (b : Vector α) :
    (∀ k, getConstraintsWith boundary H [L.rotate k] A b =
      (getConstraintsWith boundary H [L] A b).map (reorderRows (·.rotate k) L.length)) ∧
    (∀ p0 p1 : PointXYZ α, (getLineCoefficients p0 p1).c ≠ 0 →
      edgeRow boundary (getLineCoefficients p1 p0) = edgeRow boundary (getLineCoefficients p0 p1)) ∧
    (∀ p0 p1 : PointXYZ α, (getLineCoefficients p0 p1).c = 0 →
      edgeRow boundary (getLineCoefficients p1 p0) =
        ⟨-(edgeRow boundary (getLineCoefficients p0 p1)).a0,
          -(edgeRow boundary (getLineCoefficients p0 p1)).a1,
          (edgeRow boundary (getLineCoefficients p0 p1)).b⟩) ∧
    ((∀ e ∈ edges L, ∀ p0 p1 : PointXYZ α, H[e.1]? = some p0 → H[e.2]? = some p1 →
        (getLineCoefficients p0 p1).c ≠ 0) →
      getConstraintsWith boundary H [L.reverse] A b =
        (getConstraintsWith boundary H [L] A b).map (reorderRows (·.reverse.rotate 1) L.length)) :=
  ⟨fun k => getConstraintsWith_reorder (·.rotate k) (fun g l => (List.map_rotate g l k).symm)
      (fun l => List.length_rotate l k) boundary H L _ A b (constraintRows_rotate boundary H L k),
    fun _ _ => edgeRow_swap boundary, fun _ _ => edgeRow_swap_of_zero boundary,
    fun h => getConstraintsWith_reorder (·.reverse.rotate 1)
      (fun g l => by rw [List.map_rotate, List.map_reverse]) (fun l => by simp) boundary H L _ A b
      (constraintRows_reverse boundary H L h)⟩

end Rows

/-- The triangle `(1, 0), (0, 1), (-1, -1)` has no edge line through the origin, so its two
windings write the same rows, reversed and rotated by one. -/
theorem getConstraints_start_and_winding_triangle :
    (∀ e ∈ edges [0, 1, 2], ∀ p0 p1 : PointXYZ ℝ,
      ([⟨1, 0, 0⟩, ⟨0, 1, 0⟩, ⟨-1, -1, 0⟩] : PointCloud ℝ)[e.1]? = some p0 →
      ([⟨1, 0, 0⟩, ⟨0, 1, 0⟩, ⟨-1, -1, 0⟩] : PointCloud ℝ)[e.2]? = some p1 →
      (getLineCoefficients p0 p1).c ≠ 0) ∧
    getConstraints ([⟨1, 0, 0⟩, ⟨0, 1, 0⟩, ⟨-1, -1, 0⟩] : PointCloud ℝ) [[0, 1, 2].reverse]
        ⟨[]⟩ ⟨[]⟩ =
      (getConstraints ([⟨1, 0, 0⟩, ⟨0, 1, 0⟩, ⟨-1, -1, 0⟩] : PointCloud ℝ) [[0, 1, 2]]
        ⟨[]⟩ ⟨[]⟩).map (reorderRows (·.reverse.rotate 1) 3) :=
  have h : ∀ e ∈ edges [0, 1, 2], ∀ p0 p1 : PointXYZ ℝ,
      ([⟨1, 0, 0⟩, ⟨0, 1, 0⟩, ⟨-1, -1, 0⟩] : PointCloud ℝ)[e.1]? = some p0 →
      ([⟨1, 0, 0⟩, ⟨0, 1, 0⟩, ⟨-1, -1, 0⟩] : PointCloud ℝ)[e.2]? = some p1 →
      (getLineCoefficients p0 p1).c ≠ 0 := by
    rw [show edges [0, 1, 2] = [(0, 1), (1, 2), (2, 0)] by decide]
    rintro e he p0 p1 h0 h1
    simp only [List.mem_cons, List.mem_singleton, List.not_mem_nil, or_false] at he
    rcases he with rfl | rfl | rfl <;> simp only [List.getElem?_cons_zero,
      List.getElem?_cons_succ, Option.some.injEq] at h0 h1 <;> subst h0 h1 <;>
      norm_num [getLineCoefficients]
  ⟨h, (getConstraints_start_and_winding chBoundary _ [0, 1, 2] ⟨[]⟩ ⟨[]⟩).2.2.2 h⟩

/-- The triangle `(-1, 0), (1, 0), (0, 1)` has its first edge on the `x` axis. Its two
windings give rows `2 y ≤ 0` and `-2 y ≤ 0` for that edge, and the two systems
`getConstraints` returns are not permutations of each other. -/
theorem getConstraints_reverse_through_origin :
    getConstraints ([⟨-1, 0, 0⟩, ⟨1, 0, 0⟩, ⟨0, 1, 0⟩] : PointCloud ℝ) [[0, 1, 2]] ⟨[]⟩ ⟨[]⟩ =
      some (buffersOf [⟨0, 2, 0⟩, ⟨1, 1, 99 / 100⟩, ⟨-1, 1, 99 / 100⟩]) ∧
    getConstraints ([⟨-1, 0, 0⟩, ⟨1, 0, 0⟩, ⟨0, 1, 0⟩] : PointCloud ℝ) [[0, 1, 2].reverse]
        ⟨[]⟩ ⟨[]⟩ =
      some (buffersOf [⟨1, 1, 99 / 100⟩, ⟨0, -2, 0⟩, ⟨-1, 1, 99 / 100⟩]) ∧
    ¬ ([⟨1, 1, 99 / 100⟩, ⟨0, -2, 0⟩, ⟨-1, 1, 99 / 100⟩] : List (Row ℝ)).Perm
      [⟨0, 2, 0⟩, ⟨1, 1, 99 / 100⟩, ⟨-1, 1, 99 / 100⟩] := by
  refine ⟨getConstraintsWith_fill ?_ rfl _ _, getConstraintsWith_fill ?_ rfl _ _, fun h => ?_⟩
  · simp only [constraintRows, List.flatMap_cons, List.flatMap_nil, List.append_nil,
      show edges [0, 1, 2] = [(0, 1), (1, 2), (2, 0)] by decide, List.mapM_cons, List.mapM_nil,
      edgeRowAt, List.getElem?_cons_zero, List.getElem?_cons_succ, Option.bind_some,
      Option.pure_def, Option.bind_eq_bind]
    norm_num [edgeRow, getLineCoefficients, chBoundary]
  · simp only [constraintRows, List.flatMap_cons, List.flatMap_nil, List.append_nil,
      List.reverse_cons, List.reverse_nil, List.nil_append, List.cons_append,
      List.singleton_append, show edges [2, 1, 0] = [(2, 1), (1, 0), (0, 2)] by decide,
      List.mapM_cons, List.mapM_nil, edgeRowAt, List.getElem?_cons_zero, List.getElem?_cons_succ,
      Option.bind_some, Option.pure_def, Option.bind_eq_bind]
    norm_num [edgeRow, getLineCoefficients, chBoundary]
  · have := h.mem_iff.mpr (List.mem_cons_self _ _)
    norm_num at this

end SupportPolygon
