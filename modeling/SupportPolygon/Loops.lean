import SupportPolygon.Constraints

/-!
# What the two loops of `getConstraints` write

The nested loops compute one row per edge of every loop, in loop-then-vertex order, and
write row `z` for `z = 0, 1, ...` into the resized buffers (`getConstraintsWith_eq`). With
valid indices no read fails, the run succeeds exactly when there are no more edges than
rows, and the rows past the edges keep what `resize` left (`getConstraints_writes_rows`).
-/

namespace SupportPolygon

open Yarp

variable {α : Type} [LinearOrderedField α]

/-- One edge processed as the loop body processes a vertex: compute its row, write it at
row `z`, advance `z`. -/
def edgeStep (boundary : α) (H : PointCloud α) (s : Matrix α × Vector α × Nat) (e : Nat × Nat) :
    Option (Matrix α × Vector α × Nat) :=
  (edgeRowAt boundary H e).bind fun r =>
    (writeRow s.2.2 r s.1 s.2.1).map fun out => (out.1, out.2, s.2.2 + 1)

-- ---------------------------------------------------------------------------
-- Option folds
-- ---------------------------------------------------------------------------

theorem foldlM_congr {σ β : Type} {f g : σ → β → Option σ} :
    ∀ (l : List β), (∀ s, ∀ x ∈ l, f s x = g s x) → ∀ s, l.foldlM f s = l.foldlM g s
  | [], _, _ => rfl
  | x :: l, h, s => by
    simp only [List.foldlM_cons, h s x (List.mem_cons_self x l)]
    congr 1
    funext s'
    exact foldlM_congr l (fun s y hy => h s y (List.mem_cons_of_mem x hy)) s'

theorem mapM_cons_eq_some {β γ : Type} {f : β → Option γ} {x : β} {l : List β}
    {q : List γ} : (x :: l).mapM f = some q ↔ ∃ a r, f x = some a ∧ l.mapM f = some r ∧
      q = a :: r := by
  rw [List.mapM_cons]
  rcases f x with _ | a <;> rcases l.mapM f with _ | r <;> simp [bind, pure, eq_comm]

theorem mapM_eq_some {β γ : Type} (f : β → Option γ) :
    ∀ (l : List β), (∀ x ∈ l, (f x).isSome) →
      ∃ rs, l.mapM f = some rs ∧ rs.length = l.length ∧ ∀ i : Nat, rs[i]? = l[i]?.bind f
  | [], _ => ⟨[], rfl, rfl, by simp⟩
  | x :: l, h => by
    obtain ⟨r, hr⟩ := Option.isSome_iff_exists.mp (h x (List.mem_cons_self x l))
    obtain ⟨rs, hrs, hlen, hget⟩ := mapM_eq_some f l fun y hy => h y (List.mem_cons_of_mem x hy)
    refine ⟨r :: rs, mapM_cons_eq_some.mpr ⟨r, rs, hr, hrs, rfl⟩, by simp [hlen], fun i => ?_⟩
    cases i with
    | zero => simp [hr]
    | succ i => simpa using hget i

-- ---------------------------------------------------------------------------
-- The loops
-- ---------------------------------------------------------------------------

theorem getConstraintsStep_eq (boundary : α) (H : PointCloud α) (vs : List Nat)
    (s : Matrix α × Vector α × Nat) {j : Nat} (hj : j < vs.length) :
    getConstraintsStep boundary H vs s j =
      (vs[j]?).bind fun i0 => (vs[(j + 1) % vs.length]?).bind fun i1 =>
        edgeStep boundary H s (i0, i1) := by
  have : modulo (j + 1) vs.length = some ((j + 1) % vs.length) := by
    simp [modulo, show vs.length ≠ 0 by omega]
  simp only [getConstraintsStep, this, edgeStep, edgeRowAt, bind, pure, Option.some_bind,
    Option.bind_assoc, Option.map_eq_bind]
  rfl

theorem inner_loop_eq (boundary : α) (H : PointCloud α) (vs : List Nat)
    (s : Matrix α × Vector α × Nat) :
    (List.range vs.length).foldlM (getConstraintsStep boundary H vs) s =
      (edges vs).foldlM (edgeStep boundary H) s := by
  let step (o : Option Nat × Option Nat) s :=
    o.1.bind fun i0 => o.2.bind fun i1 => edgeStep boundary H s (i0, i1)
  calc (List.range vs.length).foldlM (getConstraintsStep boundary H vs) s
      = (List.range vs.length).foldlM
          (fun s j => step (vs[j]?, vs[(j + 1) % vs.length]?) s) s :=
        foldlM_congr _ (fun s j hj => getConstraintsStep_eq boundary H vs s
          (List.mem_range.mp hj)) s
    _ = ((edges vs).map fun e => (some e.1, some e.2)).foldlM (fun s o => step o s) s := by
        rw [← map_range_edges, List.foldlM_map]
    _ = (edges vs).foldlM (edgeStep boundary H) s := by
        rw [List.foldlM_map]; rfl

theorem outer_loop_eq (boundary : α) (H : PointCloud α) :
    ∀ (I : List (List Nat)) (s : Matrix α × Vector α × Nat),
      I.foldlM (fun s vs => (List.range vs.length).foldlM (getConstraintsStep boundary H vs) s) s =
        (I.flatMap edges).foldlM (edgeStep boundary H) s
  | [], _ => rfl
  | vs :: I, s => by
    rw [List.foldlM_cons, List.flatMap_cons, List.foldlM_append, inner_loop_eq]
    congr 1
    funext s'
    exact outer_loop_eq boundary H I s'

theorem foldlM_edgeStep (boundary : α) (H : PointCloud α) :
    ∀ (es : List (Nat × Nat)) (A : Matrix α) (b : Vector α) (z : Nat),
      es.foldlM (edgeStep boundary H) (A, b, z) =
        (es.mapM (edgeRowAt boundary H)).bind fun rs =>
          (writeRows rs z A b).map fun out => (out.1, out.2, z + rs.length)
  | [], A, b, z => rfl
  | e :: es, A, b, z => by
    rw [List.foldlM_cons, List.mapM_cons]
    simp only [edgeStep, bind, pure]
    rcases edgeRowAt boundary H e with _ | r
    · rfl
    simp only [Option.some_bind]
    rcases hw : writeRow z r A b with _ | out
    · rcases es.mapM (edgeRowAt boundary H) with _ | rs <;> simp [writeRows, hw]
    · simp only [Option.map_some', Option.some_bind,
        foldlM_edgeStep boundary H es out.1 out.2 (z + 1)]
      rcases es.mapM (edgeRowAt boundary H) with _ | rs
      · rfl
      · simp [writeRows, hw, Nat.add_assoc, Nat.add_comm 1]

theorem getConstraintsWith_eq (boundary : α) (H : PointCloud α) (I : List (List Nat))
    (A : Matrix α) (b : Vector α) :
    getConstraintsWith boundary H I A b =
      (constraintRows boundary H I).bind fun rs =>
        writeRows rs 0 (A.resize H.length 2) (b.resize H.length) := by
  simp only [getConstraintsWith, bind, outer_loop_eq, foldlM_edgeStep, constraintRows,
    Option.bind_assoc, pure]
  cases (I.flatMap edges).mapM (edgeRowAt boundary H) with
  | none => rfl
  | some rs =>
    simp only [Option.some_bind]
    cases writeRows rs 0 _ _ <;> rfl

theorem getConstraintsWith_fill {boundary : α} {H : PointCloud α} {I : List (List Nat)}
    {rs : List (Row α)} (hrs : constraintRows boundary H I = some rs) (hn : rs.length = H.length)
    (A : Matrix α) (b : Vector α) : getConstraintsWith boundary H I A b = some (buffersOf rs) := by
  rw [getConstraintsWith_eq, hrs, Option.some_bind,
    writeRows_fill (shape_resize A b H.length) rs hn]

theorem getConstraintsWith_get {boundary : α} {H : PointCloud α} {I : List (List Nat)}
    {rs : List (Row α)} (hrs : constraintRows boundary H I = some rs) {A A' : Matrix α}
    {b b' : Vector α} (h : getConstraintsWith boundary H I A b = some (A', b')) {z : Nat}
    {r : Row α} (hz : rs[z]? = some r) :
    A'.rows[z]? = some r.cells ∧ b'.cells[z]? = some (some r.b) := by
  rw [getConstraintsWith_eq, hrs, Option.some_bind] at h
  simpa [hz] using writeRows_get rs (shape_resize A b H.length) h z

-- ---------------------------------------------------------------------------
-- What is written
-- ---------------------------------------------------------------------------

theorem length_flatMap_edges (I : List (List Nat)) :
    (I.flatMap edges).length = (I.map List.length).sum := by
  induction I with
  | nil => rfl
  | cons vs I ih => simp [ih]

theorem constraintRows_eq_some (boundary : α) (H : PointCloud α) (I : List (List Nat))
    (hI : ∀ vs ∈ I, ∀ i ∈ vs, i < H.length) :
    ∃ rs, constraintRows boundary H I = some rs ∧ rs.length = (I.map List.length).sum ∧
      ∀ z : Nat, rs[z]? = (I.flatMap edges)[z]?.bind (edgeRowAt boundary H) := by
  obtain ⟨rs, hrs, hlen, hget⟩ := mapM_eq_some (edgeRowAt boundary H) (I.flatMap edges) (by
    intro e he
    obtain ⟨vs, hvs, he⟩ := List.mem_flatMap.mp he
    have h1 : e.1 ∈ vs := (List.of_mem_zip he).1
    have h2 : e.2 ∈ vs := (List.mem_rotate.mp (List.of_mem_zip he).2)
    simp [edgeRowAt, List.getElem?_eq_getElem (hI vs hvs _ h1),
      List.getElem?_eq_getElem (hI vs hvs _ h2)])
  exact ⟨rs, hrs, hlen.trans (length_flatMap_edges I), hget⟩

/-- The two loops write row `z` of `A` and `b` once for each `z < E`, `E` the number of
edges, with the row of the `z`-th edge in loop-then-vertex order. The writes stay inside
the `|H|` rows `resize` allocates exactly when `E ≤ |H|`, and the buffers come back holding
exactly the edges' rows exactly when `E = |H|`. On success both buffers have `|H|` rows,
and the rows past the last edge keep what `resize` left there. -/
theorem getConstraints_writes_rows (boundary : α) (H : PointCloud α) (I : List (List Nat))
    (hI : ∀ vs ∈ I, ∀ i ∈ vs, i < H.length) (A : Matrix α) (b : Vector α) :
    ∃ rs, constraintRows boundary H I = some rs ∧ rs.length = (I.map List.length).sum ∧
      (∀ z : Nat, rs[z]? = (I.flatMap edges)[z]?.bind (edgeRowAt boundary H)) ∧
      getConstraintsWith boundary H I A b =
        writeRows rs 0 (A.resize H.length 2) (b.resize H.length) ∧
      ((getConstraintsWith boundary H I A b).isSome ↔ rs.length ≤ H.length) ∧
      (getConstraintsWith boundary H I A b = some (buffersOf rs) ↔ rs.length = H.length) ∧
      (∀ A' b', getConstraintsWith boundary H I A b = some (A', b') →
        A'.rows.length = H.length ∧ b'.cells.length = H.length ∧
        ∀ i : Nat, A'.rows[i]? = (rs[i]?.map Row.cells).or (A.resize H.length 2).rows[i]? ∧
          b'.cells[i]? = (rs[i]?.map (some ·.b)).or (b.resize H.length).cells[i]?) := by
  obtain ⟨rs, hrs, hlen, hget⟩ := constraintRows_eq_some boundary H I hI
  have heq : getConstraintsWith boundary H I A b =
      writeRows rs 0 (A.resize H.length 2) (b.resize H.length) := by
    rw [getConstraintsWith_eq, hrs, Option.some_bind]
  have hs := shape_resize A b H.length
  refine ⟨rs, hrs, hlen, hget, heq, ?_,
    ⟨fun h => ?_, fun h => getConstraintsWith_fill hrs h A b⟩, ?_⟩
  · rw [heq, writeRows_isSome rs hs (Nat.zero_le _), Nat.zero_add]
  · exact (List.length_map rs _).symm.trans (writeRows_shape rs hs (heq ▸ h)).rows
  · intro A' b' h
    rw [heq] at h
    have hs' := writeRows_shape rs hs h
    refine ⟨hs'.rows, hs'.cells, fun i => ?_⟩
    simpa using writeRows_get rs hs h i

/-- A triangle listed once: three edges fill the three rows. -/
theorem getConstraints_writes_rows_triangle :
    (∀ vs ∈ [[0, 1, 2]], ∀ i ∈ vs,
      i < ([⟨1, 0, 0⟩, ⟨0, 1, 0⟩, ⟨-1, -1, 0⟩] : PointCloud ℝ).length) ∧
    ∃ rs, getConstraints ([⟨1, 0, 0⟩, ⟨0, 1, 0⟩, ⟨-1, -1, 0⟩] : PointCloud ℝ) [[0, 1, 2]]
      ⟨[]⟩ ⟨[]⟩ = some (buffersOf rs) := by
  obtain ⟨rs, -, hlen, -, -, -, hfill, -⟩ := getConstraints_writes_rows chBoundary
    ([⟨1, 0, 0⟩, ⟨0, 1, 0⟩, ⟨-1, -1, 0⟩] : PointCloud ℝ) [[0, 1, 2]] (by decide) ⟨[]⟩ ⟨[]⟩
  exact ⟨by decide, rs, hfill.mpr (by simp [hlen])⟩

end SupportPolygon
