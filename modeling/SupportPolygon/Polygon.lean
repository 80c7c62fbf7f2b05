import Mathlib

/-!
# Convex polygons given by a loop of vertices

The edges of a loop join each vertex to the next and the last to the first, in the order
the inner loop of `getConstraints` visits them. For a convex loop, the points on the inner
side of every edge line are exactly the convex hull of the vertices
(`enclosed_eq_polygon`), by a fan triangulation from the first vertex.
-/

namespace SupportPolygon

variable {α β : Type}

/-- The edges of a closed loop: vertex `j` to vertex `(j + 1) % n`, for `j < n`. -/
def edges (vs : List β) : List (β × β) := vs.zip (vs.rotate 1)

theorem edges_cons (v : β) (vs : List β) : edges (v :: vs) = (v :: vs).zip (vs ++ [v]) := by
  simp [edges, List.rotate_cons_succ]

@[simp] theorem length_edges (vs : List β) : (edges vs).length = vs.length := by
  simp [edges]

theorem map_range_edges (vs : List β) :
    (List.range vs.length).map (fun j => (vs[j]?, vs[(j + 1) % vs.length]?)) =
      (edges vs).map fun e => (some e.1, some e.2) := by
  apply List.ext_getElem (by simp)
  intro j h1 h2
  have hj : j < vs.length := by simpa using h1
  have hk : (j + 1) % vs.length < vs.length := Nat.mod_lt _ (by omega)
  simp [edges, List.getElem_rotate, hj, hk]

theorem edges_map {γ : Type} (f : β → γ) (vs : List β) :
    edges (vs.map f) = (edges vs).map (Prod.map f f) := by
  simp [edges, ← List.map_rotate, List.zip_map]

theorem edges_split (v x y : β) (t : List β) :
    edges (v :: x :: (t ++ [y])) = (v, x) :: ((x :: t).zip (t ++ [y]) ++ [(y, v)]) := by
  rw [edges_cons, List.cons_append, List.zip_cons_cons]
  congr 1
  rw [show x :: (t ++ [y]) = (x :: t) ++ [y] from rfl, List.zip_append (by simp)]
  rfl

section Geometry

variable [LinearOrderedField α]

/-- Twice the signed area of the triangle `p q r`: positive when `r` lies to the left
of the line from `p` to `q`. -/
def area (p q r : α × α) : α := (q.1 - p.1) * (r.2 - p.2) - (q.2 - p.2) * (r.1 - p.1)

theorem area_rotate (p q r : α × α) : area q r p = area p q r := by unfold area; ring

theorem area_swap (p q r : α × α) : area q p r = -area p q r := by unfold area; ring

theorem area_swap_right (p q r : α × α) : area p r q = -area p q r := by unfold area; ring

@[simp] theorem area_left (p r : α × α) : area p p r = 0 := by simp [area]

@[simp] theorem area_right (p q : α × α) : area p q q = 0 := by unfold area; ring

@[simp] theorem area_start (p q : α × α) : area p q p = 0 := by simp [area]

theorem area_add_smul (p q x y : α × α) {s t : α} (h : s + t = 1) :
    area p q (s • x + t • y) = s * area p q x + t * area p q y := by
  simp only [area, Prod.fst_add, Prod.snd_add, Prod.smul_fst, Prod.smul_snd, smul_eq_mul]
  linear_combination ((q.1 - p.1) * p.2 - (q.2 - p.2) * p.1) * h

/-- The two ways a hull loop can turn. -/
inductive Winding
  | ccw
  | cw
  deriving DecidableEq, Repr

/-- `1` for a counter-clockwise loop, `-1` for a clockwise one. -/
def Winding.sign : Winding → α
  | .ccw => 1
  | .cw => -1

@[simp] theorem Winding.sign_mul_self (w : Winding) : w.sign * w.sign = (1 : α) := by
  cases w <;> simp [Winding.sign]

theorem Winding.sign_ne_zero (w : Winding) : w.sign ≠ (0 : α) := by
  cases w <;> simp [Winding.sign]

/-- `vs` lists, in order and turning `w`, the vertices of a convex polygon with nonempty
interior: at least three distinct points, and every vertex off an edge strictly on the
inner side of that edge's line. -/
structure IsConvexLoop (w : Winding) (vs : List (α × α)) : Prop where
  three_le : 3 ≤ vs.length
  nodup : vs.Nodup
  inner : ∀ e ∈ edges vs, ∀ v ∈ vs, v ≠ e.1 → v ≠ e.2 → 0 < w.sign * area e.1 e.2 v

/-- The points on the inner side of every edge line of the loop, or on it. -/
def Enclosed (w : Winding) (vs : List (α × α)) : Set (α × α) :=
  {p | ∀ e ∈ edges vs, 0 ≤ w.sign * area e.1 e.2 p}

/-- The polygon a loop lists the vertices of: their convex hull. -/
def polygon (vs : List (α × α)) : Set (α × α) := convexHull α {v | v ∈ vs}

-- ---------------------------------------------------------------------------
-- Triangles
-- ---------------------------------------------------------------------------

theorem mem_convexHull_triangle {a b c p : α × α} {σ : α} (hT : 0 < σ * area a b c)
    (ha : 0 ≤ σ * area b c p) (hb : 0 ≤ σ * area c a p) (hc : 0 ≤ σ * area a b p) :
    p ∈ convexHull α {a, b, c} := by
  have hsum : σ * area b c p + σ * area c a p + σ * area a b p = σ * area a b c := by
    simp only [area]; ring
  have hcomb : (σ * area b c p) • a + (σ * area c a p) • b + (σ * area a b p) • c =
      (σ * area a b c) • p := by
    ext <;> simp only [area, Prod.fst_add, Prod.snd_add, Prod.smul_fst, Prod.smul_snd,
      smul_eq_mul] <;> ring
  have hp : p = (σ * area b c p + σ * area c a p + σ * area a b p)⁻¹ •
      ((σ * area b c p) • a + (σ * area c a p) • b + (σ * area a b p) • c) := by
    rw [hsum, hcomb, smul_smul, inv_mul_cancel₀ hT.ne', one_smul]
  have h := Finset.centerMass_mem_convexHull (R := α) (s := ({a, b, c} : Set (α × α)))
    Finset.univ (w := ![σ * area b c p, σ * area c a p, σ * area a b p]) (z := ![a, b, c])
    (fun i _ => by fin_cases i; exacts [ha, hb, hc])
    (by rw [Fin.sum_univ_three]; exact lt_of_lt_of_eq hT hsum.symm)
    (fun i _ => by
      fin_cases i
      exacts [Set.mem_insert _ _, Set.mem_insert_of_mem _ (Set.mem_insert _ _),
        Set.mem_insert_of_mem _ (Set.mem_insert_of_mem _ rfl)])
  simp only [Finset.centerMass, Fin.sum_univ_three, Matrix.cons_val_zero, Matrix.cons_val_one,
    Matrix.head_cons, Matrix.cons_val_two, Matrix.tail_cons] at h
  rwa [← hp] at h

-- ---------------------------------------------------------------------------
-- The fan from the first vertex
-- ---------------------------------------------------------------------------

theorem triple_subset {a b c : β} {l : List β} (ha : a ∈ l) (hb : b ∈ l) (hc : c ∈ l) :
    ({a, b, c} : Set β) ⊆ {v | v ∈ l} := by
  rintro v (rfl | rfl | rfl) <;> assumption

theorem mem_fan_triangle {σ : α} {v0 x z p : α × α} (hv : 0 < σ * area x z v0)
    (hp : 0 ≤ σ * area x z p) (hx : 0 ≤ σ * area v0 x p) (hz : σ * area v0 z p ≤ 0) :
    p ∈ convexHull α {v0, x, z} :=
  mem_convexHull_triangle (by rwa [← area_rotate]) hp
    (by rw [← area_rotate, area_swap_right, mul_neg]; linarith) hx

theorem mem_fan (σ : α) (v0 p y : α × α) :
    ∀ (t : List (α × α)) (x : α × α),
      (∀ e ∈ (x :: t).zip (t ++ [y]), 0 ≤ σ * area e.1 e.2 p ∧ 0 < σ * area e.1 e.2 v0) →
      0 ≤ σ * area v0 x p → σ * area v0 y p ≤ 0 →
      p ∈ convexHull α {v | v ∈ v0 :: x :: (t ++ [y])} := by
  intro t
  induction t with
  | nil =>
    intro x he hx hy
    obtain ⟨hp, hv⟩ := he (x, y) (by simp)
    exact convexHull_mono (triple_subset (by simp) (by simp) (by simp))
      (mem_fan_triangle hv hp hx hy)
  | cons z t ih =>
    intro x he hx hy
    obtain ⟨hp, hv⟩ := he (x, z) (by simp)
    by_cases hz : σ * area v0 z p ≤ 0
    · exact convexHull_mono (triple_subset (by simp) (by simp) (by simp))
        (mem_fan_triangle hv hp hx hz)
    · exact convexHull_mono
        (fun _ hv => List.mem_cons.mpr ((List.mem_cons.mp hv).imp_right (List.mem_cons_of_mem x)))
        (ih z (fun e he' => he e (List.mem_cons_of_mem _ he')) (le_of_lt (not_le.mp hz)) hy)

-- ---------------------------------------------------------------------------
-- The polygon is the intersection of its edge half-planes
-- ---------------------------------------------------------------------------

variable {w : Winding} {vs : List (α × α)}

theorem IsConvexLoop.fst_ne_snd (h : IsConvexLoop w vs) {e : (α × α) × (α × α)}
    (he : e ∈ edges vs) : e.1 ≠ e.2 := by
  classical
  obtain ⟨v, hv, h1, h2⟩ : ∃ v ∈ vs, v ≠ e.1 ∧ v ≠ e.2 := by
    by_contra hno
    push_neg at hno
    have hsub : vs.toFinset ⊆ {e.1, e.2} := by
      intro v hv
      by_cases h1 : v = e.1
      · simp [h1]
      · simp [hno v (List.mem_toFinset.mp hv) h1]
    have := (Finset.card_le_card hsub).trans Finset.card_le_two
    rw [List.toFinset_card_of_nodup h.nodup] at this
    exact absurd h.three_le (by omega)
  intro heq
  have := h.inner e he v hv h1 h2
  rw [heq, area_left, mul_zero] at this
  exact lt_irrefl _ this

theorem IsConvexLoop.mem_enclosed (h : IsConvexLoop w vs) {v : α × α} (hv : v ∈ vs) :
    v ∈ Enclosed w vs := by
  intro e he
  by_cases h1 : v = e.1
  · simp [h1]
  by_cases h2 : v = e.2
  · simp [h2]
  exact le_of_lt (h.inner e he v hv h1 h2)

theorem convex_enclosed (w : Winding) (vs : List (α × α)) : Convex α (Enclosed w vs) := by
  intro x hx y hy s t hs ht hst e he
  rw [area_add_smul _ _ _ _ hst, mul_add, ← mul_assoc, ← mul_assoc, mul_comm w.sign s,
    mul_comm w.sign t, mul_assoc, mul_assoc]
  exact add_nonneg (mul_nonneg hs (hx e he)) (mul_nonneg ht (hy e he))

theorem polygon_subset_enclosed (h : IsConvexLoop w vs) : polygon vs ⊆ Enclosed w vs :=
  convexHull_min (fun _ hv => h.mem_enclosed hv) (convex_enclosed w vs)

theorem exists_split (vs : List β) (h : 3 ≤ vs.length) :
    ∃ v x y t, vs = v :: x :: (t ++ [y]) := by
  match vs, h with
  | v :: x :: z :: u, _ =>
    obtain ⟨t, y, ht⟩ : ∃ t y, z :: u = t ++ [y] :=
      ⟨(z :: u).dropLast, (z :: u).getLast (by simp), (List.dropLast_append_getLast _).symm⟩
    exact ⟨v, x, y, t, by rw [ht]⟩

theorem enclosed_subset_polygon (h : IsConvexLoop w vs) : Enclosed w vs ⊆ polygon vs := by
  intro p hp
  obtain ⟨v, x, y, t, rfl⟩ := exists_split vs h.three_le
  have hE := edges_split v x y t
  have hv : v ∉ x :: (t ++ [y]) := (List.nodup_cons.mp h.nodup).1
  apply mem_fan w.sign v p y t x
  · intro e he
    have heE : e ∈ edges (v :: x :: (t ++ [y])) := by rw [hE]; simp [he]
    refine ⟨hp e heE, h.inner e heE v (by simp) ?_ ?_⟩
    · rintro rfl
      exact hv (List.mem_cons.mpr ((List.mem_cons.mp (List.of_mem_zip he).1).imp_right
        (List.mem_append_left _)))
    · rintro rfl
      exact hv (List.mem_cons_of_mem x (List.of_mem_zip he).2)
  · exact hp (v, x) (by rw [hE]; simp)
  · have : 0 ≤ w.sign * area y v p := hp (y, v) (by rw [hE]; simp)
    rw [area_swap, mul_neg] at this
    linarith

theorem enclosed_eq_polygon (h : IsConvexLoop w vs) : Enclosed w vs = polygon vs :=
  (enclosed_subset_polygon h).antisymm (polygon_subset_enclosed h)

end Geometry

end SupportPolygon
