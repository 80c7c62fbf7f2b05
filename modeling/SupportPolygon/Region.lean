import SupportPolygon.Winding

/-!
# The region a hull loop's rows describe

When the origin is inside a convex polygon, the origin's side of every edge line is the
polygon's side, so without margin the rows of its loop describe exactly the polygon, and a
margin only removes points from it (`getConstraints_region`).
-/

namespace SupportPolygon

variable {α : Type}

theorem mapM_zip {β γ δ : Type} (g : β → Option γ) (F : γ → γ → δ) :
    ∀ (l₁ l₂ : List β) (q₁ q₂ : List γ), l₁.mapM g = some q₁ → l₂.mapM g = some q₂ →
      (l₁.zip l₂).mapM (fun e => (g e.1).bind fun a => (g e.2).bind fun b => some (F a b)) =
        some ((q₁.zip q₂).map fun e => F e.1 e.2)
  | [], _, q₁, _, h₁, _ => by rw [List.mapM_nil] at h₁; cases h₁; rfl
  | _ :: _, [], _, q₂, _, h₂ => by
    rw [List.mapM_nil] at h₂; cases h₂; rw [List.zip_nil_right, List.mapM_nil, List.zip_nil_right]; rfl
  | x :: l₁, y :: l₂, q₁, q₂, h₁, h₂ => by
    obtain ⟨a, r₁, hx, hl₁, rfl⟩ := mapM_cons_eq_some.mp h₁
    obtain ⟨b, r₂, hy, hl₂, rfl⟩ := mapM_cons_eq_some.mp h₂
    rw [List.zip_cons_cons, List.mapM_cons, mapM_zip g F l₁ l₂ r₁ r₂ hl₁ hl₂]
    simp [hx, hy, bind, pure]

section Rows

variable [LinearOrderedField α]

theorem constraintRows_loop (boundary : α) (H : PointCloud α) {L : List Nat}
    {ps : List (PointXYZ α)} (hps : L.mapM (fun i => H[i]?) = some ps) :
    constraintRows boundary H [L] = some (loopRows boundary ps) := by
  have hrot : (L.rotate 1).mapM (fun i => H[i]?) = some (ps.rotate 1) := by
    rw [mapM_rotate, hps]; rfl
  simp only [constraintRows, List.flatMap_cons, List.flatMap_nil, List.append_nil, edges]
  exact mapM_zip (fun i => H[i]?) (fun p0 p1 => edgeRow boundary (getLineCoefficients p0 p1))
    L (L.rotate 1) ps (ps.rotate 1) hps hrot

theorem feasible_loopRows (boundary : α) (ps : List (PointXYZ α)) :
    feasible (loopRows boundary ps) =
      {p | ∀ e ∈ edges ps, p ∈ (edgeRow boundary (getLineCoefficients e.1 e.2)).halfPlane} := by
  ext p
  simp only [feasible, loopRows, List.mem_map, Set.mem_setOf_eq]
  exact ⟨fun h e he => h _ ⟨e, he, rfl⟩, fun h r ⟨e, he, hr⟩ => hr ▸ h e he⟩

theorem feasible_loopRows_of_inside (boundary : α) (w : Winding) (ps : List (PointXYZ α))
    (h0 : ∀ e ∈ edges (ps.map PointXYZ.xy), 0 < w.sign * area e.1 e.2 0) :
    feasible (loopRows boundary ps) =
      {p | ∀ e ∈ edges ps, min |area e.1.xy e.2.xy 0| boundary ≤ w.sign * area e.1.xy e.2.xy p} := by
  rw [feasible_loopRows]
  ext p
  simp only [Set.mem_setOf_eq]
  refine forall₂_congr fun e he => ?_
  have hpos := h0 (e.1.xy, e.2.xy) (by rw [edges_map]; exact List.mem_map_of_mem _ he)
  have hside : side (area e.1.xy e.2.xy 0) = w.sign := by
    unfold side
    cases w <;> simp only [Winding.sign] at hpos ⊢ <;> split_ifs with h <;> linarith
  rw [mem_halfPlane_edge, hside]

theorem feasible_loopRows_anti {m₁ m₂ : α} (h : m₁ ≤ m₂) (ps : List (PointXYZ α)) :
    feasible (loopRows m₂ ps) ⊆ feasible (loopRows m₁ ps) := by
  rw [feasible_loopRows, feasible_loopRows]
  exact fun p hp e he => halfPlane_edgeRow_anti h _ (hp e he)

theorem feasible_loopRows_zero (w : Winding) (ps : List (PointXYZ α))
    (h0 : ∀ e ∈ edges (ps.map PointXYZ.xy), 0 < w.sign * area e.1 e.2 0) :
    feasible (loopRows 0 ps) = Enclosed w (ps.map PointXYZ.xy) := by
  rw [feasible_loopRows_of_inside 0 w ps h0]
  ext p
  simp only [Set.mem_setOf_eq, Enclosed, edges_map, List.forall_mem_map, Prod.map_fst,
    Prod.map_snd]
  exact forall₂_congr fun e _ => by rw [min_eq_right (abs_nonneg _)]

end Rows

-- ---------------------------------------------------------------------------
-- The origin inside the polygon
-- ---------------------------------------------------------------------------

open Filter Topology

variable {w : Winding} {vs : List (ℝ × ℝ)}

theorem inside_of_mem_interior (h : IsConvexLoop w vs) (h0 : (0 : ℝ × ℝ) ∈ interior (polygon vs)) :
    ∀ e ∈ edges vs, 0 < w.sign * area e.1 e.2 0 := by
  intro e he
  set d := e.2 - e.1
  have hd : 0 < d.1 * d.1 + d.2 * d.2 := by
    rcases ne_or_eq d.1 0 with h1 | h1
    · exact add_pos_of_pos_of_nonneg (mul_self_pos.mpr h1) (mul_self_nonneg _)
    · have h2 : d.2 ≠ 0 := fun h2 => (h.fst_ne_snd he).symm (sub_eq_zero.mp (Prod.ext h1 h2))
      exact add_pos_of_nonneg_of_pos (mul_self_nonneg _) (mul_self_pos.mpr h2)
  -- `u` is the edge's normal pointing away from the polygon
  set u : ℝ × ℝ := (w.sign : ℝ) • (d.2, -d.1)
  have hnear : ∀ᶠ t in 𝓝 (0 : ℝ), t • u ∈ polygon vs :=
    ((continuous_id.smul continuous_const).tendsto' 0 0 (zero_smul ℝ u)).eventually
      (mem_interior_iff_mem_nhds.mp h0)
  obtain ⟨t, htu, ht⟩ := ((hnear.filter_mono nhdsWithin_le_nhds).and
    (self_mem_nhdsWithin (s := Set.Ioi (0 : ℝ)))).exists
  have key : w.sign * area e.1 e.2 (t • u) =
      w.sign * area e.1 e.2 0 - t * (d.1 * d.1 + d.2 * d.2) := by
    have hs := Winding.sign_mul_self (α := ℝ) w
    simp only [area, u, d, Prod.smul_fst, Prod.smul_snd, smul_eq_mul, Prod.fst_zero,
      Prod.snd_zero, Prod.fst_sub, Prod.snd_sub] at hs ⊢
    linear_combination (-t * ((e.2.1 - e.1.1) * (e.2.1 - e.1.1) +
      (e.2.2 - e.1.2) * (e.2.2 - e.1.2))) * hs
  have h1 : 0 ≤ w.sign * area e.1 e.2 (t • u) := polygon_subset_enclosed h htu e he
  rw [key] at h1
  by_contra hle
  linarith [mul_pos (Set.mem_Ioi.mp ht) hd, not_lt.mp hle]

theorem zero_mem_interior_of_inside (h : IsConvexLoop w vs)
    (h0 : ∀ e ∈ edges vs, 0 < w.sign * area e.1 e.2 0) :
    (0 : ℝ × ℝ) ∈ interior (polygon vs) := by
  rw [← enclosed_eq_polygon h]
  refine interior_maximal (t := {p | ∀ e ∈ edges vs, 0 < w.sign * area e.1 e.2 p})
    (fun p hp e he => (hp e he).le) ?_ h0
  simp only [Set.setOf_forall]
  exact (List.finite_toSet (edges vs)).isOpen_biInter fun e _ =>
    isOpen_lt continuous_const (by unfold area; fun_prop)

/-- The rows of a convex hull loop, for every margin. Whatever the input, every bound the
loops compute is nonnegative and the origin satisfies every such row. When the loop lists as
many vertices as the hull cloud has points, the buffers come back holding exactly its rows.
When the origin is inside the polygon, the rows without margin describe exactly the polygon,
and a larger margin a smaller region inside it; when the origin is outside the polygon, the
region is not inside it. -/
theorem getConstraints_region (H : PointCloud ℝ) (L : List Nat) (ps : List (PointXYZ ℝ))
    (hps : L.mapM (fun i => H[i]?) = some ps) (hL : L.length = H.length) (w : Winding)
    (hconv : IsConvexLoop w (ps.map PointXYZ.xy)) :
    (∀ (H' : PointCloud ℝ) (I : List (List Nat)) (m : ℝ) (rs : List (Row ℝ)),
      constraintRows m H' I = some rs → ∀ r ∈ rs, 0 ≤ r.b ∧ (0 : ℝ × ℝ) ∈ r.halfPlane) ∧
    (∀ (m : ℝ) (A : Yarp.Matrix ℝ) (b : Yarp.Vector ℝ),
      getConstraintsWith m H [L] A b = some (buffersOf (loopRows m ps))) ∧
    ((0 : ℝ × ℝ) ∈ interior (polygon (ps.map PointXYZ.xy)) →
      feasible (loopRows 0 ps) = polygon (ps.map PointXYZ.xy) ∧
      ∀ m₁ m₂ : ℝ, 0 ≤ m₁ → m₁ ≤ m₂ →
        feasible (loopRows m₂ ps) ⊆ feasible (loopRows m₁ ps) ∧
        feasible (loopRows m₁ ps) ⊆ feasible (loopRows 0 ps)) ∧
    ((0 : ℝ × ℝ) ∉ polygon (ps.map PointXYZ.xy) →
      ∀ m : ℝ, ¬ feasible (loopRows m ps) ⊆ polygon (ps.map PointXYZ.xy)) := by
  have hlen : ∀ m : ℝ, (loopRows m ps).length = H.length := fun m => by
    rw [loopRows, List.length_map, length_edges, ← hL, length_of_mapM_eq_some hps]
  refine ⟨fun _ _ _ _ h => constraintRows_b_nonneg h,
    fun m => getConstraintsWith_fill (constraintRows_loop m H hps) (hlen m),
    fun h0 => ⟨?_, fun m₁ m₂ h₁ h₁₂ => ⟨feasible_loopRows_anti h₁₂ ps,
      feasible_loopRows_anti h₁ ps⟩⟩, fun h0 m hsub => h0 (hsub ?_)⟩
  · rw [feasible_loopRows_zero w ps (inside_of_mem_interior hconv h0), enclosed_eq_polygon hconv]
  · exact fun r hr => (constraintRows_b_nonneg (constraintRows_loop m H hps) r hr).2

-- ---------------------------------------------------------------------------
-- The square test case
-- ---------------------------------------------------------------------------

/-- The square with corners `(±1, ±1)`, listed clockwise. -/
def squareCloud : PointCloud ℝ := [⟨1, 1, 0⟩, ⟨1, -1, 0⟩, ⟨-1, -1, 0⟩, ⟨-1, 1, 0⟩]

theorem squareCloud_convex : IsConvexLoop .cw (squareCloud.map PointXYZ.xy) := by
  refine ⟨by simp [squareCloud], by simp [squareCloud, PointXYZ.xy, Prod.ext_iff]; norm_num, ?_⟩
  simp only [squareCloud, List.map_cons, List.map_nil, PointXYZ.xy, edges_cons, List.cons_append,
    List.nil_append, List.zip_cons_cons, List.zip_nil_right, List.mem_cons, List.mem_singleton,
    List.not_mem_nil, or_false]
  rintro e (rfl | rfl | rfl | rfl) v (rfl | rfl | rfl | rfl) h1 h2 <;>
    norm_num [area, Winding.sign] at h1 h2 ⊢

theorem squareCloud_interior : (0 : ℝ × ℝ) ∈ interior (polygon (squareCloud.map PointXYZ.xy)) := by
  refine zero_mem_interior_of_inside squareCloud_convex ?_
  simp only [squareCloud, List.map_cons, List.map_nil, PointXYZ.xy, edges_cons, List.cons_append,
    List.nil_append, List.zip_cons_cons, List.zip_nil_right, List.mem_cons, List.mem_singleton,
    List.not_mem_nil, or_false]
  rintro e (rfl | rfl | rfl | rfl) <;> norm_num [area, Winding.sign]

/-- On the square, the buffers hold its four rows, and without margin they describe exactly
the square. -/
theorem getConstraints_region_square :
    ([0, 1, 2, 3] : List Nat).mapM (fun i => squareCloud[i]?) = some squareCloud ∧
    ([0, 1, 2, 3] : List Nat).length = squareCloud.length ∧
    IsConvexLoop .cw (squareCloud.map PointXYZ.xy) ∧
    getConstraints squareCloud [[0, 1, 2, 3]] ⟨[]⟩ ⟨[]⟩ =
      some (buffersOf (loopRows chBoundary squareCloud)) ∧
    feasible (loopRows 0 squareCloud) = polygon (squareCloud.map PointXYZ.xy) :=
  ⟨rfl, rfl, squareCloud_convex,
    (getConstraints_region squareCloud [0, 1, 2, 3] squareCloud rfl rfl .cw
      squareCloud_convex).2.1 chBoundary ⟨[]⟩ ⟨[]⟩,
    ((getConstraints_region squareCloud [0, 1, 2, 3] squareCloud rfl rfl .cw
      squareCloud_convex).2.2.1 squareCloud_interior).1⟩

/-- The square with the origin as a fifth hull point, which the loop `0, 1, 2, 3` does not
list. The loop writes four rows; the fifth keeps the caller's row `0 x + 0 y ≤ -5`, whose
bound is negative and which no point satisfies. -/
theorem getConstraints_region_stale_row :
    ([0, 1, 2, 3] : List Nat).mapM (fun i => (squareCloud ++ [⟨0, 0, 0⟩])[i]?) =
      some squareCloud ∧
    IsConvexLoop .cw (squareCloud.map PointXYZ.xy) ∧
    (0 : ℝ × ℝ) ∈ interior (polygon (squareCloud.map PointXYZ.xy)) ∧
    getConstraints (squareCloud ++ [⟨0, 0, 0⟩]) [[0, 1, 2, 3]]
        ⟨List.replicate 5 [some 0, some 0]⟩ ⟨List.replicate 4 (some 0) ++ [some (-5)]⟩ =
      some (buffersOf (loopRows chBoundary squareCloud ++ [⟨0, 0, -5⟩])) ∧
    feasible (loopRows chBoundary squareCloud ++ [⟨0, 0, -5⟩]) = ∅ := by
  have hps : ([0, 1, 2, 3] : List Nat).mapM (fun i => (squareCloud ++ [⟨0, 0, 0⟩])[i]?) =
      some squareCloud := rfl
  refine ⟨hps, squareCloud_convex, squareCloud_interior, ?_, ?_⟩
  · rw [getConstraints, getConstraintsWith_eq, constraintRows_loop chBoundary _ hps,
      Option.some_bind, writeRows_zero (shape_resize _ _ _) _ (by decide)]
    rfl
  · refine Set.eq_empty_of_forall_not_mem fun p hp => ?_
    have := hp _ (List.mem_append_right _ (List.mem_singleton_self _))
    norm_num [Row.halfPlane] at this

end SupportPolygon
