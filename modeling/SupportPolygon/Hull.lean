import SupportPolygon.Polygon
import SupportPolygon.Cloud

/-!
# The hull library

`getConvexHull` takes `pcl::ConvexHull::reconstruct` as a parameter, so what is proved of
the object holds for every library. `reconstruct` here is a reference model on the plane
`z = 0`: Andrew's monotone chain. It reports no polygon, or one polygon that lists every
point it returns once (`reconstruct_cases`); none for fewer than three points, nor for
points on one line (`reconstruct_of_onOneLine`).
-/

namespace SupportPolygon

variable {α : Type} [LinearOrderedField α]

def xyLE (p q : PointXYZ α) : Prop := p.x < q.x ∨ (p.x = q.x ∧ p.y ≤ q.y)

instance : DecidableRel (xyLE (α := α)) := fun p q =>
  inferInstanceAs (Decidable (p.x < q.x ∨ (p.x = q.x ∧ p.y ≤ q.y)))

/-- Push `p` on a chain kept as a stack, last vertex first, after popping the vertices at
which the chain would not turn left. -/
def pushHull : List (PointXYZ α) → PointXYZ α → List (PointXYZ α)
  | [], p => [p]
  | b :: st, p =>
    match st with
    | [] => [p, b]
    | a :: _ => if area a.xy b.xy p.xy ≤ 0 then pushHull st p else p :: b :: st

/-- The chain through points in sorted order, first point first. -/
def halfHull (pts : List (PointXYZ α)) : List (PointXYZ α) := (pts.foldl pushHull []).reverse

/-- The reference hull library: the vertices of the hull counterclockwise and one polygon
listing them, or nothing when fewer than three vertices remain. -/
def reconstruct (cloud : PointCloud α) : PointCloud α × List (List Nat) :=
  let sorted := cloud.insertionSort xyLE
  let hull := (halfHull sorted).dropLast ++ (halfHull sorted.reverse).dropLast
  if hull.length < 3 then ([], []) else (hull, [List.range hull.length])

-- ---------------------------------------------------------------------------
-- The chains
-- ---------------------------------------------------------------------------

theorem pushHull_length_le (p : PointXYZ α) :
    ∀ st : List (PointXYZ α), (pushHull st p).length ≤ st.length + 1
  | [] => by simp [pushHull]
  | [_] => by simp [pushHull]
  | b :: a :: st => by
    rw [pushHull]
    split_ifs
    · exact (pushHull_length_le p (a :: st)).trans (by simp)
    · simp

theorem mem_pushHull (p : PointXYZ α) :
    ∀ st : List (PointXYZ α), ∀ q ∈ pushHull st p, q = p ∨ q ∈ st
  | [] => by simp [pushHull]
  | [_] => by simp [pushHull]
  | b :: a :: st => by
    rw [pushHull]
    split_ifs
    · exact fun q hq => (mem_pushHull p (a :: st) q hq).imp_right (List.mem_cons_of_mem b)
    · simp

theorem foldl_pushHull (pts : List (PointXYZ α)) :
    ∀ st : List (PointXYZ α), (pts.foldl pushHull st).length ≤ st.length + pts.length ∧
      ∀ q ∈ pts.foldl pushHull st, q ∈ st ∨ q ∈ pts := by
  induction pts with
  | nil => simp
  | cons p pts ih =>
    intro st
    obtain ⟨hlen, hmem⟩ := ih (pushHull st p)
    refine ⟨by simp only [List.foldl_cons, List.length_cons] at hlen ⊢
               have := pushHull_length_le p st; omega, fun q hq => ?_⟩
    rcases hmem q hq with h | h
    · rcases mem_pushHull p st q h with rfl | h
      · simp
      · exact .inl h
    · exact .inr (List.mem_cons_of_mem p h)

theorem halfHull_length_le (pts : List (PointXYZ α)) : (halfHull pts).length ≤ pts.length := by
  simpa [halfHull] using (foldl_pushHull pts []).1

theorem mem_of_mem_halfHull {pts : List (PointXYZ α)} {q : PointXYZ α} (h : q ∈ halfHull pts) :
    q ∈ pts := by
  simpa [halfHull] using (foldl_pushHull pts []).2 q (List.mem_reverse.mp h)

-- ---------------------------------------------------------------------------
-- What the library returns
-- ---------------------------------------------------------------------------

theorem reconstruct_cases (cloud : PointCloud α) :
    reconstruct cloud = ([], []) ∨
      ∃ hull, reconstruct cloud = (hull, [List.range hull.length]) ∧ 3 ≤ hull.length ∧
        ∀ p ∈ hull, p ∈ cloud := by
  have hperm := List.perm_insertionSort xyLE cloud
  dsimp only [reconstruct]
  split_ifs with h
  · exact .inl rfl
  refine .inr ⟨_, rfl, by omega, fun p hp => ?_⟩
  rcases List.mem_append.mp hp with hp | hp <;>
    have hp := mem_of_mem_halfHull (List.dropLast_subset _ hp)
  · exact hperm.mem_iff.mp hp
  · exact hperm.mem_iff.mp (List.mem_reverse.mp hp)

theorem reconstruct_of_length_lt {cloud : PointCloud α} (h : cloud.length < 3) :
    reconstruct cloud = ([], []) := by
  have hlen := (List.perm_insertionSort xyLE cloud).length_eq
  have h₁ := halfHull_length_le (cloud.insertionSort xyLE)
  have h₂ := halfHull_length_le (cloud.insertionSort xyLE).reverse
  rw [List.length_reverse] at h₂
  dsimp only [reconstruct]
  rw [if_pos (by simp only [List.length_append, List.length_dropLast]; omega)]

-- ---------------------------------------------------------------------------
-- Points on one line
-- ---------------------------------------------------------------------------

/-- Ground points on one line: every three of them span no area. -/
def OnOneLine (vs : List (α × α)) : Prop := ∀ p ∈ vs, ∀ q ∈ vs, ∀ r ∈ vs, area p q r = 0

section OneLine

variable {cloud : PointCloud α} (h : OnOneLine (cloud.map PointXYZ.xy))
include h

theorem pushHull_length_le_two {p : PointXYZ α} (hp : p ∈ cloud) :
    ∀ st : List (PointXYZ α), (∀ q ∈ st, q ∈ cloud) → (pushHull st p).length ≤ 2
  | [], _ => by simp [pushHull]
  | [_], _ => by simp [pushHull]
  | b :: a :: st, hst => by
    have hab : area a.xy b.xy p.xy = 0 :=
      h _ (List.mem_map_of_mem _ (hst a (by simp))) _ (List.mem_map_of_mem _ (hst b (by simp))) _
        (List.mem_map_of_mem _ hp)
    rw [pushHull, if_pos hab.le]
    exact pushHull_length_le_two hp (a :: st) fun q hq => hst q (List.mem_cons_of_mem b hq)

theorem foldl_pushHull_length_le_two (pts : List (PointXYZ α)) (hpts : ∀ p ∈ pts, p ∈ cloud) :
    ∀ st : List (PointXYZ α), (∀ q ∈ st, q ∈ cloud) → st.length ≤ 2 →
      (pts.foldl pushHull st).length ≤ 2 := by
  induction pts with
  | nil => exact fun _ _ hlen => hlen
  | cons p pts ih =>
    intro st hst _
    have hp := hpts p (List.mem_cons_self p pts)
    refine ih (fun q hq => hpts q (List.mem_cons_of_mem p hq)) _ (fun q hq => ?_)
      (pushHull_length_le_two h hp st hst)
    rcases mem_pushHull p st q hq with rfl | hq
    · exact hp
    · exact hst q hq

theorem reconstruct_of_onOneLine : reconstruct cloud = ([], []) := by
  have hperm := List.perm_insertionSort xyLE cloud
  have hsub : ∀ p ∈ cloud.insertionSort xyLE, p ∈ cloud := fun p hp => hperm.mem_iff.mp hp
  have h₁ := foldl_pushHull_length_le_two h _ hsub [] (by simp) (by simp)
  have h₂ := foldl_pushHull_length_le_two h _ (fun p hp => hsub p (List.mem_reverse.mp hp)) []
    (by simp) (by simp)
  dsimp only [reconstruct, halfHull]
  rw [if_pos (by simp only [List.length_append, List.length_dropLast, List.length_reverse]; omega)]

end OneLine

end SupportPolygon
