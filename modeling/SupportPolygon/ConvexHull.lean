import SupportPolygon.Hull
import SupportPolygon.Region

/-!
# One `convex_hull` object over a run of calls

`getConvexHull` appends its points to `_pointCloud` and clears the clouds only when the
library reports one polygon; otherwise it prints that it found more than one polygon,
also when it found none, and returns early (`getConvexHull_logs_error`). So the object is
a machine whose state is the points still pending (`runCalls_eq_runPending`), and a call
that gets no polygon leaves its points to the next (`getConvexHull_keeps_failed_points`).
-/

namespace SupportPolygon

open Yarp

variable {α : Type} [LinearOrderedField α]

-- ---------------------------------------------------------------------------
-- A loop over every hull point
-- ---------------------------------------------------------------------------

theorem mapM_getElem?_range {β : Type} (H : List β) :
    (List.range H.length).mapM (fun i => H[i]?) = some H := by
  obtain ⟨rs, hrs, -, hget⟩ := mapM_eq_some (fun i => H[i]?) (List.range H.length)
    fun i hi => by simp [List.getElem?_eq_getElem (List.mem_range.mp hi)]
  refine hrs.trans (congrArg some (List.ext_getElem? fun i => ?_))
  rcases Nat.lt_or_ge i H.length with hi | hi
  · rw [hget i, List.getElem?_range hi]; rfl
  · rw [hget i, List.getElem?_eq_none (by simpa using hi : (List.range H.length).length ≤ i),
      Option.none_bind, List.getElem?_eq_none hi]

theorem getConstraintsWith_range (boundary : α) (H : PointCloud α) (A : Matrix α)
    (b : Vector α) :
    getConstraintsWith boundary H [List.range H.length] A b =
      some (buffersOf (loopRows boundary H)) :=
  getConstraintsWith_fill (constraintRows_loop boundary H (mapM_getElem?_range H))
    (by simp [loopRows]) A b

-- ---------------------------------------------------------------------------
-- The object
-- ---------------------------------------------------------------------------

/-- The members of `convex_hull`. -/
structure ConvexHull (α : Type) where
  ransacDistanceThr : α
  pointCloud : PointCloud α
  projectedPointCloud : PointCloud α

/-- `convex_hull::convex_hull()`: the threshold `0.001` and two empty clouds. -/
def ConvexHull.new : ConvexHull α := ⟨1 / 1000, [], []⟩

/-- `convex_hull::getConvexHull`, with `huller` answering for the hull library's
`reconstruct`: the object after the call and what the call leaves in `A` and `b`, or
`none` where `getConstraints` writes past the end of the buffers; and the lines the call
prints with `ROS_ERROR`. -/
def getConvexHullCall (huller : PointCloud α → PointCloud α × List (List Nat))
    (self : ConvexHull α) (points : List (KDLVector α)) (A : Matrix α) (b : Vector α) :
    Option (ConvexHull α × Matrix α × Vector α) × List String :=
  let pointCloud := fromSTDList2PCLPointCloud points self.pointCloud
  let projectedPointCloud := projectPCL2Plane pointCloud self.ransacDistanceThr
  let pointsInConvexHull := (huller projectedPointCloud).1
  let indicesOfVertexes := (huller projectedPointCloud).2
  if indicesOfVertexes.length ≠ 1 then
    (some ({ self with pointCloud := pointCloud, projectedPointCloud := projectedPointCloud },
      A, b), ["Error: more than one polygon found!"])
  else
    ((getConstraints pointsInConvexHull indicesOfVertexes A b).map fun out =>
      ({ self with pointCloud := [], projectedPointCloud := [] }, out), [])

/-- What a call of `getConvexHull` leaves in the object, `A` and `b`. -/
def getConvexHull (huller : PointCloud α → PointCloud α × List (List Nat))
    (self : ConvexHull α) (points : List (KDLVector α)) (A : Matrix α) (b : Vector α) :
    Option (ConvexHull α × Matrix α × Vector α) :=
  (getConvexHullCall huller self points A b).1

variable (huller : PointCloud α → PointCloud α × List (List Nat))

/-- The object whose cloud holds the points `pending`, and whose projected cloud holds their
projection. -/
def ConvexHull.holding (pending : List (KDLVector α)) : ConvexHull α :=
  ⟨1 / 1000, pending.map fromKDLVector2PCLPointXYZ,
    projectPCL2Plane (pending.map fromKDLVector2PCLPointXYZ) (1 / 1000)⟩

theorem ConvexHull.holding_nil : ConvexHull.holding [] = (ConvexHull.new : ConvexHull α) := rfl

/-- Whether the library reports exactly one polygon for the points a fresh object is
given: the test `getConvexHull` makes before it writes any row. -/
def reportsOnePolygon (points : List (KDLVector α)) : Bool :=
  (huller (projectPCL2Plane (points.map fromKDLVector2PCLPointXYZ) (1 / 1000))).2.length == 1

theorem getConvexHull_pending (pending points : List (KDLVector α)) (A : Matrix α)
    (b : Vector α) :
    getConvexHull huller (ConvexHull.holding pending) points A b =
      (getConvexHull huller ConvexHull.new (pending ++ points) A b).map fun r =>
        (ConvexHull.holding
          (if reportsOnePolygon huller (pending ++ points) then [] else pending ++ points), r.2) := by
  simp only [getConvexHull, getConvexHullCall, apply_ite Prod.fst, ConvexHull.holding,
    ConvexHull.new, reportsOnePolygon, fromSTDList2PCLPointCloud_eq, List.nil_append,
    List.map_append, beq_iff_eq, ne_eq, ite_not]
  split_ifs with h
  · cases getConstraints _ _ A b <;> rfl
  · simp only [Option.map_some', List.map_append]

theorem getConvexHull_new_of_not_one {points : List (KDLVector α)}
    (h : reportsOnePolygon huller points = false) (A : Matrix α) (b : Vector α) :
    getConvexHull huller ConvexHull.new points A b = some (ConvexHull.holding points, A, b) := by
  simp only [reportsOnePolygon, beq_eq_false_iff_ne] at h
  simp only [getConvexHull, getConvexHullCall, ConvexHull.new, fromSTDList2PCLPointCloud_eq,
    List.nil_append, if_pos h]
  rfl

theorem getConvexHull_new_of_range {points : List (KDLVector α)} {H : PointCloud α}
    (h : huller (projectPCL2Plane (points.map fromKDLVector2PCLPointXYZ) (1 / 1000)) =
      (H, [List.range H.length])) (A : Matrix α) (b : Vector α) :
    getConvexHull huller ConvexHull.new points A b =
      some (ConvexHull.new, buffersOf (loopRows chBoundary H)) := by
  simp only [getConvexHull, getConvexHullCall, ConvexHull.new, fromSTDList2PCLPointCloud_eq,
    List.nil_append, h,
    List.length_singleton, ne_eq, not_true_eq_false, if_false, getConstraints,
    getConstraintsWith_range, Option.map_some']

-- ---------------------------------------------------------------------------
-- Two inputs for the reference library
-- ---------------------------------------------------------------------------

def segmentPoints : List (KDLVector ℝ) := [⟨0, 0, 0⟩, ⟨1, 0, 0⟩]

def trianglePoints : List (KDLVector ℝ) := [⟨-1, -1, 0⟩, ⟨1, -1, 0⟩, ⟨0, 1, 0⟩]

theorem reconstruct_stale_triangle :
    reconstruct (projectPCL2Plane
      ((segmentPoints ++ trianglePoints).map fromKDLVector2PCLPointXYZ) (1 / 1000)) =
      ([⟨-1, -1, 0⟩, ⟨1, -1, 0⟩, ⟨1, 0, 0⟩, ⟨0, 1, 0⟩], [List.range 4]) := by
  norm_num [segmentPoints, trianglePoints, fromKDLVector2PCLPointXYZ, projectPCL2Plane_eq,
    reconstruct, halfHull, pushHull, List.insertionSort, List.orderedInsert, xyLE, area,
    PointXYZ.xy]

theorem reconstruct_triangle :
    reconstruct (projectPCL2Plane (trianglePoints.map fromKDLVector2PCLPointXYZ) (1 / 1000)) =
      ([⟨-1, -1, 0⟩, ⟨1, -1, 0⟩, ⟨0, 1, 0⟩], [List.range 3]) := by
  norm_num [trianglePoints, fromKDLVector2PCLPointXYZ, projectPCL2Plane_eq, reconstruct,
    halfHull, pushHull, List.insertionSort, List.orderedInsert, xyLE, area, PointXYZ.xy]

theorem reportsOnePolygon_segment : reportsOnePolygon reconstruct segmentPoints = false := by
  rw [reportsOnePolygon, reconstruct_of_length_lt (by simp [segmentPoints, projectPCL2Plane])]
  rfl

-- ---------------------------------------------------------------------------
-- What a call prints
-- ---------------------------------------------------------------------------

theorem getConvexHullCall_log (pending points : List (KDLVector α)) (A : Matrix α) (b : Vector α) :
    (getConvexHullCall huller (ConvexHull.holding pending) points A b).2 =
      if reportsOnePolygon huller (pending ++ points) then []
      else ["Error: more than one polygon found!"] := by
  simp only [getConvexHullCall, ConvexHull.holding, reportsOnePolygon,
    fromSTDList2PCLPointCloud_eq, List.map_append, beq_iff_eq, ne_eq, ite_not]
  split_ifs <;> rfl

/-- Calls on one object in turn, each with the caller's own `A` and `b`: the object after
them and what each call left in its `A` and `b`. -/
def runCalls : ConvexHull α → List (List (KDLVector α) × Matrix α × Vector α) →
    Option (ConvexHull α × List (Matrix α × Vector α))
  | self, [] => some (self, [])
  | self, (points, A, b) :: calls =>
    (getConvexHull huller self points A b).bind fun r =>
      (runCalls r.1 calls).map fun s => (s.1, r.2 :: s.2)

/-- The machine of pending points: each call is the call on a fresh object given the points
still pending and its own, which stay pending until a call gets one polygon. -/
def runPending : List (KDLVector α) → List (List (KDLVector α) × Matrix α × Vector α) →
    Option (ConvexHull α × List (Matrix α × Vector α))
  | pending, [] => some (ConvexHull.holding pending, [])
  | pending, (points, A, b) :: calls =>
    (getConvexHull huller ConvexHull.new (pending ++ points) A b).bind fun r =>
      (runPending (if reportsOnePolygon huller (pending ++ points) then [] else pending ++ points)
        calls).map fun s => (s.1, r.2 :: s.2)

/-- What the calls would leave in their `A` and `b` if each were made on a fresh object. -/
def runFresh (calls : List (List (KDLVector α) × Matrix α × Vector α)) :
    Option (List (Matrix α × Vector α)) :=
  calls.mapM fun c => (getConvexHull huller ConvexHull.new c.1 c.2.1 c.2.2).map (·.2)

/-- For every hull library and every run of calls, the object is the machine of pending
points. -/
theorem runCalls_eq_runPending :
    ∀ (calls : List (List (KDLVector α) × Matrix α × Vector α)) (pending : List (KDLVector α)),
      runCalls huller (ConvexHull.holding pending) calls = runPending huller pending calls
  | [], _ => rfl
  | (points, A, b) :: calls, pending => by
    rw [runCalls, runPending, getConvexHull_pending]
    cases getConvexHull huller ConvexHull.new (pending ++ points) A b with
    | none => rfl
    | some r => simp only [Option.map_some', Option.some_bind, runCalls_eq_runPending calls]

/-- A run whose calls with points all get one polygon from the library leaves in each `A`
and `b` what a fresh object would. -/
theorem runCalls_eq_runFresh :
    ∀ calls : List (List (KDLVector α) × Matrix α × Vector α),
      (∀ c ∈ calls, reportsOnePolygon huller c.1 = true ∨ c.1 = []) →
      (runCalls huller ConvexHull.new calls).map (·.2) = runFresh huller calls
  | [], _ => rfl
  | (points, A, b) :: calls, h => by
    have hrest := runCalls_eq_runFresh calls fun c hc => h c (List.mem_cons_of_mem _ hc)
    have hnil : (if reportsOnePolygon huller points then [] else points) = [] := by
      rcases h _ (List.mem_cons_self _ _) with h | (h : points = []) <;> simp [h]
    rw [← ConvexHull.holding_nil, runCalls_eq_runPending] at hrest ⊢
    simp only [runPending, List.nil_append, hnil, runFresh, List.mapM_cons] at hrest ⊢
    cases getConvexHull huller ConvexHull.new points A b with
    | none => rfl
    | some r =>
      simp only [Option.some_bind, Option.map_map]
      rw [← hrest]
      cases runPending huller [] calls <;> rfl

/-- Two calls with the triangle each get one polygon, so each acts as on a fresh object. -/
theorem runCalls_eq_runFresh_triangle :
    (∀ c ∈ [(trianglePoints, (⟨[]⟩ : Matrix ℝ), (⟨[]⟩ : Vector ℝ)),
        (trianglePoints, ⟨[]⟩, ⟨[]⟩)], reportsOnePolygon reconstruct c.1 = true ∨ c.1 = []) ∧
    (runCalls reconstruct ConvexHull.new
        [(trianglePoints, ⟨[]⟩, ⟨[]⟩), (trianglePoints, ⟨[]⟩, ⟨[]⟩)]).map (·.2) =
      runFresh reconstruct [(trianglePoints, ⟨[]⟩, ⟨[]⟩), (trianglePoints, ⟨[]⟩, ⟨[]⟩)] :=
  have h : ∀ c ∈ [(trianglePoints, (⟨[]⟩ : Matrix ℝ), (⟨[]⟩ : Vector ℝ)),
      (trianglePoints, ⟨[]⟩, ⟨[]⟩)], reportsOnePolygon reconstruct c.1 = true ∨ c.1 = [] := by
    have ht : reportsOnePolygon reconstruct trianglePoints = true := by
      rw [reportsOnePolygon, reconstruct_triangle]; rfl
    simp [ht]
  ⟨h, runCalls_eq_runFresh reconstruct _ h⟩

/-- A first call with two points gets no polygon and returns early, with both points still
in the object's cloud. A second call with a triangle then builds the hull of all five
points, which has the stale point `(1, 0)` as a vertex: its `A` gets four rows, where the
same call on a fresh object gets the triangle's three. -/
theorem getConvexHull_keeps_failed_points :
    getConvexHull reconstruct ConvexHull.new segmentPoints ⟨[]⟩ ⟨[]⟩ =
      some (ConvexHull.holding segmentPoints, ⟨[]⟩, ⟨[]⟩) ∧
    (ConvexHull.holding segmentPoints).pointCloud = [⟨0, 0, 0⟩, ⟨1, 0, 0⟩] ∧
    runCalls reconstruct ConvexHull.new
        [(segmentPoints, ⟨[]⟩, ⟨[]⟩), (trianglePoints, ⟨[]⟩, ⟨[]⟩)] =
      some (ConvexHull.new, [(⟨[]⟩, ⟨[]⟩),
        buffersOf (loopRows chBoundary [⟨-1, -1, 0⟩, ⟨1, -1, 0⟩, ⟨1, 0, 0⟩, ⟨0, 1, 0⟩])]) ∧
    getConvexHull reconstruct ConvexHull.new trianglePoints ⟨[]⟩ ⟨[]⟩ =
      some (ConvexHull.new, buffersOf (loopRows chBoundary [⟨-1, -1, 0⟩, ⟨1, -1, 0⟩, ⟨0, 1, 0⟩])) ∧
    (buffersOf (loopRows chBoundary
      ([⟨-1, -1, 0⟩, ⟨1, -1, 0⟩, ⟨1, 0, 0⟩, ⟨0, 1, 0⟩] : PointCloud ℝ))).1.rows.length = 4 ∧
    (buffersOf (loopRows chBoundary
      ([⟨-1, -1, 0⟩, ⟨1, -1, 0⟩, ⟨0, 1, 0⟩] : PointCloud ℝ))).1.rows.length = 3 := by
  have hone : reportsOnePolygon reconstruct (segmentPoints ++ trianglePoints) = true := by
    rw [reportsOnePolygon, reconstruct_stale_triangle]; rfl
  refine ⟨getConvexHull_new_of_not_one _ reportsOnePolygon_segment _ _, rfl, ?_,
    getConvexHull_new_of_range _ reconstruct_triangle _ _, by simp [buffersOf, loopRows],
    by simp [buffersOf, loopRows]⟩
  rw [← ConvexHull.holding_nil, runCalls_eq_runPending]
  simp only [runPending, List.nil_append, reportsOnePolygon_segment, hone,
    getConvexHull_new_of_not_one _ reportsOnePolygon_segment,
    getConvexHull_new_of_range _ reconstruct_stale_triangle, Option.some_bind, Option.map_some',
    if_true, Bool.false_eq_true, if_false]

end SupportPolygon
