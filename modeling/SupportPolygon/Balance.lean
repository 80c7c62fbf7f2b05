import SupportPolygon.ConvexHull
import SupportPolygon.Kinematics

/-!
# The support polygon a call describes

The caller hands the foot corners, relative to the centre of mass, to a fresh
`convex_hull` object. For any library that reports one polygon around the hull of the
cloud (`ReportsHull`), when the centre of mass is inside the support polygon, the rows
admit without margin exactly the displacements of the centre of mass that keep it in the
support polygon, and with `ch_boundary` only such displacements
(`getConvexHull_supportPolygon`).
-/

namespace SupportPolygon

open Yarp Pointwise

/-- The foot corners on the ground, in the waist frame. -/
def footCorners (robot : DynTree ℝ) : List (ℝ × ℝ) :=
  supportNames.map fun name =>
    ((robot.getPositionKDL (robot.getLinkIndex name)).p.x,
      (robot.getPositionKDL (robot.getLinkIndex name)).p.y)

/-- The support polygon: the convex hull of the foot corners on the ground. -/
def supportPolygon (robot : DynTree ℝ) : Set (ℝ × ℝ) := polygon (footCorners robot)

/-- What `getConvexHull` needs of the hull library's answer for a cloud: one polygon listing
each point the library returns once, in order and turning `w`, around a convex polygon with
nonempty interior that is the convex hull of the cloud on the ground. -/
structure ReportsHull (huller : PointCloud ℝ → PointCloud ℝ × List (List Nat))
    (cloud H : PointCloud ℝ) (w : Winding) : Prop where
  answer : huller cloud = (H, [List.range H.length])
  convex : IsConvexLoop w (H.map PointXYZ.xy)
  hull : polygon (H.map PointXYZ.xy) = polygon (cloud.map PointXYZ.xy)

-- ---------------------------------------------------------------------------
-- From the waist frame to the frame at the centre of mass
-- ---------------------------------------------------------------------------

theorem polygon_map_sub (vs : List (ℝ × ℝ)) (c : ℝ × ℝ) :
    polygon (vs.map fun u => u - c) = -c +ᵥ polygon vs := by
  have hset : {u | u ∈ vs.map fun u => u - c} = -c +ᵥ {u | u ∈ vs} := by
    ext u
    simp only [Set.mem_setOf_eq, List.mem_map, Set.mem_vadd_set, vadd_eq_add, sub_eq_neg_add]
  rw [polygon, hset, convexHull_vadd]
  rfl

theorem supportCloud_xy (robot : DynTree ℝ) (t : ℝ) :
    (projectPCL2Plane ((getSupportPolygonPoints robot []).map fromKDLVector2PCLPointXYZ) t).map
      PointXYZ.xy = (footCorners robot).map fun u => u - ((waistCoM robot).x, (waistCoM robot).y) := by
  rw [projectPCL2Plane_xy, getSupportPolygonPoints,
    foldl_supportStep supportNames _ (SupportLoop.inv_start robot [])]
  simp [footCorners, Function.comp_def, fromKDLVector2PCLPointXYZ, PointXYZ.xy]

-- ---------------------------------------------------------------------------
-- The rows of the support polygon
-- ---------------------------------------------------------------------------

/-- A fresh object given the support points of a robot whose centre of mass lies in the
interior of its support polygon writes one row per edge of the library's hull and is fresh
again. Without margin the rows admit exactly the displacements `v` of the centre of mass that
keep it in the support polygon; with `ch_boundary` they admit only such displacements. -/
theorem getConvexHull_supportPolygon (huller : PointCloud ℝ → PointCloud ℝ × List (List Nat))
    (robot : DynTree ℝ) {cx cy cz : ℝ} (hcom : robot.getCOM = [cx, cy, cz]) {H : PointCloud ℝ}
    {w : Winding} (hlib : ReportsHull huller (projectPCL2Plane
      ((getSupportPolygonPoints robot []).map fromKDLVector2PCLPointXYZ) (1 / 1000)) H w)
    (hin : (cx, cy) ∈ interior (supportPolygon robot)) (A : Matrix ℝ) (b : Vector ℝ) :
    getConvexHull huller ConvexHull.new (getSupportPolygonPoints robot []) A b =
      some (ConvexHull.new, buffersOf (loopRows chBoundary H)) ∧
    feasible (loopRows 0 H) = {v | (cx, cy) + v ∈ supportPolygon robot} ∧
    feasible (loopRows chBoundary H) ⊆ {v | (cx, cy) + v ∈ supportPolygon robot} := by
  have hpoly : polygon (H.map PointXYZ.xy) = -(cx, cy) +ᵥ supportPolygon robot := by
    rw [hlib.hull, supportCloud_xy, waistCoM_of_getCOM hcom, polygon_map_sub]
    rfl
  have h0 : (0 : ℝ × ℝ) ∈ interior (polygon (H.map PointXYZ.xy)) := by
    rw [hpoly, interior_vadd, Set.mem_vadd_set_iff_neg_vadd_mem]
    simpa using hin
  have hzero : feasible (loopRows 0 H) = {v | (cx, cy) + v ∈ supportPolygon robot} := by
    rw [feasible_loopRows_zero w H (inside_of_mem_interior hlib.convex h0),
      enclosed_eq_polygon hlib.convex, hpoly]
    ext v
    simp [Set.mem_vadd_set_iff_neg_vadd_mem]
  exact ⟨getConvexHull_new_of_range huller hlib.answer A b, hzero,
    hzero ▸ feasible_loopRows_anti (by norm_num [chBoundary]) H⟩

-- ---------------------------------------------------------------------------
-- Standing on both feet
-- ---------------------------------------------------------------------------

/-- The foot corners of a robot standing on both feet, in the order of `names`, in units of
a tenth of a foot's length: each foot 2 long and 1 wide, the feet 1 apart. -/
def standingCorners : List (KDLVector ℝ) :=
  [⟨-1, 3, 0⟩, ⟨-1, 1, 0⟩, ⟨1, 3, 0⟩, ⟨1, 1, 0⟩, ⟨-1, -1, 0⟩, ⟨-1, -3, 0⟩, ⟨1, -1, 0⟩, ⟨1, -3, 0⟩]

def standingRobot : DynTree ℝ where
  getLinkIndex name := supportNames.indexOf name
  getPositionKDL i := ⟨Rotation.identity, standingCorners.getD i.toNat 0⟩
  getCOM := [0, 0, 5]

def standingHull : PointCloud ℝ := [⟨-1, -3, 0⟩, ⟨1, -3, 0⟩, ⟨1, 3, 0⟩, ⟨-1, 3, 0⟩]

theorem standing_linkIndex :
    supportNames.map standingRobot.getLinkIndex = [0, 1, 2, 3, 4, 5, 6, 7] := by
  decide

theorem map_standing_linkIndex {β : Type} (f : Int → β) :
    supportNames.map (fun name => f (standingRobot.getLinkIndex name)) =
      [0, 1, 2, 3, 4, 5, 6, 7].map f := by
  rw [← standing_linkIndex, List.map_map]
  rfl

theorem footCorners_standing :
    footCorners standingRobot = standingCorners.map fun k => (k.x, k.y) := by
  rw [footCorners, map_standing_linkIndex fun i => ((standingRobot.getPositionKDL i).p.x,
    (standingRobot.getPositionKDL i).p.y)]
  rfl

theorem standingCloud_eq :
    projectPCL2Plane ((getSupportPolygonPoints standingRobot []).map fromKDLVector2PCLPointXYZ)
      (1 / 1000) = standingCorners.map fromKDLVector2PCLPointXYZ := by
  rw [getSupportPolygonPoints, foldl_supportStep supportNames _ (SupportLoop.inv_start _ []),
    waistCoM_of_getCOM rfl, List.nil_append,
    map_standing_linkIndex fun i => (standingRobot.getPositionKDL i).p - ⟨0, 0, 5⟩]
  simp [projectPCL2Plane_eq, standingRobot, standingCorners, fromKDLVector2PCLPointXYZ]

theorem reconstruct_standing :
    reconstruct (standingCorners.map fromKDLVector2PCLPointXYZ) = (standingHull, [List.range 4]) := by
  norm_num [standingCorners, standingHull, fromKDLVector2PCLPointXYZ, reconstruct, halfHull,
    pushHull, List.insertionSort, List.orderedInsert, xyLE, area, PointXYZ.xy]

theorem edges_standingHull : edges (standingHull.map PointXYZ.xy) =
    [((-1, -3), (1, -3)), ((1, -3), (1, 3)), ((1, 3), (-1, 3)), ((-1, 3), (-1, -3))] := rfl

theorem standingHull_convex : IsConvexLoop .ccw (standingHull.map PointXYZ.xy) := by
  refine ⟨by simp [standingHull], by simp [standingHull, PointXYZ.xy, Prod.ext_iff]; norm_num, ?_⟩
  rw [edges_standingHull]
  simp only [standingHull, List.map_cons, List.map_nil, PointXYZ.xy, List.mem_cons,
    List.mem_singleton, List.not_mem_nil, or_false]
  rintro e (rfl | rfl | rfl | rfl) v (rfl | rfl | rfl | rfl) h1 h2 <;>
    norm_num [area, Winding.sign] at h1 h2 ⊢

theorem mem_enclosed_standingHull {p : ℝ × ℝ} (hx : |p.1| ≤ 1) (hy : |p.2| ≤ 3) :
    p ∈ Enclosed .ccw (standingHull.map PointXYZ.xy) := by
  obtain ⟨hx₁, hx₂⟩ := abs_le.mp hx
  obtain ⟨hy₁, hy₂⟩ := abs_le.mp hy
  intro e he
  rw [edges_standingHull] at he
  simp only [List.mem_cons, List.mem_singleton, List.not_mem_nil, or_false] at he
  rcases he with rfl | rfl | rfl | rfl <;> simp only [area, Winding.sign] <;> linarith

theorem standingHull_hull : polygon (standingHull.map PointXYZ.xy) =
    polygon ((standingCorners.map fromKDLVector2PCLPointXYZ).map PointXYZ.xy) := by
  refine Set.Subset.antisymm (convexHull_mono fun v hv => ?_)
    (convexHull_min (fun v hv => ?_) (convex_convexHull ℝ _))
  · simp only [standingHull, standingCorners, List.map_cons, List.map_nil,
      fromKDLVector2PCLPointXYZ, PointXYZ.xy, Set.mem_setOf_eq, List.mem_cons,
      List.not_mem_nil, or_false] at hv ⊢
    rcases hv with rfl | rfl | rfl | rfl <;> simp
  · rw [← enclosed_eq_polygon standingHull_convex]
    simp only [standingCorners, List.map_cons, List.map_nil, fromKDLVector2PCLPointXYZ,
      PointXYZ.xy, Set.mem_setOf_eq, List.mem_cons, List.not_mem_nil, or_false] at hv
    rcases hv with rfl | rfl | rfl | rfl | rfl | rfl | rfl | rfl <;>
      exact mem_enclosed_standingHull (by norm_num) (by norm_num)

theorem standing_interior : ((0 : ℝ), (0 : ℝ)) ∈ interior (supportPolygon standingRobot) := by
  rw [supportPolygon, footCorners_standing]
  refine interior_mono (convexHull_mono fun v hv => ?_)
    (zero_mem_interior_of_inside standingHull_convex ?_)
  · simp only [standingHull, standingCorners, List.map_cons, List.map_nil, PointXYZ.xy,
      Set.mem_setOf_eq, List.mem_cons, List.not_mem_nil, or_false] at hv ⊢
    rcases hv with rfl | rfl | rfl | rfl <;> simp
  · rw [edges_standingHull]
    simp only [List.mem_cons, List.mem_singleton, List.not_mem_nil, or_false]
    rintro e (rfl | rfl | rfl | rfl) <;> norm_num [area, Winding.sign]

/-- Standing on both feet with the centre of mass above the middle: the reference library
reports the four outer corners, and the rows without margin admit exactly the displacements
that keep the centre of mass over the two feet's hull. -/
theorem getConvexHull_supportPolygon_standing :
    ReportsHull reconstruct (projectPCL2Plane
      ((getSupportPolygonPoints standingRobot []).map fromKDLVector2PCLPointXYZ) (1 / 1000))
      standingHull .ccw ∧
    ((0 : ℝ), (0 : ℝ)) ∈ interior (supportPolygon standingRobot) ∧
    feasible (loopRows 0 standingHull) =
      {v | ((0 : ℝ), (0 : ℝ)) + v ∈ supportPolygon standingRobot} :=
  have hlib : ReportsHull reconstruct (projectPCL2Plane
      ((getSupportPolygonPoints standingRobot []).map fromKDLVector2PCLPointXYZ) (1 / 1000))
      standingHull .ccw :=
    ⟨by rw [standingCloud_eq, reconstruct_standing]; rfl, standingHull_convex,
      by rw [standingCloud_eq, standingHull_hull]⟩
  ⟨hlib, standing_interior, (getConvexHull_supportPolygon reconstruct standingRobot rfl hlib
    standing_interior ⟨[]⟩ ⟨[]⟩).2.1⟩

end SupportPolygon
