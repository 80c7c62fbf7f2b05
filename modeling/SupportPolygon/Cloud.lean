import Mathlib

/-!
# Points and point clouds

KDL vectors from the caller, PCL points and clouds, and the projection of a cloud onto the
plane `z = 0`. Coordinates are exact elements of an ordered field; the `float` and
`double` rounding of the source is not modelled. The RANSAC threshold is passed but
unused, as in the source.
-/

namespace SupportPolygon

variable {α : Type}

/-- `KDL::Vector`. -/
structure KDLVector (α : Type) where
  x : α
  y : α
  z : α
  deriving DecidableEq, Repr

/-- `pcl::PointXYZ`. -/
structure PointXYZ (α : Type) where
  x : α
  y : α
  z : α
  deriving DecidableEq, Repr

/-- `pcl::PointCloud<pcl::PointXYZ>`, in its storage order. -/
abbrev PointCloud (α : Type) := List (PointXYZ α)

def PointXYZ.xy (p : PointXYZ α) : α × α := (p.x, p.y)

@[simp] theorem PointXYZ.xy_fst (p : PointXYZ α) : p.xy.1 = p.x := rfl
@[simp] theorem PointXYZ.xy_snd (p : PointXYZ α) : p.xy.2 = p.y := rfl

-- ---------------------------------------------------------------------------
-- Conversion
-- ---------------------------------------------------------------------------

/-- `fromKDLVector2PCLPointXYZ`. The source narrows each `double` coordinate to the `float`
of `pcl::PointXYZ`; the model copies it exactly, so a statement about the points a call is
given holds of the cloud the library sees only when the rounding keeps what it assumes. -/
def fromKDLVector2PCLPointXYZ (point : KDLVector α) : PointXYZ α :=
  ⟨point.x, point.y, point.z⟩

/-- `point_cloud->push_back` of every point in list order: the cloud is appended
to, not overwritten. -/
def fromSTDList2PCLPointCloud (points : List (KDLVector α)) (pointCloud : PointCloud α) :
    PointCloud α :=
  points.foldl (fun cloud p => cloud ++ [fromKDLVector2PCLPointXYZ p]) pointCloud

theorem fromSTDList2PCLPointCloud_eq (points : List (KDLVector α)) (pointCloud : PointCloud α) :
    fromSTDList2PCLPointCloud points pointCloud =
      pointCloud ++ points.map fromKDLVector2PCLPointXYZ := by
  induction points generalizing pointCloud with
  | nil => simp [fromSTDList2PCLPointCloud]
  | cons p ps ih =>
    simp only [fromSTDList2PCLPointCloud, List.foldl_cons] at ih ⊢
    simp [ih]

-- ---------------------------------------------------------------------------
-- Projection onto the ground plane
-- ---------------------------------------------------------------------------

section Projection

variable [LinearOrderedField α]

/-- `SampleConsensusModelPlane::projectPoints` for the plane `a x + b y + c z + d = 0`
with a unit normal: the point minus its signed distance along the normal. -/
def projectPoint (a b c d : α) (p : PointXYZ α) : PointXYZ α :=
  let distance := a * p.x + b * p.y + c * p.z + d
  ⟨p.x - a * distance, p.y - b * distance, p.z - c * distance⟩

/-- `projectPCL2Plane`: every point of the cloud projected onto the plane `(0 0 1)`
through the origin. The output cloud is overwritten. -/
def projectPCL2Plane (cloud : PointCloud α) (_ransacDistanceThr : α) : PointCloud α :=
  cloud.map (projectPoint 0 0 1 0)

@[simp] theorem projectPoint_ground (p : PointXYZ α) :
    projectPoint 0 0 1 0 p = ⟨p.x, p.y, 0⟩ := by
  simp [projectPoint]

theorem projectPCL2Plane_eq (cloud : PointCloud α) (thr : α) :
    projectPCL2Plane cloud thr = cloud.map fun p => ⟨p.x, p.y, 0⟩ := by
  simp [projectPCL2Plane]

@[simp] theorem projectPCL2Plane_xy (cloud : PointCloud α) (thr : α) :
    (projectPCL2Plane cloud thr).map PointXYZ.xy = cloud.map PointXYZ.xy := by
  simp [projectPCL2Plane_eq, Function.comp_def, PointXYZ.xy]

end Projection

end SupportPolygon
