import SupportPolygon.Cloud

/-!
# The support points

`getSupportPolygonPoints` collects the points the caller hands to `getConvexHull`:

    for(unsigned int i = 0; i < names.size(); ++i)
    {
        waist_T_point = robot.coman_iDyn3.getPositionKDL(robot.coman_iDyn3.getLinkIndex(names[i]));
        YarptoKDL(robot.coman_iDyn3.getCOM(), waist_T_CoM.p);
        CoM_T_point = waist_T_CoM.Inverse() * waist_T_point;
        points.push_back(CoM_T_point.p);
    }

No statement assigns the orientation of `waist_T_CoM`, so it stays the identity
(`SupportLoop.Inv`), and the call appends the corners' positions minus the centre of mass
(`getSupportPolygonPoints_eq`).
-/

namespace SupportPolygon

variable {α : Type} [CommRing α]

-- ---------------------------------------------------------------------------
-- KDL vectors, rotations and frames
-- ---------------------------------------------------------------------------

-- KDL::Vector's operators, coordinate by coordinate.
instance : Zero (KDLVector α) := ⟨⟨0, 0, 0⟩⟩

instance : Add (KDLVector α) := ⟨fun a b => ⟨a.x + b.x, a.y + b.y, a.z + b.z⟩⟩

instance : Neg (KDLVector α) := ⟨fun a => ⟨-a.x, -a.y, -a.z⟩⟩

instance : Sub (KDLVector α) := ⟨fun a b => ⟨a.x - b.x, a.y - b.y, a.z - b.z⟩⟩

@[simp] theorem KDLVector.add_x (a b : KDLVector α) : (a + b).x = a.x + b.x := rfl
@[simp] theorem KDLVector.add_y (a b : KDLVector α) : (a + b).y = a.y + b.y := rfl
@[simp] theorem KDLVector.add_z (a b : KDLVector α) : (a + b).z = a.z + b.z := rfl
@[simp] theorem KDLVector.neg_x (a : KDLVector α) : (-a).x = -a.x := rfl
@[simp] theorem KDLVector.neg_y (a : KDLVector α) : (-a).y = -a.y := rfl
@[simp] theorem KDLVector.neg_z (a : KDLVector α) : (-a).z = -a.z := rfl
@[simp] theorem KDLVector.sub_x (a b : KDLVector α) : (a - b).x = a.x - b.x := rfl
@[simp] theorem KDLVector.sub_y (a b : KDLVector α) : (a - b).y = a.y - b.y := rfl
@[simp] theorem KDLVector.sub_z (a b : KDLVector α) : (a - b).z = a.z - b.z := rfl

omit [CommRing α] in
theorem KDLVector.ext {a b : KDLVector α} (hx : a.x = b.x) (hy : a.y = b.y) (hz : a.z = b.z) :
    a = b := by
  cases a; cases b; simp_all

/-- `KDL::Rotation`: `data[0..8]` row by row, named as the constructor
`Rotation(Xx, Yx, Zx, Xy, Yy, Zy, Xz, Yz, Zz)` names them; the columns are the rotated axes. -/
structure Rotation (α : Type) where
  Xx : α
  Yx : α
  Zx : α
  Xy : α
  Yy : α
  Zy : α
  Xz : α
  Yz : α
  Zz : α

namespace Rotation

/-- `Rotation::Identity()`, which `KDL::Rotation()` also holds. -/
def identity : Rotation α := ⟨1, 0, 0, 0, 1, 0, 0, 0, 1⟩

/-- `Rotation::Inverse()`: `SetInverse` swaps the entries across the diagonal. -/
def inverse (r : Rotation α) : Rotation α := ⟨r.Xx, r.Xy, r.Xz, r.Yx, r.Yy, r.Yz, r.Zx, r.Zy, r.Zz⟩

/-- `operator*(Rotation, Rotation)`. -/
def mul (l r : Rotation α) : Rotation α :=
  ⟨l.Xx * r.Xx + l.Yx * r.Xy + l.Zx * r.Xz, l.Xx * r.Yx + l.Yx * r.Yy + l.Zx * r.Yz,
    l.Xx * r.Zx + l.Yx * r.Zy + l.Zx * r.Zz,
    l.Xy * r.Xx + l.Yy * r.Xy + l.Zy * r.Xz, l.Xy * r.Yx + l.Yy * r.Yy + l.Zy * r.Yz,
    l.Xy * r.Zx + l.Yy * r.Zy + l.Zy * r.Zz,
    l.Xz * r.Xx + l.Yz * r.Xy + l.Zz * r.Xz, l.Xz * r.Yx + l.Yz * r.Yy + l.Zz * r.Yz,
    l.Xz * r.Zx + l.Yz * r.Zy + l.Zz * r.Zz⟩

/-- `operator*(Rotation, Vector)`. -/
def mulVec (r : Rotation α) (v : KDLVector α) : KDLVector α :=
  ⟨r.Xx * v.x + r.Yx * v.y + r.Zx * v.z,
   r.Xy * v.x + r.Yy * v.y + r.Zy * v.z,
   r.Xz * v.x + r.Yz * v.y + r.Zz * v.z⟩

/-- `Rotation::Inverse(Vector)`: the vector rotated back, without building the inverse. -/
def inverseVec (r : Rotation α) (v : KDLVector α) : KDLVector α :=
  ⟨r.Xx * v.x + r.Xy * v.y + r.Xz * v.z,
   r.Yx * v.x + r.Yy * v.y + r.Yz * v.z,
   r.Zx * v.x + r.Zy * v.y + r.Zz * v.z⟩

theorem mulVec_inverse (r : Rotation α) (v : KDLVector α) :
    r.inverse.mulVec v = r.inverseVec v := rfl

@[simp] theorem inverseVec_identity (v : KDLVector α) : identity.inverseVec v = v := by
  apply KDLVector.ext <;> simp [inverseVec, identity]

end Rotation

/-- `KDL::Frame`: the orientation `M` and the origin `p`. -/
structure Frame (α : Type) where
  M : Rotation α
  p : KDLVector α

namespace Frame

/-- `KDL::Frame()`: the identity orientation at the zero origin. -/
def new : Frame α := ⟨Rotation.identity, 0⟩

/-- `Frame::Inverse()`, that is `Frame(M.Inverse(), -M.Inverse(p))`. -/
def inverse (f : Frame α) : Frame α := ⟨f.M.inverse, -f.M.inverseVec f.p⟩

/-- `operator*(Frame, Frame)`, that is `Frame(lhs.M*rhs.M, lhs.M*rhs.p+lhs.p)`. -/
def mul (lhs rhs : Frame α) : Frame α := ⟨lhs.M.mul rhs.M, lhs.M.mulVec rhs.p + lhs.p⟩

theorem inverse_mul_p (f g : Frame α) : (f.inverse.mul g).p = f.M.inverseVec (g.p - f.p) := by
  simp only [mul, inverse, Rotation.mulVec_inverse]
  apply KDLVector.ext <;> simp only [Rotation.inverseVec, KDLVector.add_x, KDLVector.add_y,
    KDLVector.add_z, KDLVector.neg_x, KDLVector.neg_y, KDLVector.neg_z, KDLVector.sub_x,
    KDLVector.sub_y, KDLVector.sub_z] <;> ring

end Frame

-- ---------------------------------------------------------------------------
-- The robot and the loop
-- ---------------------------------------------------------------------------

/-- `YarptoKDL(yarpVector, kdlVector)` of iDynTree: a vector of three entries is copied into
`kdlVector` and the call returns `true`; any other size leaves `kdlVector` as it was and
returns `false`. -/
def yarptoKDL (yarpVector : List α) (kdlVector : KDLVector α) : Bool × KDLVector α :=
  match yarpVector with
  | [x, y, z] => (true, ⟨x, y, z⟩)
  | _ => (false, kdlVector)

omit [CommRing α] in
theorem yarptoKDL_yarptoKDL (v : List α) (out : KDLVector α) :
    (yarptoKDL v (yarptoKDL v out).2).2 = (yarptoKDL v out).2 :=
  match v with
  | [] | [_] | [_, _] | [_, _, _] | _ :: _ :: _ :: _ :: _ => rfl

/-- What `getSupportPolygonPoints` asks of `robot.coman_iDyn3`, an `iCub::iDynTree::DynTree`
in the robot's current state: a link's index by name, a link's frame in the waist frame,
and the centre of mass in the waist frame. The queries read the state and leave it as it
is. -/
structure DynTree (α : Type) where
  getLinkIndex : String → Int
  getPositionKDL : Int → Frame α
  getCOM : List α

/-- `names`: the eight foot corners, left foot first. -/
def supportNames : List String :=
  ["l_foot_lower_left_link", "l_foot_lower_right_link", "l_foot_upper_left_link",
    "l_foot_upper_right_link", "r_foot_lower_left_link", "r_foot_lower_right_link",
    "r_foot_upper_left_link", "r_foot_upper_right_link"]

/-- The three frames the loop assigns, and the caller's list. -/
structure SupportLoop (α : Type) where
  waistTCoM : Frame α
  waistTPoint : Frame α
  comTPoint : Frame α
  points : List (KDLVector α)

/-- One iteration of the loop, for the link `name`. -/
def supportStep (robot : DynTree α) (s : SupportLoop α) (name : String) : SupportLoop α :=
  let waistTPoint := robot.getPositionKDL (robot.getLinkIndex name)
  let waistTCoM := { s.waistTCoM with p := (yarptoKDL robot.getCOM s.waistTCoM.p).2 }
  let comTPoint := waistTCoM.inverse.mul waistTPoint
  ⟨waistTCoM, waistTPoint, comTPoint, s.points ++ [comTPoint.p]⟩

/-- `convex_hull::getSupportPolygonPoints`: the three frames start as `Frame()`, and the loop
appends to the caller's list. -/
def getSupportPolygonPoints (robot : DynTree α) (points : List (KDLVector α)) :
    List (KDLVector α) :=
  (supportNames.foldl (supportStep robot) ⟨Frame.new, Frame.new, Frame.new, points⟩).points

-- ---------------------------------------------------------------------------
-- What the loop computes
-- ---------------------------------------------------------------------------

/-- The centre of mass as the loop reads it into `waist_T_CoM.p`: the three entries of
`getCOM`, or the zero origin of `Frame()` when `getCOM` has another size. -/
def waistCoM (robot : DynTree α) : KDLVector α := (yarptoKDL robot.getCOM 0).2

theorem waistCoM_of_getCOM {robot : DynTree α} {x y z : α} (h : robot.getCOM = [x, y, z]) :
    waistCoM robot = ⟨x, y, z⟩ := by
  simp [waistCoM, h, yarptoKDL]

theorem waistCoM_of_length {robot : DynTree α} (h : robot.getCOM.length ≠ 3) :
    waistCoM robot = 0 := by
  unfold waistCoM yarptoKDL
  split
  · simp_all
  · rfl

/-- What each iteration finds in `waist_T_CoM`: the identity orientation, and an origin from
which `YarptoKDL` yields `waistCoM`. -/
def SupportLoop.Inv (robot : DynTree α) (s : SupportLoop α) : Prop :=
  s.waistTCoM.M = Rotation.identity ∧ (yarptoKDL robot.getCOM s.waistTCoM.p).2 = waistCoM robot

theorem SupportLoop.inv_start (robot : DynTree α) (points : List (KDLVector α)) :
    SupportLoop.Inv robot ⟨Frame.new, Frame.new, Frame.new, points⟩ :=
  ⟨rfl, rfl⟩

variable {robot : DynTree α} {s : SupportLoop α}

theorem supportStep_spec (h : s.Inv robot) (name : String) :
    (supportStep robot s name).Inv robot ∧
      (supportStep robot s name).points =
        s.points ++ [(robot.getPositionKDL (robot.getLinkIndex name)).p - waistCoM robot] := by
  obtain ⟨hM, hp⟩ := h
  refine ⟨⟨hM, by simp only [supportStep]; rw [yarptoKDL_yarptoKDL, hp]⟩, ?_⟩
  simp only [supportStep, Frame.inverse_mul_p, hM, hp, Rotation.inverseVec_identity]

theorem foldl_supportStep (names : List String) :
    ∀ s : SupportLoop α, s.Inv robot →
      (names.foldl (supportStep robot) s).points =
        s.points ++ names.map fun name =>
          (robot.getPositionKDL (robot.getLinkIndex name)).p - waistCoM robot := by
  induction names with
  | nil => simp
  | cons name names ih =>
    intro s h
    obtain ⟨hinv, hpts⟩ := supportStep_spec h name
    simp [ih _ hinv, hpts]

/-- `getSupportPolygonPoints` appends to the caller's list, in the order of `names`, each
foot corner's position relative to the centre of mass, whatever the corners' orientations. -/
theorem getSupportPolygonPoints_eq (robot : DynTree α) (points : List (KDLVector α)) :
    getSupportPolygonPoints robot points =
      points ++ supportNames.map fun name =>
        (robot.getPositionKDL (robot.getLinkIndex name)).p - waistCoM robot :=
  foldl_supportStep supportNames _ (SupportLoop.inv_start robot points)

end SupportPolygon
