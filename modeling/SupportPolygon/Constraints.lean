import SupportPolygon.Cloud
import SupportPolygon.Polygon
import SupportPolygon.Yarp

/-!
# The constraint generator

`getLineCoefficients` and `getConstraints` as the source computes them. Reads of the
vertex lists and of the cloud are unchecked `operator[]`, and `%` by zero is undefined, so
each returns `none` when it has no value, as the writes do. `getConstraintsWith` takes the
margin as a parameter; `getConstraints` fixes it to `1e-2`.
-/

namespace SupportPolygon

open Yarp

variable {α : Type} [LinearOrderedField α]

/-- The line `a x + b y + c = 0`. -/
structure Line (α : Type) where
  a : α
  b : α
  c : α
  deriving DecidableEq, Repr

def getLineCoefficients (p0 p1 : PointXYZ α) : Line α :=
  let x1 := p0.x
  let x2 := p1.x
  let y1 := p0.y
  let y2 := p1.y
  let a := y1 - y2
  let b := x2 - x1
  ⟨a, b, -b * y1 - a * x1⟩

def chBoundary : α := 1 / 100

/-- The row the loop body leaves for the line `l`: `(a, b, -c)` when `c ≤ 0` and
`(-a, -b, c)` otherwise, then `b[z]` set to `0` when `|c| ≤ boundary` and lowered by
`boundary` otherwise. -/
def edgeRow (boundary : α) (l : Line α) : Row α :=
  let r : Row α := if l.c ≤ 0 then ⟨l.a, l.b, -l.c⟩ else ⟨-l.a, -l.b, l.c⟩
  ⟨r.a0, r.a1, if |l.c| ≤ boundary then 0 else r.b - boundary⟩

/-- `n % d` on `unsigned int`: undefined for `d = 0`. -/
def modulo (n d : Nat) : Option Nat := if d = 0 then none else some (n % d)

/-- The body of the inner loop at vertex `j` of the loop `vs`; the state holds `A`, `b`
and the row counter `z`. -/
def getConstraintsStep (boundary : α) (pointsInConvexHull : PointCloud α) (vs : List Nat)
    (s : Matrix α × Vector α × Nat) (j : Nat) : Option (Matrix α × Vector α × Nat) := do
  let k ← modulo (j + 1) vs.length
  let i0 ← vs[j]?
  let i1 ← vs[k]?
  let p0 ← pointsInConvexHull[i0]?
  let p1 ← pointsInConvexHull[i1]?
  let out ← writeRow s.2.2 (edgeRow boundary (getLineCoefficients p0 p1)) s.1 s.2.1
  pure (out.1, out.2, s.2.2 + 1)

/-- `getConstraints` with the margin as a parameter: resize both buffers to the size of
the hull cloud, then run the two loops from `z = 0`. -/
def getConstraintsWith (boundary : α) (pointsInConvexHull : PointCloud α)
    (indicesOfVertexes : List (List Nat)) (A : Matrix α) (b : Vector α) :
    Option (Matrix α × Vector α) := do
  let s ← indicesOfVertexes.foldlM
    (fun s vs => (List.range vs.length).foldlM (getConstraintsStep boundary pointsInConvexHull vs) s)
    (A.resize pointsInConvexHull.length 2, b.resize pointsInConvexHull.length, 0)
  pure (s.1, s.2.1)

/-- `convex_hull::getConstraints`, with the source's margin `ch_boundary = 1e-2`. -/
def getConstraints (pointsInConvexHull : PointCloud α) (indicesOfVertexes : List (List Nat))
    (A : Matrix α) (b : Vector α) : Option (Matrix α × Vector α) :=
  getConstraintsWith chBoundary pointsInConvexHull indicesOfVertexes A b

-- ---------------------------------------------------------------------------
-- Rows by edge
-- ---------------------------------------------------------------------------

def edgeRowAt (boundary : α) (pointsInConvexHull : PointCloud α) (e : Nat × Nat) :
    Option (Row α) := do
  let p0 ← pointsInConvexHull[e.1]?
  let p1 ← pointsInConvexHull[e.2]?
  pure (edgeRow boundary (getLineCoefficients p0 p1))

/-- The rows the loops compute, in the order they write them: every edge of every loop. -/
def constraintRows (boundary : α) (pointsInConvexHull : PointCloud α)
    (indicesOfVertexes : List (List Nat)) : Option (List (Row α)) :=
  (indicesOfVertexes.flatMap edges).mapM (edgeRowAt boundary pointsInConvexHull)

def loopRows (boundary : α) (ps : List (PointXYZ α)) : List (Row α) :=
  (edges ps).map fun e => edgeRow boundary (getLineCoefficients e.1 e.2)

end SupportPolygon
