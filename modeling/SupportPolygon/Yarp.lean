import Mathlib

/-!
# The caller's output buffers

`getConstraints` writes `A x ≤ b` into a `yarp::sig::Matrix` and a `yarp::sig::Vector`
the caller owns. `resize` keeps the shared cells and leaves the others without a value
(`none`). The element operators do not check their index, so a write outside the buffer
is undefined behaviour: it returns `none`, and so does every run that performs one.
-/

namespace SupportPolygon

variable {α : Type}

/-- The three values one row `z` of the system holds: `A(z,0)`, `A(z,1)` and `b[z]`. -/
structure Row (α : Type) where
  a0 : α
  a1 : α
  b : α
  deriving DecidableEq, Repr

namespace Yarp

/-- `yarp::sig::Matrix`, row by row. -/
structure Matrix (α : Type) where
  rows : List (List (Option α))
  deriving DecidableEq, Repr

/-- `yarp::sig::Vector`. -/
structure Vector (α : Type) where
  cells : List (Option α)
  deriving DecidableEq, Repr

/-- `Matrix::resize(r, c)`: the cells both shapes share keep their values. -/
def Matrix.resize (A : Matrix α) (r c : Nat) : Matrix α :=
  ⟨(List.range r).map fun i => (List.range c).map fun j => (A.rows[i]?.bind (·[j]?)).join⟩

/-- `Vector::resize(n)`: the first cells keep their values. -/
def Vector.resize (b : Vector α) (n : Nat) : Vector α :=
  ⟨(List.range n).map fun i => b.cells[i]?.join⟩

/-- `A(r, c) = v`. -/
def Matrix.set (A : Matrix α) (r c : Nat) (v : α) : Option (Matrix α) :=
  match A.rows[r]? with
  | some row => if c < row.length then some ⟨A.rows.set r (row.set c (some v))⟩ else none
  | none => none

/-- `b[i] = v`. -/
def Vector.set (b : Vector α) (i : Nat) (v : α) : Option (Vector α) :=
  if i < b.cells.length then some ⟨b.cells.set i (some v)⟩ else none

end Yarp

open Yarp

def Row.cells (r : Row α) : List (Option α) := [some r.a0, some r.a1]

/-- Row `z` written as the loop body of `getConstraints` writes it: `A(z,0)`, `A(z,1)`,
then `b[z]`. -/
def writeRow (z : Nat) (r : Row α) (A : Matrix α) (b : Vector α) : Option (Matrix α × Vector α) := do
  let A ← A.set z 0 r.a0
  let A ← A.set z 1 r.a1
  let b ← b.set z r.b
  pure (A, b)

/-- The rows `rs` written to rows `z`, `z + 1`, ... in order. -/
def writeRows : List (Row α) → Nat → Matrix α → Vector α → Option (Matrix α × Vector α)
  | [], _, A, b => some (A, b)
  | r :: rs, z, A, b => (writeRow z r A b).bind fun out => writeRows rs (z + 1) out.1 out.2

-- ---------------------------------------------------------------------------
-- Buffers of `n` rows of two columns
-- ---------------------------------------------------------------------------

/-- `A` has `n` rows of two cells and `b` has `n` cells: the shape `getConstraints`
resizes them to. -/
structure Shape (n : Nat) (A : Matrix α) (b : Vector α) : Prop where
  rows : A.rows.length = n
  cols : ∀ row ∈ A.rows, row.length = 2
  cells : b.cells.length = n

theorem shape_resize (A : Matrix α) (b : Vector α) (n : Nat) :
    Shape n (A.resize n 2) (b.resize n) :=
  ⟨by simp [Matrix.resize], by simp [Matrix.resize], by simp [Vector.resize]⟩

theorem writeRow_of_lt {n z : Nat} {A : Matrix α} {b : Vector α} (hs : Shape n A b) (hz : z < n)
    (r : Row α) :
    writeRow z r A b = some (⟨A.rows.set z r.cells⟩, ⟨b.cells.set z (some r.b)⟩) := by
  have hz' : z < A.rows.length := hs.rows ▸ hz
  have hlen : A.rows[z].length = 2 := hs.cols _ (List.getElem_mem hz')
  obtain ⟨c0, c1, hrow⟩ : ∃ c0 c1, A.rows[z] = [c0, c1] := by
    match h : A.rows[z], hlen with
    | [c0, c1], _ => exact ⟨c0, c1, rfl⟩
  have hb : z < b.cells.length := hs.cells ▸ hz
  simp [writeRow, Matrix.set, Vector.set, List.getElem?_eq_getElem hz', hrow, hb, Row.cells,
    List.getElem?_set, hz']

theorem writeRow_of_le {n z : Nat} {A : Matrix α} {b : Vector α} (hs : Shape n A b) (hz : n ≤ z)
    (r : Row α) : writeRow z r A b = none := by
  have : A.rows[z]? = none := List.getElem?_eq_none (hs.rows ▸ hz)
  simp [writeRow, Matrix.set, this]

theorem Shape.set {n z : Nat} {A : Matrix α} {b : Vector α} (hs : Shape n A b) (r : Row α) :
    Shape n ⟨A.rows.set z r.cells⟩ ⟨b.cells.set z (some r.b)⟩ := by
  refine ⟨by simp [hs.rows], fun row hrow => ?_, by simp [hs.cells]⟩
  rcases List.mem_or_eq_of_mem_set hrow with h | rfl
  · exact hs.cols row h
  · rfl

theorem writeRows_shape {n : Nat} (rs : List (Row α)) :
    ∀ {z : Nat} {A A' : Matrix α} {b b' : Vector α}, Shape n A b →
      writeRows rs z A b = some (A', b') → Shape n A' b' := by
  induction rs with
  | nil => intro z A A' b b' hs h; simp only [writeRows, Option.some.injEq, Prod.mk.injEq] at h
           exact h.1 ▸ h.2 ▸ hs
  | cons r rs ih =>
    intro z A A' b b' hs h
    by_cases hz : z < n
    · simp only [writeRows, writeRow_of_lt hs hz, Option.some_bind] at h
      exact ih (hs.set r) h
    · simp [writeRows, writeRow_of_le hs (Nat.le_of_not_lt hz)] at h

theorem writeRows_isSome {n : Nat} (rs : List (Row α)) :
    ∀ {z : Nat} {A : Matrix α} {b : Vector α}, Shape n A b → z ≤ n →
      ((writeRows rs z A b).isSome ↔ z + rs.length ≤ n) := by
  induction rs with
  | nil => intro z A b _ hz; simp [writeRows, hz]
  | cons r rs ih =>
    intro z A b hs hzn
    by_cases hz : z < n
    · simp only [writeRows, writeRow_of_lt hs hz, Option.some_bind, List.length_cons]
      rw [ih (hs.set r) hz]
      omega
    · simp only [writeRows, writeRow_of_le hs (Nat.le_of_not_lt hz), Option.none_bind,
        Option.isSome_none, Bool.false_eq_true, false_iff, List.length_cons]
      omega

/-- The buffers that hold exactly the rows `rs`, one per row. -/
def buffersOf (rs : List (Row α)) : Matrix α × Vector α :=
  (⟨rs.map Row.cells⟩, ⟨rs.map fun r => some r.b⟩)

theorem writeRows_get {n : Nat} (rs : List (Row α)) :
    ∀ {z : Nat} {A A' : Matrix α} {b b' : Vector α}, Shape n A b →
      writeRows rs z A b = some (A', b') → ∀ i,
        A'.rows[i]? = (if z ≤ i then (rs[i - z]?.map Row.cells).or A.rows[i]? else A.rows[i]?) ∧
        b'.cells[i]? = (if z ≤ i then (rs[i - z]?.map (some ·.b)).or b.cells[i]?
          else b.cells[i]?) := by
  induction rs with
  | nil =>
    intro z A A' b b' _ h i
    simp only [writeRows, Option.some.injEq, Prod.mk.injEq] at h
    simp [h]
  | cons r rs ih =>
    intro z A A' b b' hs h i
    have hz : z < n := by
      by_contra hz
      simp [writeRows, writeRow_of_le hs (Nat.le_of_not_lt hz)] at h
    simp only [writeRows, writeRow_of_lt hs hz, Option.some_bind] at h
    obtain ⟨hA, hb⟩ := ih (hs.set r) h i
    rw [hA, hb]
    have hzA : z < A.rows.length := hs.rows ▸ hz
    have hzb : z < b.cells.length := hs.cells ▸ hz
    rcases Nat.lt_trichotomy i z with hi | rfl | hi
    · simp [List.getElem?_set_ne (Nat.ne_of_gt hi), Nat.not_le_of_lt hi,
        Nat.not_le_of_lt (Nat.lt_succ_of_lt hi)]
    · simp [List.getElem?_set_self hzA, List.getElem?_set_self hzb]
    · obtain ⟨k, rfl⟩ : ∃ k, i = z + 1 + k := ⟨i - (z + 1), by omega⟩
      have hk : z + 1 + k - z = k + 1 := by omega
      simp [List.getElem?_set_ne (show z ≠ z + 1 + k by omega), hk, show z ≤ z + 1 + k by omega]

theorem writeRows_zero {n : Nat} {A : Matrix α} {b : Vector α} (hs : Shape n A b)
    (rs : List (Row α)) (hn : rs.length ≤ n) :
    writeRows rs 0 A b = some (⟨rs.map Row.cells ++ A.rows.drop rs.length⟩,
      ⟨(rs.map fun r => some r.b) ++ b.cells.drop rs.length⟩) := by
  obtain ⟨⟨⟨A'⟩, ⟨b'⟩⟩, hw⟩ := Option.isSome_iff_exists.mp
    ((writeRows_isSome rs hs (Nat.zero_le n)).mpr (by omega))
  have hor : ∀ {γ : Type} (f : Row α → γ) (m : List γ) (i : Nat),
      (rs[i]?.map f).or m[i]? = (rs.map f ++ m.drop rs.length)[i]? := by
    intro γ f m i
    rcases Nat.lt_or_ge i rs.length with hi | hi
    · simp [List.getElem?_append_left (show i < (rs.map f).length by simpa),
        List.getElem?_eq_getElem hi]
    · simp [List.getElem?_append_right (show (rs.map f).length ≤ i by simpa),
        List.getElem?_eq_none hi, Nat.add_sub_cancel' hi]
  rw [hw]
  congr 3 <;> refine List.ext_getElem? fun i => ?_
  · rw [(writeRows_get rs hs hw i).1, if_pos (Nat.zero_le i), Nat.sub_zero, hor]
  · rw [(writeRows_get rs hs hw i).2, if_pos (Nat.zero_le i), Nat.sub_zero, hor]

theorem writeRows_fill {n : Nat} {A : Matrix α} {b : Vector α} (hs : Shape n A b)
    (rs : List (Row α)) (hn : rs.length = n) : writeRows rs 0 A b = some (buffersOf rs) := by
  rw [writeRows_zero hs rs hn.le, hn, List.drop_eq_nil_of_le hs.rows.le,
    List.drop_eq_nil_of_le hs.cells.le, List.append_nil, List.append_nil, buffersOf]

-- ---------------------------------------------------------------------------
-- Reordered rows
-- ---------------------------------------------------------------------------

/-- The buffers with their first `E` rows reordered by `f` and the other rows kept. -/
def reorderRows (f : ∀ {δ : Type}, List δ → List δ) (E : Nat) (out : Matrix α × Vector α) :
    Matrix α × Vector α :=
  (⟨f (out.1.rows.take E) ++ out.1.rows.drop E⟩, ⟨f (out.2.cells.take E) ++ out.2.cells.drop E⟩)

section Reorder

variable (f : ∀ {δ : Type}, List δ → List δ)
  (hmap : ∀ {δ ε : Type} (g : δ → ε) (l : List δ), f (l.map g) = (f l).map g)
  (hlen : ∀ {δ : Type} (l : List δ), (f l).length = l.length)
include hmap hlen

theorem writeRows_reorder {n : Nat} {A : Matrix α} {b : Vector α} (hs : Shape n A b)
    (rs : List (Row α)) :
    writeRows (f rs) 0 A b = (writeRows rs 0 A b).map (reorderRows f rs.length) := by
  by_cases hn : rs.length ≤ n
  · rw [writeRows_zero hs _ ((hlen rs).symm ▸ hn), writeRows_zero hs rs hn, Option.map_some',
      reorderRows]
    simp [hmap, hlen]
  · have hnone : ∀ rs' : List (Row α), rs'.length = rs.length → writeRows rs' 0 A b = none :=
      fun rs' h' => Option.not_isSome_iff_eq_none.mp fun h =>
        hn (by simpa [h'] using (writeRows_isSome rs' hs (Nat.zero_le n)).mp h)
    rw [hnone _ (hlen rs), hnone rs rfl]
    rfl

end Reorder

end SupportPolygon
