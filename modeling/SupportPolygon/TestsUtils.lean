import Mathlib

/-!
# The comparison helpers of the tests

`tests_utils::matrixAreEqual` and `vectorAreEqual` compare entry by entry with gtest's
`FloatingPoint<double>::AlmostEquals`, a double being its 64 bits. Both are one
definition, `areEqualWith`, applied to each one's shape test, message and entries. A
helper returns `true` exactly when it records nothing, exactly when the shapes agree and
every pair is almost equal, and it records exactly the failing messages in loop order
(`areEqual_spec`).
-/

namespace SupportPolygon

-- ---------------------------------------------------------------------------
-- gtest's comparison of doubles
-- ---------------------------------------------------------------------------

def kSignBitMask : UInt64 := (1 : UInt64) <<< 63

def kFractionBitMask : UInt64 := ~~~(0 : UInt64) >>> 12

def kExponentBitMask : UInt64 := ~~~(kSignBitMask ||| kFractionBitMask)

def kMaxUlps : UInt64 := 4

/-- `FloatingPoint<double>::is_nan`: every exponent bit set and some fraction bit set. -/
def isNan (bits : UInt64) : Bool :=
  (kExponentBitMask &&& bits) == kExponentBitMask && (kFractionBitMask &&& bits) != 0

/-- `SignAndMagnitudeToBiased`: the bits of a double, read as sign and magnitude, moved to a
scale on which the doubles are in order. -/
def signAndMagnitudeToBiased (sam : UInt64) : UInt64 :=
  if (kSignBitMask &&& sam) != 0 then ~~~sam + 1 else kSignBitMask ||| sam

def distanceBetweenSignAndMagnitudeNumbers (sam1 sam2 : UInt64) : UInt64 :=
  let biased1 := signAndMagnitudeToBiased sam1
  let biased2 := signAndMagnitudeToBiased sam2
  if biased1 ≥ biased2 then biased1 - biased2 else biased2 - biased1

/-- `FloatingPoint<double>::AlmostEquals`. -/
def almostEquals (lhs rhs : UInt64) : Bool :=
  if isNan lhs || isNan rhs then false
  else decide (distanceBetweenSignAndMagnitudeNumbers lhs rhs ≤ kMaxUlps)

theorem distance_comm (a b : UInt64) :
    distanceBetweenSignAndMagnitudeNumbers a b = distanceBetweenSignAndMagnitudeNumbers b a := by
  unfold distanceBetweenSignAndMagnitudeNumbers
  generalize signAndMagnitudeToBiased a = x
  generalize signAndMagnitudeToBiased b = y
  by_cases h : y ≤ x <;> by_cases h' : x ≤ y <;> simp only [ge_iff_le, h, h', if_true, if_false]
  · rw [UInt64.eq_of_toBitVec_eq (BitVec.le_antisymm h h')]
  · exact ((UInt64.le_total x y).elim h' h).elim

theorem almostEquals_comm (a b : UInt64) : almostEquals a b = almostEquals b a := by
  rw [almostEquals, almostEquals, distance_comm, Bool.or_comm]

theorem almostEquals_self (a : UInt64) : almostEquals a a = !isNan a := by
  cases h : isNan a <;> simp [almostEquals, distanceBetweenSignAndMagnitudeNumbers, h, kMaxUlps]

/-- `+0.0` and `-0.0` are almost equal: their biased bits coincide. -/
example : almostEquals 0 0x8000000000000000 = true := by decide

-- ---------------------------------------------------------------------------
-- The two helpers
-- ---------------------------------------------------------------------------

/-- One entry's `EXPECT_DOUBLE_EQ`, recording its message when the pair differs, and
`areEqual = areEqual & elementAreEqual`. -/
def expectStep (acc : Bool × List String) (entry : UInt64 × UInt64 × String) :
    Bool × List String :=
  let elementAreEqual := almostEquals entry.1 entry.2.1
  (acc.1 && elementAreEqual, if elementAreEqual then acc.2 else acc.2 ++ [entry.2.2])

/-- What both helpers do: `EXPECT_TRUE(sizeAreCompatible)` with its message, `false` if the
shapes differ, and otherwise every entry compared in loop order, each with the message of
its failure. -/
def areEqualWith (sizeAreCompatible : Bool) (sizeMessage : String)
    (entries : List (UInt64 × UInt64 × String)) : Bool × List String :=
  if sizeAreCompatible then entries.foldl expectStep (true, []) else (false, [sizeMessage])

/-- A `yarp::sig::Matrix` of doubles: its shape and its entries row by row, as YARP stores
them, each double by its bits. -/
structure DoubleMatrix where
  rows : Nat
  cols : Nat
  data : List UInt64
  length_data : data.length = rows * cols

/-- `m(r, c)`. -/
def DoubleMatrix.get (m : DoubleMatrix) (r c : Nat) : UInt64 := m.data.getD (r * m.cols + c) 0

/-- `tests_utils::matrixAreEqual`. -/
def matrixAreEqual (m0 m1 : DoubleMatrix) : Bool × List String :=
  areEqualWith (m0.rows == m1.rows && m0.cols == m1.cols)
    "Size of compared matrices are not compatible"
    ((List.range m0.rows).flatMap fun r => (List.range m0.cols).map fun c =>
      (m0.get r c, m1.get r c, "Elements in (" ++ toString r ++ "," ++ toString c ++ ") are not equal"))

/-- `tests_utils::vectorAreEqual`, for a `yarp::sig::Vector` of doubles given by their bits. -/
def vectorAreEqual (v0 v1 : List UInt64) : Bool × List String :=
  areEqualWith (v0.length == v1.length) "Size of compared vectors are not equal"
    ((List.range v0.length).map fun s =>
      (v0.getD s 0, v1.getD s 0, "Elements in  (" ++ toString s ++ ") are not equal"))

-- ---------------------------------------------------------------------------
-- What a comparison returns and records
-- ---------------------------------------------------------------------------

theorem foldl_expectStep (entries : List (UInt64 × UInt64 × String)) :
    ∀ acc : Bool × List String, entries.foldl expectStep acc =
      (acc.1 && entries.all fun e => almostEquals e.1 e.2.1,
        acc.2 ++ (entries.filter fun e => !almostEquals e.1 e.2.1).map fun e => e.2.2) := by
  induction entries with
  | nil => simp
  | cons e entries ih =>
    intro acc
    rw [List.foldl_cons, ih]
    cases h : almostEquals e.1 e.2.1 <;> simp [expectStep, h]

theorem areEqualWith_eq (ok : Bool) (msg : String) (entries : List (UInt64 × UInt64 × String)) :
    areEqualWith ok msg entries =
      if ok then (entries.all fun e => almostEquals e.1 e.2.1,
        (entries.filter fun e => !almostEquals e.1 e.2.1).map fun e => e.2.2)
      else (false, [msg]) := by
  unfold areEqualWith
  split <;> simp [foldl_expectStep]

theorem areEqualWith_spec (ok : Bool) (msg : String) (entries : List (UInt64 × UInt64 × String)) :
    ((areEqualWith ok msg entries).1 = true ↔ (areEqualWith ok msg entries).2 = []) ∧
    ((areEqualWith ok msg entries).1 = true ↔
      ok = true ∧ ∀ e ∈ entries, almostEquals e.1 e.2.1 = true) := by
  rw [areEqualWith_eq]
  cases ok <;> simp

theorem areEqualWith_swap (ok : Bool) (msg : String) (entries : List (UInt64 × UInt64 × String)) :
    areEqualWith ok msg (entries.map fun e => (e.2.1, e.1, e.2.2)) = areEqualWith ok msg entries := by
  simp [areEqualWith_eq, List.filter_map, Function.comp_def, almostEquals_comm]

theorem mem_data_iff (m : DoubleMatrix) (x : UInt64) :
    x ∈ m.data ↔ ∃ r < m.rows, ∃ c < m.cols, m.get r c = x := by
  constructor
  · intro hx
    obtain ⟨i, hi, rfl⟩ := List.getElem_of_mem hx
    have hcols : 0 < m.cols := Nat.pos_of_ne_zero fun h0 => by simp [m.length_data, h0] at hi
    refine ⟨i / m.cols, ?_, i % m.cols, Nat.mod_lt i hcols, ?_⟩
    · rw [Nat.div_lt_iff_lt_mul hcols, ← m.length_data]; exact hi
    · rw [DoubleMatrix.get, Nat.mul_comm, Nat.div_add_mod, List.getD_eq_getElem _ _ hi]
  · rintro ⟨r, hr, c, hc, rfl⟩
    have hlt : r * m.cols + c < m.data.length := by
      rw [m.length_data]
      calc r * m.cols + c < r * m.cols + m.cols := by omega
        _ = (r + 1) * m.cols := by ring
        _ ≤ m.rows * m.cols := Nat.mul_le_mul_right _ hr
    rw [DoubleMatrix.get, List.getD_eq_getElem _ _ hlt]
    exact List.getElem_mem hlt

theorem matrixAreEqual_log (m0 m1 : DoubleMatrix) :
    (matrixAreEqual m0 m1).2 =
      if m0.rows = m1.rows ∧ m0.cols = m1.cols then
        (List.range m0.rows).flatMap fun r =>
          ((List.range m0.cols).filter fun c => !almostEquals (m0.get r c) (m1.get r c)).map
            fun c => "Elements in (" ++ toString r ++ "," ++ toString c ++ ") are not equal"
      else ["Size of compared matrices are not compatible"] := by
  rw [matrixAreEqual, areEqualWith_eq]
  by_cases hs : m0.rows = m1.rows ∧ m0.cols = m1.cols
  · simp [hs, List.filter_flatMap, List.map_flatMap, List.filter_map, Function.comp_def]
  · simp [hs]

theorem vectorAreEqual_log (v0 v1 : List UInt64) :
    (vectorAreEqual v0 v1).2 =
      if v0.length = v1.length then
        ((List.range v0.length).filter fun s => !almostEquals (v0.getD s 0) (v1.getD s 0)).map
          fun s => "Elements in  (" ++ toString s ++ ") are not equal"
      else ["Size of compared vectors are not equal"] := by
  rw [vectorAreEqual, areEqualWith_eq]
  by_cases hs : v0.length = v1.length
  · simp [hs, List.filter_map, Function.comp_def]
  · simp [hs]

theorem matrixAreEqual_spec (m0 m1 : DoubleMatrix) :
    ((matrixAreEqual m0 m1).1 = true ↔ (matrixAreEqual m0 m1).2 = []) ∧
    ((matrixAreEqual m0 m1).1 = true ↔ m0.rows = m1.rows ∧ m0.cols = m1.cols ∧
      ∀ r < m0.rows, ∀ c < m0.cols, almostEquals (m0.get r c) (m1.get r c) = true) := by
  obtain ⟨h1, h2⟩ := areEqualWith_spec (m0.rows == m1.rows && m0.cols == m1.cols)
    "Size of compared matrices are not compatible" ((List.range m0.rows).flatMap fun r =>
      (List.range m0.cols).map fun c => (m0.get r c, m1.get r c,
        "Elements in (" ++ toString r ++ "," ++ toString c ++ ") are not equal"))
  refine ⟨h1, h2.trans ⟨fun ⟨hok, h⟩ => ?_, fun ⟨hr, hc, h⟩ => ⟨by simp [hr, hc], fun e he => ?_⟩⟩⟩
  · simp only [Bool.and_eq_true, beq_iff_eq] at hok
    exact ⟨hok.1, hok.2, fun r hr c hc => (h _ (List.mem_flatMap.mpr
      ⟨r, List.mem_range.mpr hr, List.mem_map.mpr ⟨c, List.mem_range.mpr hc, rfl⟩⟩) :)⟩
  · simp only [List.mem_flatMap, List.mem_range, List.mem_map] at he
    obtain ⟨r, hr', c, hc', rfl⟩ := he
    exact h r hr' c hc'

theorem vectorAreEqual_spec (v0 v1 : List UInt64) :
    ((vectorAreEqual v0 v1).1 = true ↔ (vectorAreEqual v0 v1).2 = []) ∧
    ((vectorAreEqual v0 v1).1 = true ↔ v0.length = v1.length ∧
      ∀ s < v0.length, almostEquals (v0.getD s 0) (v1.getD s 0) = true) := by
  obtain ⟨h1, h2⟩ := areEqualWith_spec (v0.length == v1.length)
    "Size of compared vectors are not equal" ((List.range v0.length).map fun s =>
      (v0.getD s 0, v1.getD s 0, "Elements in  (" ++ toString s ++ ") are not equal"))
  exact ⟨h1, h2.trans (by simp)⟩

/-- What both helpers return and record: `true` exactly when they record nothing, exactly
when the shapes agree and every pair of entries is almost equal, and the messages recorded
are the shape's, or one for each entry that differs, in loop order. -/
theorem areEqual_spec (m0 m1 : DoubleMatrix) (v0 v1 : List UInt64) :
    (((matrixAreEqual m0 m1).1 = true ↔ (matrixAreEqual m0 m1).2 = []) ∧
      ((matrixAreEqual m0 m1).1 = true ↔ m0.rows = m1.rows ∧ m0.cols = m1.cols ∧
        ∀ r < m0.rows, ∀ c < m0.cols, almostEquals (m0.get r c) (m1.get r c) = true) ∧
      (matrixAreEqual m0 m1).2 =
        if m0.rows = m1.rows ∧ m0.cols = m1.cols then
          (List.range m0.rows).flatMap fun r =>
            ((List.range m0.cols).filter fun c => !almostEquals (m0.get r c) (m1.get r c)).map
              fun c => "Elements in (" ++ toString r ++ "," ++ toString c ++ ") are not equal"
        else ["Size of compared matrices are not compatible"]) ∧
    (((vectorAreEqual v0 v1).1 = true ↔ (vectorAreEqual v0 v1).2 = []) ∧
      ((vectorAreEqual v0 v1).1 = true ↔ v0.length = v1.length ∧
        ∀ s < v0.length, almostEquals (v0.getD s 0) (v1.getD s 0) = true) ∧
      (vectorAreEqual v0 v1).2 =
        if v0.length = v1.length then
          ((List.range v0.length).filter fun s => !almostEquals (v0.getD s 0) (v1.getD s 0)).map
            fun s => "Elements in  (" ++ toString s ++ ") are not equal"
        else ["Size of compared vectors are not equal"]) :=
  ⟨⟨(matrixAreEqual_spec m0 m1).1, (matrixAreEqual_spec m0 m1).2, matrixAreEqual_log m0 m1⟩,
    ⟨(vectorAreEqual_spec v0 v1).1, (vectorAreEqual_spec v0 v1).2, vectorAreEqual_log v0 v1⟩⟩

-- ---------------------------------------------------------------------------
-- Symmetry, and equality with itself
-- ---------------------------------------------------------------------------

theorem matrixAreEqual_comm (m0 m1 : DoubleMatrix) : matrixAreEqual m0 m1 = matrixAreEqual m1 m0 := by
  unfold matrixAreEqual
  by_cases hs : m0.rows = m1.rows ∧ m0.cols = m1.cols
  · obtain ⟨hr, hc⟩ := hs
    rw [← areEqualWith_swap, hr, hc]
    simp [List.map_flatMap, Function.comp_def]
  · have h1 : (m0.rows == m1.rows && m0.cols == m1.cols) = false := by simpa using hs
    have h2 : (m1.rows == m0.rows && m1.cols == m0.cols) = false := by
      simpa using fun (a : m1.rows = m0.rows) (b : m1.cols = m0.cols) => hs ⟨a.symm, b.symm⟩
    simp [areEqualWith, h1, h2]

theorem vectorAreEqual_comm (v0 v1 : List UInt64) : vectorAreEqual v0 v1 = vectorAreEqual v1 v0 := by
  unfold vectorAreEqual
  by_cases hs : v0.length = v1.length
  · rw [← areEqualWith_swap, hs]
    simp [Function.comp_def]
  · have h1 : (v0.length == v1.length) = false := by simpa using hs
    have h2 : (v1.length == v0.length) = false := by simpa using Ne.symm hs
    simp [areEqualWith, h1, h2]

/-- Both helpers are symmetric, and a matrix or a vector is equal to itself exactly when none
of its entries is a NaN. -/
theorem areEqual_comm_self (m0 m1 : DoubleMatrix) (v0 v1 : List UInt64) :
    matrixAreEqual m0 m1 = matrixAreEqual m1 m0 ∧ vectorAreEqual v0 v1 = vectorAreEqual v1 v0 ∧
    ((matrixAreEqual m0 m0).1 = true ↔ ∀ x ∈ m0.data, isNan x = false) ∧
    ((vectorAreEqual v0 v0).1 = true ↔ ∀ x ∈ v0, isNan x = false) := by
  refine ⟨matrixAreEqual_comm m0 m1, vectorAreEqual_comm v0 v1, ?_, ?_⟩
  · rw [(matrixAreEqual_spec m0 m0).2]
    simp only [almostEquals_self, Bool.not_eq_true', true_and, mem_data_iff]
    exact ⟨fun h x ⟨r, hr, c, hc, hx⟩ => hx ▸ h r hr c hc, fun h r hr c hc => h _ ⟨r, hr, c, hc, rfl⟩⟩
  · rw [(vectorAreEqual_spec v0 v0).2]
    simp only [almostEquals_self, Bool.not_eq_true', true_and]
    constructor
    · intro h x hx
      obtain ⟨s, hs, rfl⟩ := List.getElem_of_mem hx
      have h := h s hs
      rwa [List.getD_eq_getElem _ _ hs] at h
    · intro h s hs
      rw [List.getD_eq_getElem _ _ hs]
      exact h _ (List.getElem_mem hs)

end SupportPolygon
