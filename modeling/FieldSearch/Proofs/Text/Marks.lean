import Mathlib.Data.List.Basic

/-! Texts in parts with marks between them. Where a mark is not a character of the parts, the parts
can be told from the text. -/

namespace FieldSearch

variable {α : Type} {mark mark' : α} {xs ys xs' ys' : List α}

/-- What stands before the first mark is known, and so is what stands behind it. -/
theorem append_cons_inj (hxs : mark ∉ xs) (hys : mark ∉ ys)
    (heq : xs ++ mark :: xs' = ys ++ mark :: ys') : xs = ys ∧ xs' = ys' := by
  obtain ⟨zs, rfl, h⟩ | ⟨zs, rfl, h⟩ := List.append_eq_append_iff.mp heq
  · cases zs with
    | nil => simp_all
    | cons z zs => simp_all
  · cases zs with
    | nil => simp_all
    | cons z zs => simp_all

/-- What stands behind the last mark is known, and so is what stands before it. -/
theorem append_cons_inj_right (hxs : mark ∉ xs') (hys : mark ∉ ys')
    (heq : xs ++ mark :: xs' = ys ++ mark :: ys') : xs = ys ∧ xs' = ys' := by
  have hreverse : xs'.reverse ++ mark :: xs.reverse = ys'.reverse ++ mark :: ys.reverse := by
    simpa using congrArg List.reverse heq
  obtain ⟨hafter, hbefore⟩ := append_cons_inj (by simpa using hxs) (by simpa using hys) hreverse
  exact ⟨List.reverse_injective hbefore, List.reverse_injective hafter⟩

/-- Of two marks one comes first. -/
theorem append_cons_ne (hne : mark ≠ mark') (hxs : mark' ∉ xs) (hys : mark ∉ ys) :
    xs ++ mark :: xs' ≠ ys ++ mark' :: ys' := by
  intro heq
  obtain ⟨zs, rfl, h⟩ | ⟨zs, rfl, h⟩ := List.append_eq_append_iff.mp heq
  · cases zs <;> simp_all
  · cases zs <;> simp_all

end FieldSearch
