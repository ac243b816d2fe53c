import Mathlib.Data.List.Induction
import Mathlib.Data.List.Sort
import Mathlib.Order.Bounds.Basic
import Mathlib.Order.MinMax

/-!
# The best of a ranking

A list without repetitions that is sorted by a ranking is sorted strictly. A beginning of such a list
holds the best of it: whatever outranks a member of the beginning stands there too, further to the
front. The largest of some numbers is found by going through them once.
-/

namespace Common

variable {A : Type*} {le lt : A → A → Prop}

/-- Sorting a list without repetitions sorts it strictly. -/
theorem pairwise_lt_insertionSort [DecidableRel le] [Std.Total le] [IsTrans A le]
    (hstrict : ∀ a b, le a b → a ≠ b → lt a b) {l : List A} (hnodup : l.Nodup) :
    (l.insertionSort le).Pairwise lt := by
  have hsorted := List.pairwise_insertionSort le l
  have hdistinct : (l.insertionSort le).Nodup := (List.perm_insertionSort le l).nodup_iff.mpr hnodup
  exact hsorted.imp₂ hstrict hdistinct

/-- Whatever outranks a member of a beginning stands before it. -/
theorem exists_earlier_of_lt [Std.Asymm lt] {l : List A} {count i : ℕ} {better worse : A}
    (hsorted : l.Pairwise lt) (hmem : better ∈ l) (hlt : lt better worse)
    (hworse : (l.take count)[i]? = some worse) : ∃ j < i, (l.take count)[j]? = some better := by
  obtain ⟨hi, -⟩ := List.getElem?_eq_some_iff.mp hworse
  rw [List.length_take] at hi
  have hworse : l[i]? = some worse := by
    rwa [List.getElem?_take_of_lt (by omega)] at hworse
  obtain ⟨j, hbetter⟩ := List.mem_iff_getElem?.mp hmem
  have hj : j < i := by
    by_contra hge
    rcases (not_lt.mp hge).eq_or_lt with rfl | hafter
    · obtain rfl := Option.some.inj (hworse.symm.trans hbetter)
      exact Std.Asymm.asymm _ _ hlt hlt
    · obtain ⟨hi, rfl⟩ := List.getElem?_eq_some_iff.mp hworse
      obtain ⟨hj, rfl⟩ := List.getElem?_eq_some_iff.mp hbetter
      exact Std.Asymm.asymm _ _ hlt (List.pairwise_iff_getElem.mp hsorted i j hi hj hafter)
  refine ⟨j, hj, ?_⟩
  rwa [List.getElem?_take_of_lt (by omega)]

/-- Going through some numbers finds the largest. -/
theorem isGreatest_foldl_max {numbers : List ℕ} (h : numbers ≠ []) :
    IsGreatest { n | n ∈ numbers } (numbers.foldl max 0) := by
  induction numbers using List.reverseRecOn with
  | nil => exact absurd rfl h
  | append_singleton earlier last ih =>
    rw [List.foldl_append, List.foldl_cons, List.foldl_nil]
    constructor
    · rcases max_choice (earlier.foldl max 0) last with hmax | hmax
      · rw [hmax]
        by_cases hnone : earlier = []
        · rw [hnone] at hmax ⊢
          simp only [List.foldl_nil, Nat.zero_max] at hmax
          simp [hmax]
        · exact List.mem_append_left _ (ih hnone).1
      · rw [hmax]
        exact List.mem_append_right _ List.mem_cons_self
    · intro n hn
      rcases List.mem_append.mp hn with hearlier | hlast
      · exact le_max_of_le_left ((ih (List.ne_nil_of_mem hearlier)).2 hearlier)
      · rw [List.mem_singleton.mp hlast]
        exact le_max_right _ _

end Common
