import Mathlib.Data.List.Sort
import Mathlib.Data.List.Nodup

/-!
# Sorting by keys

A list in the order of its elements' keys, where those of one key stay as they came. Where no
two elements share a key, the order they came in does not matter.
-/
namespace MatrixRtc.KeySorts

variable {α β κ : Type*} [LinearOrder κ] {key key' : α → κ} {xs ys : List α}

/-- A stable sort by key. -/
def sortByKey (key : α → κ) (xs : List α) : List α := xs.insertionSort fun x y => key x ≤ key y

theorem perm_sortByKey (key : α → κ) (xs : List α) : (sortByKey key xs).Perm xs :=
  List.perm_insertionSort _ xs

@[simp] theorem mem_sortByKey {x : α} : x ∈ sortByKey key xs ↔ x ∈ xs :=
  (perm_sortByKey key xs).mem_iff

theorem pairwise_sortByKey (key : α → κ) (xs : List α) :
    (sortByKey key xs).Pairwise fun x y => key x ≤ key y := by
  have total : Std.Total fun x y : α => key x ≤ key y := ⟨fun x y => le_total (key x) (key y)⟩
  have transitive : IsTrans α fun x y => key x ≤ key y := ⟨fun _ _ _ => le_trans⟩
  exact List.pairwise_insertionSort _ xs

theorem sortByKey_congr (agree : ∀ x ∈ xs, key x = key' x) :
    sortByKey key xs = sortByKey key' xs := by
  have mapped := List.map_insertionSort (fun x y => key x ≤ key y) (fun x y => key' x ≤ key' y) id
    xs fun x hx y hy => by rw [agree x hx, agree y hy]; rfl
  rwa [List.map_id, List.map_id] at mapped

theorem map_sortByKey (f : α → β) (key : β → κ) (xs : List α) :
    (sortByKey (key ∘ f) xs).map f = sortByKey key (xs.map f) :=
  List.map_insertionSort _ _ f xs fun _ _ _ _ => Iff.rfl

theorem sortByKey_eq_of_perm (distinct : ∀ x ∈ xs, ∀ y ∈ xs, key x = key y → x = y)
    (same : xs.Perm ys) : sortByKey key xs = sortByKey key ys := by
  refine List.Perm.eq_of_pairwise ?_ (pairwise_sortByKey key xs) (pairwise_sortByKey key ys)
    (((perm_sortByKey key xs).trans same).trans (perm_sortByKey key ys).symm)
  intro x y hx hy below above
  exact distinct x (mem_sortByKey.mp hx) y (same.mem_iff.mpr (mem_sortByKey.mp hy))
    (le_antisymm below above)

theorem filter_sortByKey (keep : α → Bool)
    (distinct : ∀ x ∈ xs, ∀ y ∈ xs, key x = key y → x = y) :
    (sortByKey key xs).filter keep = sortByKey key (xs.filter keep) := by
  refine List.Perm.eq_of_pairwise ?_ ((pairwise_sortByKey key xs).filter keep)
    (pairwise_sortByKey key _)
    (((perm_sortByKey key xs).filter keep).trans (perm_sortByKey key _).symm)
  intro x y hx hy below above
  exact distinct x (mem_sortByKey.mp (List.mem_filter.mp hx).1) y
    (List.mem_filter.mp (mem_sortByKey.mp hy)).1 (le_antisymm below above)

end MatrixRtc.KeySorts
