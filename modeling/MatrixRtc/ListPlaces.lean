import Mathlib.Data.Nat.Notation
import Mathlib.Tactic.SplitIfs

/-!
# Places of a list

What stands at a place of a list to which an entry was added, or in which one was
replaced, and what a list of pairs has under a key. Nothing here names a particular kind
of entry.
-/
namespace MatrixRtc.ListPlaces

variable {α : Type*} {xs : List α} {x y z : α} {i k : ℕ}

theorem of_append (h : (xs ++ [x])[k]? = some y) :
    xs[k]? = some y ∨ k = xs.length ∧ y = x := by
  rw [List.getElem?_append] at h
  split_ifs at h with lt
  · exact Or.inl h
  · rw [List.getElem?_singleton] at h
    split_ifs at h
    cases h
    exact Or.inr ⟨by omega, rfl⟩

theorem of_set (h : (xs.set i x)[k]? = some y) : k = i ∧ y = x ∨ k ≠ i ∧ xs[k]? = some y := by
  rw [List.getElem?_set] at h
  split_ifs at h with same lt
  · cases h
    exact Or.inl ⟨same.symm, rfl⟩
  · exact Or.inr ⟨Ne.symm same, h⟩

theorem of_mem_set (h : y ∈ xs.set i x) : y = x ∨ ∃ k : ℕ, k ≠ i ∧ xs[k]? = some y := by
  obtain ⟨k, at_⟩ := List.mem_iff_getElem?.mp h
  rcases of_set at_ with ⟨-, rfl⟩ | ⟨other, old⟩
  · exact Or.inl rfl
  · exact Or.inr ⟨k, other, old⟩

theorem set_at (present : xs[i]? = some z) : (xs.set i x)[i]? = some x :=
  List.getElem?_set_self (List.getElem?_eq_some_iff.mp present).1

theorem set_mem (present : xs[i]? = some z) : x ∈ xs.set i x :=
  List.mem_of_getElem? (set_at present)

theorem mem_of_ne (other : k ≠ i) (old : xs[k]? = some y) : y ∈ xs.set i x := by
  apply List.mem_of_getElem?
  rw [List.getElem?_set_ne other.symm, old]

section Lookup
variable {κ β : Type*} [BEq κ] [LawfulBEq κ] {pairs : List (κ × β)} {key other : κ}

theorem lookup_filter_ne (h : other ≠ key) :
    (pairs.filter fun p => p.1 != key).lookup other = pairs.lookup other := by
  induction pairs with
  | nil => rfl
  | cons p pairs ih =>
      obtain ⟨k, v⟩ := p
      by_cases hk : k = key
      · subst hk
        have ho : (other == k) = false := by simpa using h
        simp [List.lookup_cons, ho, ih]
      · have hkeep : (k != key) = true := by simpa using hk
        simp [List.lookup_cons, hkeep, ih]

theorem lookup_eq_none : pairs.lookup key = none ↔ ∀ p ∈ pairs, p.1 ≠ key := by
  simp only [List.lookup_eq_none_iff, bne_iff_ne, ne_eq]
  exact forall₂_congr fun p _ => not_congr eq_comm

theorem lookup_of_mem {v : β} (once : (pairs.map Prod.fst).Nodup) (there : (key, v) ∈ pairs) :
    pairs.lookup key = some v := by
  induction pairs with
  | nil => cases there
  | cons p pairs ih =>
      obtain ⟨k, w⟩ := p
      obtain ⟨fresh, tail⟩ := List.nodup_cons.mp once
      rcases List.mem_cons.mp there with eq | later
      · cases eq
        simp
      · have ne : key ≠ k := by
          rintro rfl
          exact fresh (List.mem_map.mpr ⟨_, later, rfl⟩)
        have ho : (key == k) = false := by simpa using ne
        simp [List.lookup_cons, ho, ih tail later]

theorem mem_of_lookup {v : β} (h : pairs.lookup key = some v) : (key, v) ∈ pairs := by
  obtain ⟨before, after, rfl, -⟩ := List.lookup_eq_some_iff.mp h
  exact List.mem_append_right _ List.mem_cons_self

end Lookup

theorem find?_congr {p q : α → Bool} (same : ∀ x ∈ xs, p x = q x) :
    xs.find? p = xs.find? q := by
  induction xs with
  | nil => rfl
  | cons x xs ih =>
      rw [List.find?_cons, List.find?_cons, same x List.mem_cons_self,
        ih fun y hy => same y (List.mem_cons_of_mem x hy)]

end MatrixRtc.ListPlaces
