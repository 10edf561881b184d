import Mathlib.Data.List.Induction
import Mathlib.Order.MinMax

/-!
# A running minimum that also names an entry

Entries carry a stamp and a name and are merged one after another, in the order they come. The
merge keeps one stamp, the least so far, and one name: it takes over the name of an entry
whose stamp is not under the one it keeps. So it names the newest entry exactly where, since
that came last, each entry was older than all before it. Nothing here names a particular kind
of entry.
-/
namespace MatrixRtc.RunningMerges

variable {τ κ : Type*}

/-- One name to a stamp, and one stamp to a name. -/
def Consistent (entries : List (τ × κ)) : Prop :=
  ∀ x ∈ entries, ∀ y ∈ entries, x.2 = y.2 ↔ x.1 = y.1

theorem Consistent.of_append {xs ys : List (τ × κ)} (one : Consistent (xs ++ ys)) :
    Consistent xs :=
  fun x hx y hy => one x (List.mem_append_left ys hx) y (List.mem_append_left ys hy)

variable [LinearOrder τ]

/-- After `entry`, each is older than all that came before it. -/
structure OlderAfter (before : List (τ × κ)) (entry : τ × κ) (after : List (τ × κ)) : Prop where
  falling : (entry :: after).Pairwise fun x y => y.1 < x.1
  under : ∀ x ∈ before, ∀ y ∈ after, y.1 < x.1

/-- Since the newest entry came last, each was older than all before it. -/
def NewestLast (entries : List (τ × κ)) : Prop :=
  ∃ before newest after, entries = before ++ newest :: after ∧
    (∀ x ∈ entries, x.1 ≤ newest.1) ∧ OlderAfter before newest after

/-- What the merge keeps of the entries: the name is that of the last entry that was not older
than all before it. -/
structure Kept (entries : List (τ × κ)) (least : τ) (name : κ) : Prop where
  least_mem : ∃ x ∈ entries, x.1 = least
  least_le : ∀ x ∈ entries, least ≤ x.1
  named : ∃ before entry after, entries = before ++ entry :: after ∧ entry.2 = name ∧
    OlderAfter before entry after ∧ (before = [] ∨ ∃ x ∈ before, x.1 ≤ entry.1)

theorem OlderAfter.nil (before : List (τ × κ)) (entry : τ × κ) : OlderAfter before entry [] :=
  ⟨List.pairwise_singleton _ entry, fun _ _ _ h => nomatch h⟩

theorem OlderAfter.snoc {before after : List (τ × κ)} {entry last : τ × κ}
    (h : OlderAfter before entry after)
    (older : ∀ x ∈ before ++ entry :: after, last.1 < x.1) :
    OlderAfter before entry (after ++ [last]) := by
  constructor
  · rw [← List.cons_append, List.pairwise_append]
    refine ⟨h.falling, List.pairwise_singleton _ last, fun x hx y hy => ?_⟩
    obtain rfl := List.mem_singleton.mp hy
    exact older x (List.mem_append_right before hx)
  · intro x hx y hy
    rcases List.mem_append.mp hy with hy | hy
    · exact h.under x hx y hy
    · obtain rfl := List.mem_singleton.mp hy
      exact older x (List.mem_append_left _ hx)

theorem Kept.single (entry : τ × κ) : Kept [entry] entry.1 entry.2 where
  least_mem := ⟨entry, List.mem_singleton_self entry, rfl⟩
  least_le := fun x hx => by rw [List.mem_singleton.mp hx]
  named := ⟨[], entry, [], rfl, rfl, .nil [] entry, .inl rfl⟩

/-- The name kept is the newest entry's exactly where the newest came last. -/
theorem Kept.named_newest_iff {entries : List (τ × κ)} {least : τ} {name : κ}
    (h : Kept entries least name) (one : Consistent entries) {newest : τ × κ}
    (there : newest ∈ entries) (top : ∀ x ∈ entries, x.1 ≤ newest.1) :
    name = newest.2 ↔ NewestLast entries := by
  obtain ⟨before, named, after, split, rfl, older, came⟩ := h.named
  have named_mem : named ∈ entries := by simp [split]
  constructor
  · intro same
    have stamp := (one named named_mem newest there).mp same
    exact ⟨before, named, after, split, fun x hx => stamp ▸ top x hx, older⟩
  · rintro ⟨before', newest', after', split', top', older'⟩
    have newest_mem : newest' ∈ entries := by simp [split']
    have stamp : newest'.1 = newest.1 :=
      le_antisymm (top newest' newest_mem) (top' newest there)
    suffices named = newest' from
      this ▸ (one newest' newest_mem newest there).mpr stamp
    rcases List.append_eq_append_iff.mp (split.symm.trans split') with
      ⟨rest, -, tail⟩ | ⟨rest, head, tail⟩
    · cases rest with
      | nil => exact (List.cons.inj tail).1
      | cons first rest =>
          -- The newest came after the named one: it would be older than that.
          obtain ⟨rfl, rfl⟩ := List.cons.inj tail
          have under := (List.pairwise_cons.mp older.falling).1 newest' (by simp)
          exact absurd (top' named named_mem) (not_le.mpr under)
    · cases rest with
      | nil => exact (List.cons.inj tail).1.symm
      | cons first rest =>
          -- The named one came after the newest: it would be older than all before it.
          obtain ⟨rfl, rfl⟩ := List.cons.inj tail
          have under : ∀ x ∈ before, named.1 < x.1 := by
            intro x hx
            rw [head, List.mem_append] at hx
            rcases hx with hx | hx
            · exact older'.under x hx named (by simp)
            · have falling := List.pairwise_append.mp
                (show (newest' :: rest ++ named :: after).Pairwise _ from older'.falling)
              exact falling.2.2 x hx named (List.mem_cons_self)
          rcases came with none_ | ⟨x, hx, above⟩
          · simp [none_] at head
          · exact absurd above (not_le.mpr (under x hx))

variable [DecidableEq κ]

/-- One entry merged in; the entry that is named already changes nothing. -/
def merge : Option (τ × κ) → τ × κ → Option (τ × κ)
  | none, entry => some entry
  | some (least, name), entry =>
      if name = entry.2 then some (least, name)
      else some (min least entry.1, if least ≤ entry.1 then entry.2 else name)

/-- One more entry. -/
theorem Kept.snoc {entries : List (τ × κ)} {entry : τ × κ} {least : τ} {name : κ}
    (one : Consistent (entries ++ [entry])) (h : Kept entries least name) :
    ∃ least' name', merge (some (least, name)) entry = some (least', name') ∧
      Kept (entries ++ [entry]) least' name' := by
  obtain ⟨x, hx, rfl⟩ := h.least_mem
  have mem : x ∈ entries ++ [entry] := List.mem_append_left _ hx
  have last : entry ∈ entries ++ [entry] := List.mem_append_right _ (List.mem_singleton_self _)
  -- The entry is named from now on, where it is not older than the oldest.
  have takes : x.1 ≤ entry.1 → Kept (entries ++ [entry]) x.1 entry.2 := fun above =>
    { least_mem := ⟨x, mem, rfl⟩
      least_le := fun y hy => by
        rcases List.mem_append.mp hy with hy | hy
        · exact h.least_le y hy
        · rw [List.mem_singleton.mp hy]
          exact above
      named := ⟨entries, entry, [], rfl, rfl, .nil entries entry, .inr ⟨x, hx, above⟩⟩ }
  obtain ⟨before, named, after, split, name_eq, older, came⟩ := h.named
  by_cases same : name = entry.2
  · refine ⟨x.1, name, by simp [merge, same], ?_⟩
    have named_mem : named ∈ entries := by simp [split]
    have stamp : named.1 = entry.1 :=
      (one named (List.mem_append_left _ named_mem) entry last).mp (name_eq.trans same)
    rw [same]
    exact takes (stamp ▸ h.least_le named named_mem)
  · by_cases above : x.1 ≤ entry.1
    · refine ⟨x.1, entry.2, by simp [merge, same, above], takes above⟩
    · have under : entry.1 < x.1 := not_le.mp above
      refine ⟨entry.1, name, by simp [merge, same, above, under.le], ?_⟩
      have all_under : ∀ y ∈ entries, entry.1 < y.1 := fun y hy => under.trans_le (h.least_le y hy)
      exact
        { least_mem := ⟨entry, last, rfl⟩
          least_le := fun y hy => by
            rcases List.mem_append.mp hy with hy | hy
            · exact (all_under y hy).le
            · rw [List.mem_singleton.mp hy]
          named := ⟨before, named, after ++ [entry], by simp [split], name_eq,
            older.snoc (split ▸ all_under), came⟩ }

theorem kept_foldl {entries : List (τ × κ)} (one : Consistent entries) (some_ : entries ≠ []) :
    ∃ least name, entries.foldl merge none = some (least, name) ∧ Kept entries least name := by
  induction entries using List.reverseRecOn with
  | nil => exact absurd rfl some_
  | append_singleton entries entry ih =>
      rw [List.foldl_append, List.foldl_cons, List.foldl_nil]
      by_cases first : entries = []
      · subst first
        exact ⟨entry.1, entry.2, rfl, Kept.single entry⟩
      · obtain ⟨least, name, kept, h⟩ := ih one.of_append first
        rw [kept]
        exact h.snoc one

end MatrixRtc.RunningMerges
