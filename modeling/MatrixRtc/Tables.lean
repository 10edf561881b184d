import Mathlib.Data.List.AList

/-!
# Tables

Maps with one value a key, kept as association lists: what a table has under a key after
its entries were filtered, or their values mapped. Nothing here names a particular kind of
entry.
-/
namespace MatrixRtc.Tables

/-- A map from keys to values of one type. -/
abbrev Table (κ : Type*) (β : Type*) := AList fun _ : κ => β

variable {κ β γ : Type*} [DecidableEq κ]

/-- `HashMap::retain`. -/
def retain (t : Table κ β) (keep : κ → β → Bool) : Table κ β :=
  ⟨t.entries.filter fun e => keep e.1 e.2, t.nodupKeys.sublist List.filter_sublist⟩

/-- Every value replaced, under its key. -/
def mapValues (t : Table κ β) (f : κ → β → γ) : Table κ γ :=
  ⟨t.entries.map fun e => ⟨e.1, f e.1 e.2⟩, by
    have keys : (t.entries.map fun e => (⟨e.1, f e.1 e.2⟩ : Sigma fun _ : κ => γ)).keys =
        t.entries.keys := by simp [List.keys, Function.comp_def]
    rw [List.NodupKeys, keys]
    exact t.nodupKeys⟩

theorem lookup_eq_some_iff {t : Table κ β} {key : κ} {v : β} :
    t.lookup key = some v ↔ ⟨key, v⟩ ∈ t.entries := AList.mem_lookup_iff

theorem lookup_retain (t : Table κ β) (keep : κ → β → Bool) (key : κ) :
    (retain t keep).lookup key = (t.lookup key).filter (keep key) := by
  ext v
  rw [lookup_eq_some_iff, Option.filter_eq_some_iff,
    lookup_eq_some_iff]
  simp [retain]

theorem of_lookup_retain {t : Table κ β} {keep : κ → β → Bool} {key : κ} {v : β}
    (h : (retain t keep).lookup key = some v) : t.lookup key = some v ∧ keep key v = true := by
  rwa [lookup_retain, Option.filter_eq_some_iff] at h

theorem lookup_mapValues (t : Table κ β) (f : κ → β → γ) (key : κ) :
    (mapValues t f).lookup key = (t.lookup key).map (f key) := by
  ext v
  rw [lookup_eq_some_iff, Option.map_eq_some_iff]
  simp only [mapValues, List.mem_map, lookup_eq_some_iff]
  constructor
  · rintro ⟨⟨k, w⟩, there, same⟩
    cases same
    exact ⟨w, there, rfl⟩
  · rintro ⟨w, there, rfl⟩
    exact ⟨⟨key, w⟩, there, rfl⟩

theorem map_kerase (f : κ → β → γ) (key : κ) (entries : List (Sigma fun _ : κ => β)) :
    (entries.kerase key).map (fun e => (⟨e.1, f e.1 e.2⟩ : Sigma fun _ : κ => γ)) =
      (entries.map fun e => ⟨e.1, f e.1 e.2⟩).kerase key := by
  induction entries with
  | nil => rfl
  | cons e rest ih =>
      let mapped : Sigma fun _ : κ => γ := ⟨e.1, f e.1 e.2⟩
      by_cases same : key = e.1
      · rw [List.kerase_cons_eq same, List.map_cons]
        exact (List.kerase_cons_eq (show key = mapped.1 from same)).symm
      · rw [List.kerase_cons_ne same, List.map_cons, ih, List.map_cons]
        exact (List.kerase_cons_ne (show key ≠ mapped.1 from same)).symm

theorem mapValues_erase (t : Table κ β) (f : κ → β → γ) (key : κ) :
    mapValues (t.erase key) f = (mapValues t f).erase key :=
  AList.ext (map_kerase f key t.entries)

theorem mapValues_insert (t : Table κ β) (f : κ → β → γ) (key : κ) (v : β) :
    mapValues (t.insert key v) f = (mapValues t f).insert key (f key v) := by
  refine AList.ext ?_
  simp only [mapValues, AList.entries_insert, List.map_cons, map_kerase]

omit [DecidableEq κ] in
theorem mapValues_mapValues {δ : Type*} (t : Table κ β) (f : κ → β → γ) (g : κ → γ → δ) :
    mapValues (mapValues t f) g = mapValues t fun key v => g key (f key v) :=
  AList.ext (List.map_map ..)

theorem of_lookup_insert {t : Table κ β} {key other : κ} {v w : β}
    (h : (t.insert key v).lookup other = some w) :
    other = key ∧ w = v ∨ other ≠ key ∧ t.lookup other = some w := by
  by_cases same : other = key
  · subst same
    rw [AList.lookup_insert] at h
    exact .inl ⟨rfl, (Option.some.inj h).symm⟩
  · rw [AList.lookup_insert_ne same] at h
    exact .inr ⟨same, h⟩

theorem of_lookup_erase {t : Table κ β} {key other : κ} {w : β}
    (h : (t.erase key).lookup other = some w) : other ≠ key ∧ t.lookup other = some w := by
  by_cases same : other = key
  · subst same
    rw [AList.lookup_erase] at h
    cases h
  · rw [AList.lookup_erase_ne same] at h
    exact ⟨same, h⟩

end MatrixRtc.Tables
