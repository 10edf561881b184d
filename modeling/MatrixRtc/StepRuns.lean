import Mathlib.Logic.Basic
import Mathlib.Data.Option.Basic

/-!
# Finite runs of a partial step function

A system is given by `step : S → A → Option S`; `none` means that the action is
not possible in that state. A run is a list of actions. The side condition of a
run is checked at each step in the state the step is taken from, so that it can
speak about the state before the step and about the action, never about its
result. Nothing here names a particular system.
-/
namespace MatrixRtc.StepRuns

variable {S A : Type*}

/-- Take the actions in order; an action that is not possible ends with no state. -/
def run (step : S → A → Option S) : S → List A → Option S
  | s, [] => some s
  | s, a :: as => (step s a).bind fun t => run step t as

/-- Every step of the run meets `ok` in the state it is taken from. -/
def Admissible (step : S → A → Option S) (ok : S → A → Prop) : S → List A → Prop
  | _, [] => True
  | s, a :: as => ok s a ∧ ∀ t ∈ step s a, Admissible step ok t as

instance Admissible.decidable (step : S → A → Option S) (ok : S → A → Prop)
    [∀ s a, Decidable (ok s a)] : (s : S) → (as : List A) → Decidable (Admissible step ok s as)
  | _, [] => isTrue trivial
  | s, a :: as =>
      have : DecidablePred fun t => Admissible step ok t as :=
        fun t => Admissible.decidable step ok t as
      inferInstanceAs (Decidable (ok s a ∧ ∀ t ∈ step s a, Admissible step ok t as))

/-- `P` holds in every state the run passes through. -/
def Always (step : S → A → Option S) (P : S → Prop) : S → List A → Prop
  | s, [] => P s
  | s, a :: as => P s ∧ ∀ t ∈ step s a, Always step P t as

instance Always.decidable (step : S → A → Option S) (P : S → Prop) [DecidablePred P] :
    (s : S) → (as : List A) → Decidable (Always step P s as)
  | s, [] => inferInstanceAs (Decidable (P s))
  | s, a :: as =>
      have : DecidablePred fun t => Always step P t as := fun t => Always.decidable step P t as
      inferInstanceAs (Decidable (P s ∧ ∀ t ∈ step s a, Always step P t as))

section Rules
variable {step : S → A → Option S} {ok : S → A → Prop}

@[simp] theorem run_nil (s : S) : run step s [] = some s := rfl

theorem run_cons {s t : S} {a : A} {as : List A} :
    run step s (a :: as) = some t ↔ ∃ u, step s a = some u ∧ run step u as = some t :=
  Option.bind_eq_some_iff

/-- The invariant rule: what every admissible step preserves holds at the end
of every admissible run, hence in every state the run passes through. -/
theorem run_invariant {I : S → Prop}
    (keep : ∀ s a t, I s → ok s a → step s a = some t → I t)
    {s t : S} {as : List A} (start : I s) (adm : Admissible step ok s as)
    (h : run step s as = some t) : I t := by
  induction as generalizing s with
  | nil =>
      cases h
      exact start
  | cons a as ih =>
      obtain ⟨u, hu, ht⟩ := run_cons.mp h
      exact ih (keep s a u start adm.1 hu) (adm.2 u hu) ht

theorem run_invariant_of_step {I : S → Prop}
    (keep : ∀ s a t, I s → step s a = some t → I t)
    {s t : S} {as : List A} (start : I s) (h : run step s as = some t) : I t := by
  induction as generalizing s with
  | nil =>
      cases h
      exact start
  | cons a as ih =>
      obtain ⟨u, hu, ht⟩ := run_cons.mp h
      exact ih (keep s a u start hu) ht

theorem Admissible.mono {ok' : S → A → Prop} (weaker : ∀ s a, ok s a → ok' s a) {s : S}
    {as : List A} (adm : Admissible step ok s as) : Admissible step ok' s as := by
  induction as generalizing s with
  | nil => exact trivial
  | cons a as ih => exact ⟨weaker s a adm.1, fun t ht => ih (adm.2 t ht)⟩

theorem Admissible.of_invariant {ok' : S → A → Prop} {I : S → Prop}
    (keep : ∀ s a t, I s → ok s a → step s a = some t → I t)
    (weaker : ∀ s a, I s → ok s a → ok' s a) {s : S} {as : List A}
    (adm : Admissible step ok s as) (start : I s) : Admissible step ok' s as := by
  induction as generalizing s with
  | nil => exact trivial
  | cons a as ih =>
      exact ⟨weaker s a start adm.1, fun t ht => ih (adm.2 t ht) (keep s a t start adm.1 ht)⟩

theorem Admissible.append {s t : S} {as bs : List A}
    (adm : Admissible step ok s (as ++ bs)) (h : run step s as = some t) :
    Admissible step ok s as ∧ Admissible step ok t bs := by
  induction as generalizing s with
  | nil =>
      cases h
      exact ⟨trivial, adm⟩
  | cons a as ih =>
      obtain ⟨u, hu, ht⟩ := run_cons.mp h
      obtain ⟨-, hb⟩ := ih (adm.2 u hu) ht
      refine ⟨⟨adm.1, fun v hv => ?_⟩, hb⟩
      obtain rfl : u = v := Option.some.inj (hu.symm.trans hv)
      exact (ih (adm.2 u hu) ht).1

theorem Admissible.continued {s t : S} {as bs : List A} (first : Admissible step ok s as)
    (h : run step s as = some t) (later : Admissible step ok t bs) :
    Admissible step ok s (as ++ bs) := by
  induction as generalizing s with
  | nil =>
      cases h
      exact later
  | cons a as ih =>
      obtain ⟨u, hu, ht⟩ := run_cons.mp h
      refine ⟨first.1, fun v hv => ?_⟩
      obtain rfl : u = v := Option.some.inj (hu.symm.trans hv)
      exact ih (first.2 u hu) ht

theorem run_append_eq {s t : S} {as bs : List A} (h : run step s as = some t) :
    run step s (as ++ bs) = run step t bs := by
  induction as generalizing s with
  | nil =>
      cases h
      rfl
  | cons a as ih =>
      obtain ⟨v, hv, ht⟩ := run_cons.mp h
      rw [List.cons_append, run, hv, Option.bind_some, ih ht]

theorem run_append {s t u : S} {as bs : List A} (h : run step s as = some t)
    (h' : run step t bs = some u) : run step s (as ++ bs) = some u :=
  (run_append_eq h).trans h'

/-- What each step keeps exactly when its side condition holds is kept by exactly
the admissible runs. -/
theorem run_iff_admissible {I P : S → Prop}
    (keep : ∀ s a t, I s → step s a = some t → I t)
    (each : ∀ s a t, I s → step s a = some t → (P t ↔ P s ∧ ok s a))
    {s t : S} {as : List A} (inv : I s) (h : run step s as = some t) :
    P t ↔ P s ∧ Admissible step ok s as := by
  induction as generalizing s with
  | nil =>
      cases h
      exact (and_iff_left trivial).symm
  | cons a as ih =>
      obtain ⟨u, hu, ht⟩ := run_cons.mp h
      have rest : (∀ v ∈ step s a, Admissible step ok v as) ↔ Admissible step ok u as := by
        constructor
        · intro all
          exact all u hu
        · intro adm v hv
          obtain rfl : u = v := Option.some.inj (hu.symm.trans hv)
          exact adm
      rw [ih (keep s a u inv hu) ht, each s a u inv hu, Admissible, rest, and_assoc]

theorem run_total (total : ∀ s a, ∃ t, step s a = some t) (s : S) (as : List A) :
    ∃ t, run step s as = some t := by
  induction as generalizing s with
  | nil => exact ⟨s, rfl⟩
  | cons a as ih =>
      obtain ⟨u, hu⟩ := total s a
      obtain ⟨t, ht⟩ := ih u
      exact ⟨t, run_cons.mpr ⟨u, hu, ht⟩⟩

theorem Always.mono {P Q : S → Prop} (weaken : ∀ s, P s → Q s) {s : S} {as : List A}
    (always : Always step P s as) : Always step Q s as := by
  induction as generalizing s with
  | nil => exact weaken s always
  | cons a as ih => exact ⟨weaken s always.1, fun t ht => ih (always.2 t ht)⟩

theorem always_of_step {P Q : S → Prop} (keep : ∀ s a t, P s → step s a = some t → P t)
    (weaken : ∀ s, P s → Q s) {s : S} (start : P s) (as : List A) : Always step Q s as := by
  induction as generalizing s with
  | nil => exact weaken s start
  | cons a as ih => exact ⟨weaken s start, fun t ht => ih (keep s a t start ht)⟩

theorem always_of_admissible {I P : S → Prop}
    (keep : ∀ s a t, I s → ok s a → step s a = some t → I t) (weaken : ∀ s, I s → P s)
    {s : S} {as : List A} (start : I s) (adm : Admissible step ok s as) :
    Always step P s as := by
  induction as generalizing s with
  | nil => exact weaken s start
  | cons a as ih =>
      exact ⟨weaken s start, fun t ht => ih (keep s a t start adm.1 ht) (adm.2 t ht)⟩

/-- What each step keeps exactly when its side condition holds is kept all along exactly
the admissible runs. -/
theorem always_iff_admissible {I P : S → Prop}
    (keep : ∀ s a t, I s → step s a = some t → I t)
    (each : ∀ s a t, I s → P s → step s a = some t → (P t ↔ ok s a))
    {s t : S} {as : List A} (inv : I s) (holds : P s) (h : run step s as = some t) :
    Always step P s as ↔ Admissible step ok s as := by
  induction as generalizing s with
  | nil => exact iff_of_true holds trivial
  | cons a as ih =>
      obtain ⟨u, hu, ht⟩ := run_cons.mp h
      have step_iff := each s a u inv holds hu
      have rest : P u → (Always step P u as ↔ Admissible step ok u as) :=
        fun holds' => ih (keep s a u inv hu) holds' ht
      have starts : Always step P u as → P u := by
        cases as with
        | nil => exact id
        | cons b bs => exact And.left
      constructor
      · rintro ⟨-, always⟩
        have later := always u hu
        refine ⟨step_iff.mp (starts later), fun v hv => ?_⟩
        obtain rfl : u = v := Option.some.inj (hu.symm.trans hv)
        exact (rest (starts later)).mp later
      · rintro ⟨now, adm⟩
        refine ⟨holds, fun v hv => ?_⟩
        obtain rfl : u = v := Option.some.inj (hu.symm.trans hv)
        exact (rest (step_iff.mpr now)).mpr (adm u hu)

theorem Admissible.congr {ok' : S → A → Prop} {I : S → Prop}
    (keep : ∀ s a t, I s → step s a = some t → I t) (same : ∀ s a, I s → (ok s a ↔ ok' s a))
    {s : S} {as : List A} (start : I s) :
    Admissible step ok s as ↔ Admissible step ok' s as := by
  induction as generalizing s with
  | nil => exact Iff.rfl
  | cons a as ih =>
      refine and_congr (same s a start) (forall_congr' fun t => ?_)
      exact forall_congr' fun h => ih (keep s a t start h)

/-- What holds at the end of a run and not at its start was brought in by one of its steps. -/
theorem run_traced {P : S → Prop} {brings : S → A → Prop}
    (traced : ∀ s a t, step s a = some t → P t → P s ∨ brings s a)
    {s t : S} {as : List A} (fresh : ¬P s) (h : run step s as = some t) (holds : P t) :
    ∃ before a after u, as = before ++ a :: after ∧ run step s before = some u ∧
      brings u a := by
  induction as generalizing s with
  | nil =>
      cases h
      exact absurd holds fresh
  | cons a as ih =>
      obtain ⟨u, hu, ht⟩ := run_cons.mp h
      by_cases early : P u
      · have brought := (traced s a u hu early).resolve_left fresh
        exact ⟨[], a, as, s, rfl, rfl, brought⟩
      · obtain ⟨before, b, after, v, split, reached, brought⟩ := ih early ht
        refine ⟨a :: before, b, after, v, ?_, run_cons.mpr ⟨u, hu, reached⟩, brought⟩
        rw [split, List.cons_append]

theorem Always.start {P : S → Prop} {s : S} {as : List A} (always : Always step P s as) :
    P s := by
  cases as with
  | nil => exact always
  | cons a as => exact always.1

/-- Where something holds at the end of a run and not all along, it has held since the last
of the steps that brought it in. -/
theorem broken_since {P : S → Prop} {s t : S} {as : List A} (broken : ¬Always step P s as)
    (h : run step s as = some t) (holds : P t) :
    ∃ before a after u v, as = before ++ a :: after ∧ run step s before = some u ∧ ¬P u ∧
      step u a = some v ∧ Always step P v after := by
  induction as generalizing s with
  | nil =>
      cases h
      exact absurd holds broken
  | cons a as ih =>
      obtain ⟨u, hu, ht⟩ := run_cons.mp h
      by_cases always : Always step P u as
      · refine ⟨[], a, as, s, u, rfl, rfl, fun now => broken ⟨now, fun v hv => ?_⟩, hu, always⟩
        obtain rfl : u = v := Option.some.inj (hu.symm.trans hv)
        exact always
      · obtain ⟨before, b, after, v, w, split, reached, without, hw, since⟩ := ih always ht
        refine ⟨a :: before, b, after, v, w, ?_, run_cons.mpr ⟨u, hu, reached⟩, without, hw,
          since⟩
        rw [split, List.cons_append]

/-- What holds at the end of a run and not at its start has held since the last of its steps
that brought it in. -/
theorem run_since {P : S → Prop} {s t : S} {as : List A} (fresh : ¬P s)
    (h : run step s as = some t) (holds : P t) :
    ∃ before a after u v, as = before ++ a :: after ∧ run step s before = some u ∧ ¬P u ∧
      step u a = some v ∧ Always step P v after :=
  broken_since (fun always => fresh always.start) h holds

end Rules

end MatrixRtc.StepRuns
