/-
This file says when a computation that can fail succeeds: step by step, and item by item.
-/

import Mathlib.Data.List.Forall2

namespace WorkflowBundle.Outcome

variable {ε α β : Type}

@[simp] theorem bind_eq_ok_iff {first : Except ε α} {next : α → Except ε β} {result : β} :
    first >>= next = .ok result ↔ ∃ value, first = .ok value ∧ next value = .ok result := by
  cases first <;> simp [bind, Except.bind]

@[simp] theorem map_eq_ok_iff {first : Except ε α} {transform : α → β} {result : β} :
    first.map transform = .ok result ↔ ∃ value, first = .ok value ∧ transform value = result := by
  cases first <;> simp [Except.map]

theorem map_eq_error_iff {first : Except ε α} {transform : α → β} {failure : ε} :
    first.map transform = .error failure ↔ first = .error failure := by
  cases first <;> simp [Except.map]

theorem toOption_eq_some_iff {outcome : Except ε α} {result : α} :
    outcome.toOption = some result ↔ outcome = .ok result := by
  cases outcome with
  | error failure => exact ⟨nofun, nofun⟩
  | ok value =>
      exact ⟨fun same => congrArg Except.ok (Option.some.inj same),
        fun same => congrArg some (Except.ok.inj same)⟩

/-- A computation whose result shows something succeeds with a result that shows it. -/
theorem exists_of_map_toOption {outcome : Except ε α} {view : α → β} {shown : β}
    (seen : outcome.toOption.map view = some shown) :
    ∃ result, outcome = .ok result ∧ view result = shown := by
  cases outcome with
  | error failure => nomatch seen
  | ok result => exact ⟨result, rfl, Option.some.inj seen⟩

@[simp] theorem pure_eq_ok_iff {value result : α} :
    (pure value : Except ε α) = .ok result ↔ value = result := by
  simp [pure, Except.pure]

theorem bind_eq_error_iff {first : Except ε α} {next : α → Except ε β} {failure : ε} :
    first >>= next = .error failure ↔
      first = .error failure ∨ ∃ value, first = .ok value ∧ next value = .error failure := by
  cases first <;> simp [bind, Except.bind]

theorem mapError_eq_ok_iff {first : Except ε α} {account : ε → β} {result : α} :
    first.mapError account = .ok result ↔ first = .ok result := by
  cases first <;> simp [Except.mapError]

theorem mapError_eq_error_iff {first : Except ε α} {account : ε → β} {failure : β} :
    first.mapError account = .error failure ↔
      ∃ cause, first = .error cause ∧ account cause = failure := by
  cases first <;> simp [Except.mapError]

theorem mapM_eq_ok_iff (step : α → Except ε β) (items : List α) (results : List β) :
    items.mapM step = .ok results ↔
      List.Forall₂ (fun item result => step item = .ok result) items results := by
  induction items generalizing results with
  | nil =>
      rw [List.mapM_nil, pure_eq_ok_iff, List.forall₂_nil_left_iff]
      exact eq_comm
  | cons item rest inductionHypothesis =>
      simp only [List.mapM_cons, bind_eq_ok_iff, pure_eq_ok_iff, inductionHypothesis,
        List.forall₂_cons_left_iff]
      constructor
      · rintro ⟨first, done, others, remaining, rfl⟩
        exact ⟨first, others, done, remaining, rfl⟩
      · rintro ⟨first, others, done, remaining, rfl⟩
        exact ⟨first, done, others, remaining, rfl⟩

theorem exists_mapM_eq_ok_iff (step : α → Except ε β) (items : List α) :
    (∃ results, items.mapM step = .ok results) ↔
      ∀ item ∈ items, ∃ result, step item = .ok result := by
  simp only [mapM_eq_ok_iff]
  induction items with
  | nil => simp
  | cons item rest inductionHypothesis =>
      rw [List.forall_mem_cons, ← inductionHypothesis]
      simp only [List.forall₂_cons_left_iff]
      constructor
      · rintro ⟨-, first, others, done, remaining, rfl⟩
        exact ⟨⟨first, done⟩, others, remaining⟩
      · rintro ⟨⟨first, done⟩, others, remaining⟩
        exact ⟨first :: others, first, others, done, remaining, rfl⟩

/-- A traversal that fails has the failure of one of its items. -/
theorem exists_of_mapM_eq_error {step : α → Except ε β} {items : List α} {failure : ε}
    (failed : items.mapM step = .error failure) : ∃ item ∈ items, step item = .error failure := by
  induction items with
  | nil => nomatch failed
  | cons item rest inductionHypothesis =>
      rw [List.mapM_cons] at failed
      rcases bind_eq_error_iff.1 failed with here | ⟨first, -, later⟩
      · exact ⟨item, List.mem_cons_self, here⟩
      · rcases bind_eq_error_iff.1 later with behind | ⟨others, -, pure⟩
        · obtain ⟨other, member, failing⟩ := inductionHypothesis behind
          exact ⟨other, List.mem_cons_of_mem _ member, failing⟩
        · nomatch pure

/-- A run that fails does so at one of its items, from what the items before it led to. -/
theorem exists_of_foldlM_eq_error {step : β → α → Except ε β} {items : List α} {start : β}
    {failure : ε} (failed : items.foldlM step start = .error failure) :
    ∃ earlier item later reached, items = earlier ++ item :: later ∧
      earlier.foldlM step start = .ok reached ∧ step reached item = .error failure := by
  induction items generalizing start with
  | nil => nomatch failed
  | cons item rest inductionHypothesis =>
      rw [List.foldlM_cons] at failed
      rcases bind_eq_error_iff.1 failed with here | ⟨next, first, later⟩
      · exact ⟨[], item, rest, start, rfl, rfl, here⟩
      · obtain ⟨earlier, other, behind, reached, rfl, run, failing⟩ := inductionHypothesis later
        refine ⟨item :: earlier, other, behind, reached, rfl, ?_, failing⟩
        rw [List.foldlM_cons]
        exact bind_eq_ok_iff.2 ⟨next, first, run⟩

end WorkflowBundle.Outcome
