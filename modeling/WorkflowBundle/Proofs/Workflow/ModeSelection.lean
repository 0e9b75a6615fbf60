/-
This file says which mode a workflow selects: the one that a text names, or else a preferred one
among those that have steps.
-/

import WorkflowBundle.Proofs.Workflow.Mode
import WorkflowBundle.Proofs.Workflow.Validity
import WorkflowBundle.Workflow.ModeSelection

namespace WorkflowBundle

open Variable (Table Value)

/-- A mode has steps if and only if it has a first step. -/
theorem Layout.mem_modes_iff {layout : Layout} {mode : Mode} :
    mode ∈ layout.modes ↔ (layout.firstStep? mode).isSome = true := by
  rw [modes, List.mem_filter, firstStep?, Option.isSome_map]
  have listed : mode ∈ Mode.all := by cases mode <;> decide
  exact and_iff_right listed

namespace Workflow

variable {tree : FileTree} {workflow : Workflow} {bindings : Table}

/-- A valid workflow is coherent. -/
theorem coherent_of_validate (valid : workflow.validate tree = .ok ()) :
    Coherent tree workflow := by
  have nothing : workflow.problems tree = [] := by
    rw [validate] at valid
    split at valid
    · assumption
    · cases valid
  simp only [problems, List.append_eq_nil_iff] at nothing
  obtain ⟨⟨⟨-, kind⟩, instructions⟩, steps⟩ := nothing
  have agree : workflow.modal = (workflow.kind == .triModal) ∧
      workflow.layout.kind = workflow.kind := by
    rw [kindProblems] at kind
    split at kind
    · rename_i same
      simpa using same
    · cases kind
  refine ⟨agree.2, agree.1, ?_, ?_⟩
  · rw [instructionsProblems] at instructions
    split at instructions
    · assumption
    · cases instructions
  · intro mode first starts
    have offered : mode ∈ workflow.layout.modes := by
      rw [Layout.mem_modes_iff]
      exact Option.isSome_iff_exists.2 ⟨first, starts⟩
    have fine := List.filterMap_eq_nil_iff.1 steps mode offered
    rw [starts] at fine
    simpa using fine

theorem Coherent.modal_iff (coherent : Coherent tree workflow) :
    workflow.modal = true ↔ workflow.kind = .triModal := by
  rw [coherent.modal, beq_iff_eq]

/-- A coherent workflow with the flag has steps for some mode. -/
theorem Coherent.modes_ne_nil (coherent : Coherent tree workflow)
    (modal : workflow.modal = true) : workflow.layout.modes ≠ [] := by
  intro empty
  have single : workflow.layout.kind = .single := by
    rw [Layout.kind, Layout.isEmpty, empty]
    rfl
  rw [coherent.kind, coherent.modal_iff.1 modal] at single
  cases single

/-- A workflow without the flag has no mode. -/
theorem resolveMode_of_single (single : workflow.modal = false) :
    workflow.resolveMode bindings = .ok none := by
  rw [resolveMode, selectMode, single]
  rfl

section Asked

variable {text : String} (given : bindings.text? modeVariable = some text)
variable (written : Text.isBlankText text = false)

include given written

/-- A text that names a mode asks for it. -/
theorem asksForMode_of_named {mode : Mode} (named : Mode.ofText? text = some mode) :
    asksForMode bindings = true := by
  obtain ⟨value, found, rfl⟩ := Option.map_eq_some_iff.1 given
  rw [asksForMode, found, Option.bind_some, Mode.text?_of_ofText? named, Option.any_some, written]
  rfl

variable (modal : workflow.modal = true)

include modal

/-- A text that is not blank selects the mode that it names. -/
theorem selectMode_of_written :
    workflow.selectMode bindings = (Mode.parse text).map some := by
  rw [selectMode, modal, given, Option.filter_some, written]
  rfl

/-- A text that names no mode is an error. -/
theorem resolveMode_of_unknown (unknown : Mode.ofText? text = none) :
    workflow.resolveMode bindings = .error (.unknownMode text) := by
  rw [resolveMode, selectMode_of_written given written modal, Mode.parse, unknown]
  rfl

/-- A mode that is asked for is taken if it has steps, and is an error otherwise. -/
theorem resolveMode_of_named {mode : Mode} (named : Mode.ofText? text = some mode) :
    workflow.resolveMode bindings =
      if mode ∈ workflow.layout.modes then .ok (some mode)
      else .error (.unavailableMode mode.code workflow.name workflow.layout.modes) := by
  have asked := asksForMode_of_named given written named
  rw [resolveMode, selectMode_of_written given written modal, Mode.parse, named]
  simp only [Except.map, asked, checkMode, Mode.parse, Mode.ofText?_code, modal]
  by_cases offered : mode ∈ workflow.layout.modes
  · rw [if_pos offered]
    simp [offered, bind, Except.bind, pure, Except.pure]
  · rw [if_neg offered]
    simp [offered, bind, Except.bind, throw, throwThe, MonadExceptOf.throw]

end Asked

/-- A value that is not blank as text is asked for in no other way. -/
theorem asksForMode_of_blank
    (blank : ∀ text, bindings.text? modeVariable = some text → Text.isBlankText text = true) :
    asksForMode bindings = false := by
  rw [asksForMode, Option.any_eq_false]
  intro text asked
  obtain ⟨value, found, same⟩ := Option.bind_eq_some_iff.1 asked
  have rendered : value.render = text := by
    cases value <;> simp_all [Value.text?, Value.render]
  simp [blank text (Option.map_eq_some_iff.2 ⟨value, found, rendered⟩)]

/-- Without a text that is not blank the preferred mode with steps is taken. -/
theorem resolveMode_of_blank (modal : workflow.modal = true)
    (blank : ∀ text, bindings.text? modeVariable = some text → Text.isBlankText text = true) :
    workflow.resolveMode bindings =
      .ok (if .create ∈ workflow.layout.modes then some .create
        else workflow.layout.modes.head?) := by
  have nothing : (bindings.text? modeVariable).filter (fun text => !Text.isBlankText text) =
      none := by
    rw [Option.filter_eq_none_iff]
    intro text given
    simp [blank text given]
  have selected : workflow.selectMode bindings = .ok (some .create) := by
    rw [selectMode, modal, nothing]
    rfl
  rw [resolveMode, selected]
  simp only [asksForMode_of_blank blank, Layout.mem_modes_iff, firstStep?]
  cases starts : (workflow.layout.firstStep? .create).isSome <;>
    simp [starts, bind, Except.bind, pure, Except.pure]

/-- The first mode with steps is the first one in the order of preference. -/
theorem head?_modes {layout : Layout} (nonempty : layout.modes ≠ []) :
    layout.modes.head? = some (if .create ∈ layout.modes then .create
      else if .validate ∈ layout.modes then .validate else .edit) := by
  simp only [Layout.modes, Mode.all, List.filter_cons, List.filter_nil] at nonempty ⊢
  split <;> split <;> split <;> simp_all

/-- The mode of a coherent workflow with the flag is one with steps. -/
theorem Coherent.exists_mode (coherent : Coherent tree workflow) (modal : workflow.modal = true)
    {selected : Option Mode} (resolved : workflow.resolveMode bindings = .ok selected) :
    ∃ mode ∈ workflow.layout.modes, selected = some mode := by
  by_cases blank : ∀ text, bindings.text? modeVariable = some text →
    Text.isBlankText text = true
  · rw [resolveMode_of_blank modal blank] at resolved
    obtain rfl := Except.ok.inj resolved
    split
    · rename_i offered
      exact ⟨_, offered, rfl⟩
    · have nonempty := coherent.modes_ne_nil modal
      exact ⟨_, List.head_mem nonempty, List.head?_eq_some_head nonempty⟩
  · obtain ⟨text, given, visible⟩ : ∃ text, bindings.text? modeVariable = some text ∧
        ¬ Text.isBlankText text = true := by simpa using blank
    have written := Bool.eq_false_iff.2 visible
    rcases named : Mode.ofText? text with _ | mode
    · nomatch (resolveMode_of_unknown given written modal named).symm.trans resolved
    · rw [resolveMode_of_named given written modal named] at resolved
      split at resolved
      · rename_i offered
        exact ⟨mode, offered, (Except.ok.inj resolved).symm⟩
      · nomatch resolved

/-- A text asks for the mode that it names, if that has steps. -/
def AsksFor (workflow : Workflow) (text : String) (mode : Mode) : Prop :=
  Mode.parse text = .ok mode ∧ mode ∈ workflow.layout.modes

/-- The mode that a text asks for is taken. -/
theorem resolveMode_eq_some_iff {text : String} (given : bindings.text? modeVariable = some text)
    (written : Text.isBlankText text = false) (modal : workflow.modal = true) (mode : Mode) :
    workflow.resolveMode bindings = .ok (some mode) ↔ workflow.AsksFor text mode := by
  rw [AsksFor, Mode.parse]
  rcases named : Mode.ofText? text with _ | found
  · simp [resolveMode_of_unknown given written modal named]
  · rw [resolveMode_of_named given written modal named]
    by_cases offered : found ∈ workflow.layout.modes
    · rw [if_pos offered]
      constructor
      · intro taken
        obtain rfl : found = mode := Option.some.inj (Except.ok.inj taken)
        exact ⟨rfl, offered⟩
      · rintro ⟨asked, -⟩
        obtain rfl : found = mode := Except.ok.inj asked
        rfl
    · rw [if_neg offered]
      refine ⟨nofun, ?_⟩
      rintro ⟨asked, present⟩
      obtain rfl : found = mode := Except.ok.inj asked
      exact absurd present offered

/-- A text that asks for no mode is an error. -/
theorem exists_violation_of_resolveMode {text : String}
    (given : bindings.text? modeVariable = some text) (written : Text.isBlankText text = false)
    (modal : workflow.modal = true) (refused : ∀ mode, ¬ workflow.AsksFor text mode) :
    ∃ violation, workflow.resolveMode bindings = .error violation ∧
      violation.kind = .invalidMode := by
  rcases named : Mode.ofText? text with _ | mode
  · exact ⟨_, resolveMode_of_unknown given written modal named, rfl⟩
  · have missing : mode ∉ workflow.layout.modes := by
      intro offered
      exact refused mode ⟨by rw [Mode.parse, named], offered⟩
    rw [resolveMode_of_named given written modal named, if_neg missing]
    exact ⟨_, rfl, rfl⟩

end Workflow

end WorkflowBundle
