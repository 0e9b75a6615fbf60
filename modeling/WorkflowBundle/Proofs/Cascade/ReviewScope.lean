/-
This file compares the scope of a review with the directories that its variables resolve to.
-/

import WorkflowBundle.Proofs.Cascade.Precedence
import WorkflowBundle.Proofs.Variable.Solution

namespace WorkflowBundle

open Variable (Table Value)

namespace ReviewScope

/-- A review is about the directory in the first of these variables that is not blank. -/
def placeName? (table : Table) : Option String :=
  if (named? table "review_dir").isSome then some "review_dir"
  else if (named? table "test_dir").isSome then some "test_dir"
  else none

/-- The place that one table chooses lies below a test root by the text that another table shows for
it. -/
def liesBelow (chosen shown : Table) (testRoot : String) : Bool :=
  ((placeName? chosen).bind shown.text?).any fun place => isProperSubdirectory place testRoot

/-- The scope of a review whose story and place are chosen by one table while the text of the place
is that of another. -/
def ofPlace (chosen shown : Table) (testRoot : String) : ReviewScope :=
  if (named? chosen "story_file").isSome then .single
  else if liesBelow chosen shown testRoot then .directory
  else .suite

theorem name_injective : Function.Injective name := by
  intro first second
  cases first <;> cases second <;> decide

theorem ofText_name (scope : ReviewScope) : Value.ofText scope.name = .text scope.name := by
  cases scope <;> decide

/-- A variable that counts has its text. -/
theorem text?_of_named? {table : Table} {name text : String}
    (counts : named? table name = some text) : table.text? name = some text :=
  (Option.filter_eq_some_iff.1 counts).1

theorem exists_text_of_placeName? {table : Table} {name : String}
    (chosen : placeName? table = some name) : ∃ text, table.text? name = some text := by
  have counts : (named? table name).isSome := by
    rw [placeName?] at chosen
    split at chosen
    · rename_i first
      exact Option.some.inj chosen ▸ first
    · split at chosen
      · rename_i second
        exact Option.some.inj chosen ▸ second
      · nomatch chosen
  obtain ⟨text, found⟩ := Option.isSome_iff_exists.1 counts
  exact ⟨text, text?_of_named? found⟩

/-- The scope of some variables is that of the place that they name, by the texts they have
themselves. -/
theorem ofVariables_eq (table : Table) (testRoot : String) :
    ofVariables table testRoot = ofPlace table table testRoot := by
  have place : (named? table "review_dir").or (named? table "test_dir") =
      (placeName? table).bind table.text? := by
    rw [placeName?]
    rcases first : named? table "review_dir" with _ | text
    · rcases second : named? table "test_dir" with _ | text
      · rfl
      · exact (text?_of_named? second).symm
    · exact (text?_of_named? first).symm
  rw [ofVariables, ofPlace, liesBelow, place]
  cases (placeName? table).bind table.text? <;> rfl

/-- Two texts of the place and the test root give the same scope if and only if the review is about
a story, or the place lies below the root by both or neither. -/
theorem ofPlace_eq_iff {chosen first second : Table} {root other : String} :
    ofPlace chosen first root = ofPlace chosen second other ↔
      (named? chosen "story_file").isSome ∨
        liesBelow chosen first root = liesBelow chosen second other := by
  rw [ofPlace, ofPlace]
  cases (named? chosen "story_file").isSome <;> cases liesBelow chosen first root <;>
    cases liesBelow chosen second other <;> decide

end ReviewScope

namespace Cascade

section Resolved

variable {tree : FileTree} {context : Context} {cache : Cache} {workflow : String} {own : Table}
  {resolved : Table}

/-- A resolution for a review has the scope of the variables of the run, unless the run sets the
scope itself. -/
theorem text?_reviewScope (reviews : Knowledge.kindOf workflow = "test-review")
    (unset : context.bindings.find? "review_scope" = none)
    (success : (cache.resolveWith tree context workflow own).1 = .ok resolved) :
    resolved.text? "review_scope" = some
      (ReviewScope.ofVariables context.bindings context.configuration.testDirectory).name := by
  let tables := (cache.fetch tree context workflow).1
  have merged : (merge (layers tables context workflow own)).find? "review_scope" = some (.text
      (ReviewScope.ofVariables context.bindings context.configuration.testDirectory).name) := by
    rw [← ReviewScope.ofText_name]
    simp [find?_merge, layers, unset, find?_reviewSource, reviewProvider, reviews]
  rw [Table.text?, Variable.find?_expand_of_resolved success merged rfl]
  rfl

/-- A resolution has the values of the run with their references replaced. -/
theorem find?_resolveWith_of_run {name : String} {value : Value}
    (success : (cache.resolveWith tree context workflow own).1 = .ok resolved)
    (bound : context.bindings.find? name = some value) :
    resolved.find? name = some (value.filledFrom resolved) := by
  have expanded : Variable.expand (merge (layers (cache.fetch tree context workflow).1 context
      workflow own)) = .ok resolved := success
  rw [Variable.find?_expand_eq expanded, find?_merge_layers_of_run _ _ _ bound]
  rfl

/-- A text without references to defined names is that of a value and of the value filled in. -/
theorem text?_resolveWith_of_run {name text : String}
    (success : (cache.resolveWith tree context workflow own).1 = .ok resolved)
    (shown : context.bindings.text? name = some text)
    (unknown : ∀ found, .reference found ∈ Variable.segments text →
      resolved.find? found.name = none) : resolved.text? name = some text := by
  obtain ⟨value, bound, rfl⟩ := Option.map_eq_some_iff.1 shown
  rw [Table.text?, find?_resolveWith_of_run success bound]
  cases value with
  | unresolved raw =>
      have unchanged : Variable.fill resolved.text? raw = raw :=
        Variable.fill_of_undefined unknown
      rw [Value.filledFrom, unchanged, Option.map_some, Variable.render_ofText]
      rfl
  | _ => rfl

/-- The scope of a review compares the place and the test root as they are written. It is the scope
by the expanded texts if and only if the review is about a story, or the place lies below the root
by both kinds of text or by neither, and so it is where neither text refers to a defined name. -/
theorem review_scope_is_that_of_unexpanded_texts
    (reviews : Knowledge.kindOf workflow = "test-review")
    (unset : context.bindings.find? "review_scope" = none)
    (success : (cache.resolveWith tree context workflow own).1 = .ok resolved) :
    let bindings := context.bindings
    let root := context.configuration.testDirectory
    let expandedRoot := Variable.fill resolved.text? root
    resolved.text? "review_scope" = some (ReviewScope.ofPlace bindings bindings root).name ∧
    (resolved.text? "review_scope" =
        some (ReviewScope.ofPlace bindings resolved expandedRoot).name ↔
      (ReviewScope.named? bindings "story_file").isSome ∨
        ReviewScope.liesBelow bindings bindings root =
          ReviewScope.liesBelow bindings resolved expandedRoot) ∧
    ((∀ text ∈ root :: ((ReviewScope.placeName? bindings).bind bindings.text?).toList,
        ∀ found, .reference found ∈ Variable.segments text → resolved.find? found.name = none) →
      resolved.text? "review_scope" =
        some (ReviewScope.ofPlace bindings resolved expandedRoot).name) := by
  intro bindings root expandedRoot
  have written : resolved.text? "review_scope" =
      some (ReviewScope.ofPlace bindings bindings root).name := by
    rw [text?_reviewScope reviews unset success, ReviewScope.ofVariables_eq]
  have agrees : resolved.text? "review_scope" =
        some (ReviewScope.ofPlace bindings resolved expandedRoot).name ↔
      (ReviewScope.named? bindings "story_file").isSome ∨
        ReviewScope.liesBelow bindings bindings root =
          ReviewScope.liesBelow bindings resolved expandedRoot := by
    rw [written, Option.some.injEq, ReviewScope.name_injective.eq_iff, ReviewScope.ofPlace_eq_iff]
  refine ⟨written, agrees, fun unknown => agrees.2 (.inr ?_)⟩
  obtain ⟨unknownInRoot, unknownInPlace⟩ := List.forall_mem_cons.1 unknown
  have sameRoot : expandedRoot = root := Variable.fill_of_undefined unknownInRoot
  have samePlace : (ReviewScope.placeName? bindings).bind resolved.text? =
      (ReviewScope.placeName? bindings).bind bindings.text? := by
    rcases named : ReviewScope.placeName? bindings with _ | name
    · rfl
    · obtain ⟨text, shown⟩ := ReviewScope.exists_text_of_placeName? named
      rw [named, Option.bind_some, shown] at unknownInPlace
      rw [Option.bind_some, Option.bind_some, shown]
      exact text?_resolveWith_of_run success shown
        (unknownInPlace text (Option.mem_toList.2 rfl))
  rw [ReviewScope.liesBelow, ReviewScope.liesBelow, samePlace, sameRoot]

end Resolved

/-- The tests of a project are reviewed with some variables of the run. -/
def reviewContext (bindings : List (String × String)) : Context :=
  { Context.new ⟨"/"⟩ "2024-01-01" with
    bindings := .ofList (bindings.map fun (name, text) => (name, .ofText text)) }

def reviewTree : FileTree where
  entries := []
  workingDirectory := []

/-- This run reviews a place whose last step is a reference. -/
def leveledContext : Context :=
  reviewContext [("review_dir", "tests/\x7blevel\x7d"), ("level", "api")]

/-- The place lies below the test root as it is written and as it is expanded. -/
theorem review_of_leveled_directory :
    ∃ resolved, (Cache.empty.resolveNamed reviewTree leveledContext "test-review").1 =
        .ok resolved ∧
      resolved.text? "review_dir" = some "tests/api" ∧
      resolved.text? "review_scope" = some "directory" ∧
      resolved.text? "review_scope" = some (ReviewScope.ofPlace leveledContext.bindings resolved
        (Variable.fill resolved.text? "tests/")).name := by
  have shown : (Cache.empty.resolveNamed reviewTree leveledContext
      "test-review").1.toOption.map (fun resolved =>
        (resolved.text? "review_dir", ReviewScope.liesBelow leveledContext.bindings resolved
          (Variable.fill resolved.text? "tests/"))) = some (some "tests/api", true) := by
    decide +kernel
  obtain ⟨resolved, success, seen⟩ := Outcome.exists_of_map_toOption shown
  obtain ⟨place, below⟩ := Prod.mk.inj seen
  obtain ⟨written, agrees, -⟩ := @review_scope_is_that_of_unexpanded_texts reviewTree
    leveledContext .empty "test-review" ∅ resolved (by decide +kernel) (by decide +kernel) success
  have directory : ReviewScope.ofPlace leveledContext.bindings leveledContext.bindings
      leveledContext.configuration.testDirectory = .directory := by
    decide +kernel
  have writtenBelow : ReviewScope.liesBelow leveledContext.bindings leveledContext.bindings
      leveledContext.configuration.testDirectory = true := by
    decide +kernel
  refine ⟨resolved, success, place, ?_, agrees.2 (.inr (writtenBelow.trans below.symm))⟩
  rw [written, directory]
  rfl

/-- This run reviews a place that refers to the test root. -/
def referringContext : Context :=
  reviewContext [("review_dir", "\x7btest_dir\x7d/api")]

/-- The scope of a review is not that of the expanded texts. -/
theorem review_scope_is_not_that_of_expanded_texts :
    ¬ ∀ (tree : FileTree) (context : Context) (cache : Cache) (workflow : String)
        (own resolved : Table),
      Knowledge.kindOf workflow = "test-review" →
      context.bindings.find? "review_scope" = none →
      (cache.resolveWith tree context workflow own).1 = .ok resolved →
      resolved.text? "review_scope" = some (ReviewScope.ofPlace context.bindings resolved
        (Variable.fill resolved.text? context.configuration.testDirectory)).name := by
  intro agrees
  have shown : (Cache.empty.resolveNamed reviewTree referringContext
      "test-review").1.toOption.map (fun resolved =>
        (resolved.text? "review_scope", ReviewScope.ofPlace referringContext.bindings resolved
          (Variable.fill resolved.text? "tests/"))) = some (some "suite", .directory) := by
    decide +kernel
  obtain ⟨resolved, success, seen⟩ := Outcome.exists_of_map_toOption shown
  obtain ⟨scope, expected⟩ := Prod.mk.inj seen
  have same := agrees reviewTree referringContext .empty "test-review" ∅ resolved
    (by decide +kernel) (by decide +kernel) success
  change resolved.text? "review_scope" = some (ReviewScope.ofPlace _ resolved
    (Variable.fill resolved.text? "tests/")).name at same
  rw [scope, expected] at same
  nomatch same

end Cascade

end WorkflowBundle
