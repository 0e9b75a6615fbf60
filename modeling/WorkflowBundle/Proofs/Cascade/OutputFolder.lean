/-
This file compares the output folder of a configuration, as a workflow's variables show it, with the
folder of artifacts that a context makes of the same setting.
-/

import WorkflowBundle.Proofs.Cascade.Precedence
import WorkflowBundle.Proofs.Path.Join
import WorkflowBundle.Proofs.Variable.Solution
import WorkflowBundle.Proofs.Variable.Spelling

namespace WorkflowBundle.Cascade

open WorkflowBundle.Path (GoesBelow componentOf? split)
open Variable (IsName Shows Table Value embraced fill hasPlaceholder marked placeholdersFrom
  spelled)

/-- The project root is a variable under two names. -/
def rootNames : List String := ["project-root", "project_root"]

/-- A path stays where it starts when it has neither names nor steps to the parent. -/
def StaysPut (path : Path) : Prop :=
  path.pieces.filterMap componentOf? = []

/-- Two paths are the same folder of a project when one goes on behind the root as given and the
other goes on in the same way behind the canonical root. -/
def SameFolder (tree : FileTree) (root artifacts output : Path) : Prop :=
  ∃ way, artifacts.components = root.components ++ way ∧
    output.components = (tree.canonicalOrSelf root).components ++ way

/-- These sources come before the run, the project and the path settings. -/
def higherProviders (tree : FileTree) (context : Context) (workflow : String) (own : Table) :
    List Provider :=
  [context.bindings.find?, reviewProvider context workflow,
    overrideProvider context.configuration workflow, platformProvider tree context workflow,
    own.find?, mappingProvider context.configuration.sharedDefaults]

theorem isName_of_mem_rootNames {name : String} (named : name ∈ rootNames) :
    IsName name ∧ name ≠ "config_source" := by
  have each : ∀ name ∈ rootNames, IsName name ∧ name ≠ "config_source" := by decide
  exact each name named

/-- A joined path is written as the reference behind nothing, behind the base, or behind the base
and a slash. -/
theorem exists_text_join (base : Path) (reference : String) :
    ∃ lead, (base.join reference).text = lead ++ reference ∧
      (lead = "" ∨ lead = base.text ∨ lead = base.text ++ "/") := by
  rw [Path.join]
  split
  · exact ⟨"", by simp, .inl rfl⟩
  · split
    · exact ⟨base.text, rfl, .inr (.inl rfl)⟩
    · exact ⟨base.text ++ "/", by simp, .inr (.inr rfl)⟩

section Setting

variable {root : Path} {name rest : String} {doubled : Bool}
  (shown : Shows [] root.text.toList) (plain : hasPlaceholder rest = false)

include shown plain

/-- A root that shows nothing has no placeholders with a plain text behind it, also not in braces if
it is absolute. -/
theorem hasPlaceholder_embraced (apart : doubled = true → root.isAbsolute = true) :
    hasPlaceholder (embraced doubled root.text ++ rest) = false := by
  have nothing : placeholdersFrom rest.toList = [] := by simpa [hasPlaceholder] using plain
  have behind (more : List Char) :
      placeholdersFrom (root.text.toList ++ more) = placeholdersFrom more := by
    rw [Variable.placeholdersFrom_append shown.closed, shown.placeholders]
    rfl
  cases doubled with
  | false => simp [hasPlaceholder, behind, nothing]
  | true =>
      obtain ⟨tail, shape⟩ := List.head?_eq_some_iff.1 (eq_of_beq (apart rfl))
      have opened (more : List Char) : Variable.placeholder? ('\x7b' :: ([] ++ '/' :: more)) = _ :=
        Variable.placeholder?_run (List.forall_mem_nil _) (by decide) more
      have inner :
          placeholdersFrom ('\x7b' :: (root.text.toList ++ '\x7d' :: rest.toList)) = [] := by
        rw [placeholdersFrom, behind, Variable.placeholdersFrom_cons_of_ne (by decide), nothing,
          shape, List.cons_append, ← List.nil_append ('/' :: _), opened]
        simp
      simpa [hasPlaceholder] using inner

/-- A plain text that is joined to a root that shows nothing has no placeholders. -/
theorem hasPlaceholder_join : hasPlaceholder (root.join rest).text = false := by
  obtain ⟨lead, text, cases⟩ := exists_text_join root rest
  have led : Shows [] lead.toList := by
    rcases cases with rfl | rfl | rfl
    · exact Variable.shows_of_not_mem (by decide)
    · exact shown
    · rw [String.toList_append]
      exact shown.append (Variable.shows_of_not_mem (by decide))
  rw [hasPlaceholder, Bool.not_eq_false'] at plain ⊢
  rw [text, String.toList_append, Variable.placeholdersFrom_append led.closed, led.placeholders]
  exact plain

/-- A setting that starts with a reference to the root becomes a folder in which the root takes the
place of the singly braced name, and a second pair of braces stays around it. -/
theorem folder_spelled (named : name ∈ rootNames)
    (apart : doubled = true → root.isAbsolute = true) :
    Context.folder root (spelled doubled name ++ rest) =
      root.join (embraced doubled root.text ++ rest) := by
  have isName (name : String) (member : name ∈ rootNames) := (isName_of_mem_rootNames member).1
  have nothing : placeholdersFrom (embraced doubled root.text ++ rest).toList = [] := by
    simpa [hasPlaceholder] using hasPlaceholder_embraced shown plain apart
  have marks : Context.rootMarks = rootNames.map marked := by decide
  have replaced :
      Context.rootMarks.foldl (fun text mark => Text.replace mark root.text text)
        (spelled doubled name ++ rest) = embraced doubled root.text ++ rest := by
    rw [marks]
    change Text.replace (marked "project_root") root.text
      (Text.replace (marked "project-root") root.text (spelled doubled name ++ rest)) = _
    simp only [rootNames, List.mem_cons, List.not_mem_nil, or_false] at named
    rcases named with rfl | rfl
    · rw [Variable.replace_marked_spelled (isName _ (by decide)) doubled root.text plain,
        Variable.replace_marked_of_not_mem (isName _ (by decide)) root.text fun member => ?_]
      rw [nothing] at member
      exact List.not_mem_nil member
    · have other : "project-root" ∉
          placeholdersFrom (spelled doubled "project_root" ++ rest).toList := by
        rw [Variable.placeholdersFrom_spelled (isName _ (by decide)) doubled plain]
        decide
      rw [Variable.replace_marked_of_not_mem (isName _ (by decide)) root.text other,
        Variable.replace_marked_spelled (isName _ (by decide)) doubled root.text plain]
  rw [Context.folder, replaced]

end Setting

section Resolved

variable {tree : FileTree} {context : Context} {workflow : String} {own : Table}

/-- A name that no higher source gives has the value of the run, the project, the test settings or
the path settings. -/
theorem firstGiven_of_unset {name : String}
    (unset : firstGiven (higherProviders tree context workflow own) name = none) :
    firstGiven (precedence tree context workflow [own.find?]) name =
      firstGiven [runProvider context, projectProvider tree context,
        testProvider context.configuration.tests, pathProvider context.configuration.paths]
        name := by
  simp only [higherProviders, firstGiven_cons, firstGiven_nil, Option.or_none,
    Option.or_eq_none_iff] at unset
  obtain ⟨binding, review, override, platform, declared, shared⟩ := unset
  simp [precedence, precedenceSeenBy, binding, review, override, platform, declared, shared]

variable {resolved : Table}
  (done : (Cache.empty.resolveWith tree context workflow own).1 = .ok resolved)

include done

/-- A name to which the sources give a text shows that text, filled from the resolved variables. -/
theorem text?_of_given {name text : String}
    (given : firstGiven (precedence tree context workflow [own.find?]) name = some (.ofText text)) :
    resolved.text? name = some (fill resolved.text? text) := by
  have merged := mergedFrom_layers tree context context workflow own [own.find?] rfl (by simp) name
  have expanded : Variable.expand (merge (layers (tablesOf tree context workflow) context workflow
      own)) = .ok resolved := (Cache.resolveWith_empty tree context workflow own).symm.trans done
  rw [Table.text?, Variable.find?_expand_eq expanded, merged, ← precedence, given, Option.map_some,
    Option.map_some, Value.filledFrom_ofText, Variable.render_ofText]

end Resolved

section Configured

variable {tree : FileTree} {base : Context} {configuration : Configuration} {workflow : String}
  {own resolved : Table} {name rest : String} {doubled : Bool}
  (done : (Cache.empty.resolveWith tree (base.withConfiguration configuration) workflow own).1 =
    .ok resolved)
  (written : configuration.paths.outputFolder = some (spelled doubled name ++ rest))

include done written

/-- The folder of artifacts shows the folder that the context makes of the setting. -/
theorem text?_artifacts
    (unset : firstGiven (higherProviders tree (base.withConfiguration configuration) workflow own)
      "implementation_artifacts" = none) :
    resolved.text? "implementation_artifacts" =
      some (fill resolved.text?
        (Context.folder base.root (spelled doubled name ++ rest)).text) := by
  apply text?_of_given done
  rw [firstGiven_of_unset unset]
  simp [runProvider, Context.withConfiguration, written]

/-- The output folder shows the canonical root in the place of either spelling. -/
theorem text?_output (named : name ∈ rootNames) (plain : hasPlaceholder rest = false)
    (canonicalPlain : hasPlaceholder (tree.canonicalOrSelf base.root).text = false)
    (unset : ∀ key ∈ ["output_folder", name],
      firstGiven (higherProviders tree (base.withConfiguration configuration) workflow own) key =
        none) :
    resolved.text? "output_folder" = some ((tree.canonicalOrSelf base.root).text ++ rest) := by
  have root : resolved.text? name = some (tree.canonicalOrSelf base.root).text := by
    have given : firstGiven (precedence tree (base.withConfiguration configuration) workflow
        [own.find?]) name = some (.ofText (tree.canonicalOrSelf base.root).text) := by
      rw [firstGiven_of_unset (unset name (by simp))]
      simp only [rootNames, List.mem_cons, List.not_mem_nil, or_false] at named
      rcases named with rfl | rfl <;> rfl
    rw [text?_of_given done given, Variable.fill_of_plain canonicalPlain]
  have given : firstGiven (precedence tree (base.withConfiguration configuration) workflow
      [own.find?]) "output_folder" = some (.ofText (spelled doubled name ++ rest)) := by
    rw [firstGiven_of_unset (unset "output_folder" (by simp))]
    simp [runProvider, projectProvider, testProvider, pathProvider, Context.withConfiguration,
      written]
  obtain ⟨isName, other⟩ := isName_of_mem_rootNames named
  rw [text?_of_given done given, Variable.fill_spelled isName doubled other root,
    Variable.fill_of_plain plain]

end Configured

section Compared

variable {tree : FileTree} {root : Path} {rest : String}

/-- The canonical form of a path that is written is written as well. -/
theorem canonicalOrSelf_written (written : root.text ≠ "") :
    (tree.canonicalOrSelf root).text ≠ "" := by
  rw [FileTree.canonicalOrSelf]
  split
  · rename_i resolved located
    obtain ⟨names, -, rfl⟩ := Outcome.map_eq_ok_iff.1 located
    intro empty
    have text := Path.toList_ofNames names
    rw [empty] at text
    nomatch text
  · exact written

/-- A folder on a way behind the root, and then on the way of the rest, is the folder of the rest
behind the canonical root only if the first way is empty. -/
theorem sameFolder_iff_of_way (written : root.text ≠ "") (below : GoesBelow rest) {artifacts : Path}
    {way : List Path.Component}
    (shape : artifacts.components =
      root.components ++ (way ++ (split rest.toList).filterMap componentOf?)) :
    SameFolder tree root artifacts ⟨(tree.canonicalOrSelf root).text ++ rest⟩ ↔ way = [] := by
  rw [SameFolder, shape, Path.components_append (canonicalOrSelf_written written) below]
  constructor
  · rintro ⟨behind, first, second⟩
    rw [← List.append_cancel_left second] at first
    simpa using List.append_cancel_left first
  · rintro rfl
    exact ⟨_, rfl, rfl⟩

/-- A text that starts with a brace does not stay put. -/
theorem filterMap_split_brace_ne_nil (text : List Char) :
    (split ('\x7b' :: text)).filterMap componentOf? ≠ [] := by
  obtain ⟨piece, more, shape⟩ := List.exists_cons_of_ne_nil (Text.pieces_ne_nil (· == '/') text)
  have pieces : split ('\x7b' :: text) = ('\x7b' :: piece) :: more := by
    rw [split, Text.pieces, shape]
    rfl
  have step : componentOf? ('\x7b' :: piece) = some (.name (String.ofList ('\x7b' :: piece))) := by
    simp [componentOf?]
  rw [pieces, List.filterMap_cons_some step]
  exact List.cons_ne_nil _ _

/-- A text behind an absolute root is absolute, so it is not joined to the root again. -/
theorem join_of_isAbsolute (absolute : root.isAbsolute = true) :
    root.join (root.text ++ rest) = ⟨root.text ++ rest⟩ := by
  have head : (Path.mk (root.text ++ rest)).isAbsolute = true := by
    obtain ⟨tail, shape⟩ := List.head?_eq_some_iff.1 (eq_of_beq absolute)
    simp [Path.isAbsolute, shape]
  rw [Path.join, if_pos head]

/-- Behind a singly braced name the folder of artifacts is the output folder exactly when the root
is absolute or stays put. -/
theorem sameFolder_single_iff (below : GoesBelow rest) :
    SameFolder tree root (root.join (root.text ++ rest))
        ⟨(tree.canonicalOrSelf root).text ++ rest⟩ ↔
      root.isAbsolute = true ∨ StaysPut root := by
  by_cases written : root.text = ""
  · have missing : tree.canonicalOrSelf root = root := by
      simp [FileTree.canonicalOrSelf, FileTree.canonical, FileTree.locate, written, Except.map]
    obtain ⟨text⟩ := root
    obtain rfl := written
    rw [missing]
    refine iff_of_true ⟨(Path.mk rest).components, ?_, ?_⟩ (.inr rfl)
    · by_cases absolute : (Path.mk rest).isAbsolute = true <;> simp [Path.join, absolute] <;> rfl
    · simp
      rfl
  · cases absolute : root.isAbsolute with
    | true =>
        have shape : (Path.mk (root.text ++ rest)).components =
            root.components ++ ([] ++ (split rest.toList).filterMap componentOf?) :=
          Path.components_append written below
        rw [join_of_isAbsolute absolute, sameFolder_iff_of_way written below shape]
        simp
    | false =>
        have relative : (Path.mk (root.text ++ rest)).isAbsolute = false := by
          have nonempty : root.text.toList ≠ [] := by simpa using written
          obtain ⟨head, tail, shape⟩ := List.exists_cons_of_ne_nil nonempty
          simpa [Path.isAbsolute, shape] using absolute
        have shape := Path.components_join_of_written written relative
        rw [String.toList_append, Path.filterMap_split_append root.text.toList below] at shape
        rw [sameFolder_iff_of_way written below shape]
        simp [StaysPut, Path.pieces]

/-- Behind a doubly braced name the folder of artifacts lies below another one. -/
theorem not_sameFolder_doubled (absolute : root.isAbsolute = true) (below : GoesBelow rest) :
    ¬ SameFolder tree root (root.join (embraced true root.text ++ rest))
      ⟨(tree.canonicalOrSelf root).text ++ rest⟩ := by
  have written : root.text ≠ "" := by
    intro empty
    rw [Path.isAbsolute, empty] at absolute
    exact absurd absolute (by decide)
  have relative : (Path.mk (embraced true root.text ++ rest)).isAbsolute = false := by
    simp [Path.isAbsolute]
  have shape := Path.components_join_of_written written relative
  rw [String.toList_append, Path.filterMap_split_append _ below] at shape
  rw [sameFolder_iff_of_way written below shape, Variable.toList_embraced_true]
  exact filterMap_split_brace_ne_nil _

end Compared

/-- Where no higher source sets the folders or the root, the output folder of a setting is the
canonical root with the rest of the setting behind it. Behind a singly braced name the folder of
artifacts has the same rest behind an absolute root as given. As long as the rest goes below the
root, both are then the same folder, also for a relative root that stays put, but not for any other
relative root, and never behind a doubly braced name of an absolute root. -/
theorem output_folder_is_folder_of_artifacts_iff {tree : FileTree} {base : Context}
    {configuration : Configuration} {workflow : String} {own resolved : Table} {name rest : String}
    {doubled : Bool} (named : name ∈ rootNames)
    (written : configuration.paths.outputFolder = some (spelled doubled name ++ rest))
    (plain : hasPlaceholder rest = false) (shown : Shows [] base.root.text.toList)
    (canonicalPlain : hasPlaceholder (tree.canonicalOrSelf base.root).text = false)
    (unset : ∀ key ∈ ["output_folder", "implementation_artifacts", name],
      firstGiven (higherProviders tree (base.withConfiguration configuration) workflow own) key =
        none)
    (done : (Cache.empty.resolveWith tree (base.withConfiguration configuration) workflow own).1 =
      .ok resolved) :
    ∃ output artifacts, resolved.text? "output_folder" = some output ∧
      resolved.text? "implementation_artifacts" = some artifacts ∧
      output = (tree.canonicalOrSelf base.root).text ++ rest ∧
      (doubled = false → base.root.isAbsolute = true → artifacts = base.root.text ++ rest) ∧
      (GoesBelow rest →
        (doubled = false → (SameFolder tree base.root ⟨artifacts⟩ ⟨output⟩ ↔
          base.root.isAbsolute = true ∨ StaysPut base.root)) ∧
        (doubled = true → base.root.isAbsolute = true →
          ¬ SameFolder tree base.root ⟨artifacts⟩ ⟨output⟩)) := by
  have output := text?_output done written named plain canonicalPlain fun key member =>
    unset key (by simp only [List.mem_cons] at member ⊢; tauto)
  have artifacts := text?_artifacts done written (unset "implementation_artifacts" (by simp))
  -- Where the folder has no placeholders, its own text is shown.
  have unfilled (apart : doubled = true → base.root.isAbsolute = true) :
      fill resolved.text? (Context.folder base.root (spelled doubled name ++ rest)).text =
        (base.root.join (embraced doubled base.root.text ++ rest)).text := by
    rw [folder_spelled shown plain named apart]
    exact Variable.fill_of_plain
      (hasPlaceholder_join shown (hasPlaceholder_embraced shown plain apart))
  refine ⟨_, _, output, artifacts, rfl, ?_, fun below => ⟨?_, ?_⟩⟩
  · rintro rfl absolute
    rw [unfilled fun _ => absolute, Variable.embraced_false,
      join_of_isAbsolute absolute]
  · rintro rfl
    rw [unfilled nofun]
    exact sameFolder_single_iff below
  · rintro rfl absolute
    rw [unfilled fun _ => absolute]
    exact not_sameFolder_doubled absolute below

/-- This project is reached by a link as well. -/
def linkedProject : FileTree where
  entries := [(["p"], .directory), (["l"], .link ⟨"/p"⟩)]
  workingDirectory := []

/-- A project starts with this context for its root as given. -/
def plainContext (root : String) : Context :=
  Context.new ⟨root⟩ "2024-01-01"

def folderSetting (folder : String) : Configuration :=
  { paths := { outputFolder := some folder } }

/-- A context for a root as given whose configuration sets the output folder only. -/
def settingContext (root folder : String) : Context :=
  (plainContext root).withConfiguration (folderSetting folder)

/-- Such a context resolves a workflow without variables of its own. -/
def resolvedSetting (root folder : String) : Except Violation Table :=
  (Cache.empty.resolveWith linkedProject (settingContext root folder) "demo" ∅).1

theorem unset_of_settingContext (root folder name : String) :
    firstGiven (higherProviders linkedProject (settingContext root folder) "demo" ∅) name =
      none := by
  have kind : Knowledge.kindOf "demo" = "demo" := by decide
  have review (context : Context) : reviewProvider context "demo" name = none := by
    fun_cases reviewProvider context "demo" name <;> simp_all
  have platform (context : Context) :
      platformProvider linkedProject context "demo" name = none := by
    fun_cases platformProvider linkedProject context "demo" name <;> simp_all
  simp only [higherProviders, firstGiven_cons, firstGiven_nil, review, platform]
  rfl

/-- Below a linked root a singly braced name gives one folder, and a doubly braced one gives two. -/
theorem folders_below_link :
    (∃ resolved, resolvedSetting "/l" "\x7bproject_root\x7d/out" = .ok resolved ∧
      resolved.text? "output_folder" = some "/p/out" ∧
      resolved.text? "implementation_artifacts" = some "/l/out" ∧
      SameFolder linkedProject ⟨"/l"⟩ ⟨"/l/out"⟩ ⟨"/p/out"⟩) ∧
    ∃ resolved, resolvedSetting "/l" "\x7b\x7bproject-root\x7d\x7d/out" = .ok resolved ∧
      ∃ artifacts, resolved.text? "implementation_artifacts" = some artifacts ∧
        ¬ SameFolder linkedProject ⟨"/l"⟩ ⟨artifacts⟩ ⟨"/p/out"⟩ := by
  have canonical : (linkedProject.canonicalOrSelf (plainContext "/l").root).text = "/p" := by
    decide +kernel
  have plain : hasPlaceholder (linkedProject.canonicalOrSelf (plainContext "/l").root).text =
      false := by
    rw [canonical]
    decide
  have shown : Shows [] "/l".toList := Variable.shows_of_not_mem (by decide)
  have succeeds (folder : String) (resolves : (resolvedSetting "/l" folder).isOk = true) :
      ∃ resolved, resolvedSetting "/l" folder = .ok resolved := by
    cases outcome : resolvedSetting "/l" folder with
    | ok resolved => exact ⟨resolved, rfl⟩
    | error violation => simp [outcome, Except.isOk, Except.toBool] at resolves
  constructor
  · obtain ⟨resolved, done⟩ := succeeds "\x7bproject_root\x7d/out" (by decide +kernel)
    obtain ⟨output, artifacts, first, second, rfl, given, below⟩ :=
      @output_folder_is_folder_of_artifacts_iff linkedProject (plainContext "/l")
        (folderSetting "\x7bproject_root\x7d/out") "demo" ∅ resolved
        "project_root" "/out" false (by decide) (by decide) (by decide) shown plain
        (fun key _ => unset_of_settingContext _ _ key) done
    obtain rfl := given rfl (by decide)
    have folders := ((below (.inr (by decide))).1 rfl).2 (.inl (by decide))
    rw [canonical] at first folders
    exact ⟨resolved, done, first, second, folders⟩
  · obtain ⟨resolved, done⟩ :=
      succeeds "\x7b\x7bproject-root\x7d\x7d/out" (by decide +kernel)
    obtain ⟨output, artifacts, first, second, rfl, -, below⟩ :=
      @output_folder_is_folder_of_artifacts_iff linkedProject (plainContext "/l")
        (folderSetting "\x7b\x7bproject-root\x7d\x7d/out") "demo" ∅ resolved
        "project-root" "/out" true (by decide) (by decide) (by decide) shown plain
        (fun key _ => unset_of_settingContext _ _ key) done
    have folders := (below (.inr (by decide))).2 rfl (by decide)
    rw [canonical] at folders
    exact ⟨resolved, done, artifacts, second, folders⟩

/-- A setting that starts with a reference to the root does not always give one folder. -/
theorem doubled_root_gives_two_folders :
    ¬ ∀ (tree : FileTree) (base : Context) (configuration : Configuration) (workflow : String)
        (own resolved : Table) (name rest output artifacts : String) (doubled : Bool),
      name ∈ rootNames →
      configuration.paths.outputFolder = some (spelled doubled name ++ rest) →
      hasPlaceholder rest = false →
      (∀ key ∈ ["output_folder", "implementation_artifacts", name],
        firstGiven (higherProviders tree (base.withConfiguration configuration) workflow own) key =
          none) →
      (Cache.empty.resolveWith tree (base.withConfiguration configuration) workflow own).1 =
        .ok resolved →
      resolved.text? "output_folder" = some output →
      resolved.text? "implementation_artifacts" = some artifacts →
      SameFolder tree base.root ⟨artifacts⟩ ⟨output⟩ := by
  intro agree
  have shown : (resolvedSetting "/p" "\x7b\x7bproject-root\x7d\x7d/out").toOption.map
      (fun resolved =>
        (resolved.text? "output_folder", resolved.text? "implementation_artifacts")) =
      some (some "/p/out", some "/p/\x7b/p\x7d/out") := by
    decide +kernel
  obtain ⟨resolved, done, folders⟩ := Outcome.exists_of_map_toOption shown
  obtain ⟨output, artifacts⟩ := Prod.mk.inj folders
  obtain ⟨way, first, second⟩ := agree linkedProject (plainContext "/p")
    (folderSetting "\x7b\x7bproject-root\x7d\x7d/out") "demo" ∅ resolved
    "project-root" "/out" "/p/out" "/p/\x7b/p\x7d/out" true (by decide) (by decide) (by decide)
    (fun key _ => unset_of_settingContext _ _ key) done output artifacts
  have canonical :
      linkedProject.canonicalOrSelf (plainContext "/p").root = (plainContext "/p").root := by
    decide +kernel
  rw [canonical] at second
  have same := first.trans second.symm
  exact absurd same (by decide)

end WorkflowBundle.Cascade
