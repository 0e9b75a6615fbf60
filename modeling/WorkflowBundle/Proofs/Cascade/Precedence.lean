/-
This file says which source gives a variable its value: the first one, in the order of precedence,
that defines the name.
-/

import WorkflowBundle.Cascade.Cache
import WorkflowBundle.Proofs.Dictionary

namespace WorkflowBundle.Cascade

open Variable (Table Value)

/-- A provider gives values to the names it defines. -/
abbrev Provider := String → Option Value

/-- The first provider that defines a name gives its value. -/
def firstGiven (providers : List Provider) (name : String) : Option Value :=
  providers.findSome? fun provider => provider name

@[simp] theorem firstGiven_nil (name : String) : firstGiven [] name = none := rfl

@[simp] theorem firstGiven_cons (provider : Provider) (others : List Provider) (name : String) :
    firstGiven (provider :: others) name = (provider name).or (firstGiven others name) := by
  rw [firstGiven, List.findSome?_cons]
  cases provider name <;> rfl

@[simp] theorem firstGiven_append (first second : List Provider) (name : String) :
    firstGiven (first ++ second) name = (firstGiven first name).or (firstGiven second name) :=
  List.findSome?_append

/-- The path settings that are present define one name each. -/
def pathProvider (paths : PathSettings) : Provider
  | "output_folder" => paths.outputFolder.map .ofText
  | "project_knowledge" => paths.projectKnowledge.map .ofText
  | "communication_language" => paths.communicationLanguage.map .ofText
  | "user_name" => paths.userName.map .ofText
  | _ => none

/-- The test settings that are present define the directory, and the flags if knowledge is set. -/
def testProvider (tests : Option TestSettings) : Provider
  | "test_dir" => tests.map fun settings => .ofText settings.testDirectory
  | "use_playwright_utils" =>
    (tests.bind TestSettings.knowledge).map fun settings => .boolean settings.playwrightUtils
  | "use_mcp_enhancements" =>
    (tests.bind TestSettings.knowledge).map fun settings => .boolean settings.mcpEnhancements
  | _ => none

/-- A project defines its canonical root, the configuration file, the test settings or their
defaults, and its index if there is one. -/
def projectProvider (tree : FileTree) (context : Context) : Provider
  | "project-root" => some (.ofText (tree.canonicalOrSelf context.root).text)
  | "project_root" => some (.ofText (tree.canonicalOrSelf context.root).text)
  | "config_source" => some (.ofText Configuration.fileName)
  | "test_dir" => some (.ofText context.configuration.testDirectory)
  | "use_playwright_utils" => some (.boolean context.configuration.knowledge.playwrightUtils)
  | "use_mcp_enhancements" => some (.boolean context.configuration.knowledge.mcpEnhancements)
  | "knowledgeIndex" =>
    (Project.indexPath? tree context.root context.configuration.knowledge.indexPath).map
      fun path => .ofText path.text
  | _ => none

/-- A run defines its folders, its language and its date. -/
def runProvider (context : Context) : Provider
  | "implementation_artifacts" => some (.ofText context.outputFolder.text)
  | "project_knowledge" => context.projectKnowledge.map fun path => .ofText path.text
  | "communication_language" => some (.ofText (language context))
  | "date" => some (.ofText context.date)
  | _ => none

/-- A mapping defines a name by the last entry with that string as its key whose value is a
variable. Null values and values that cannot be rendered are none. -/
def mappingProvider (mapping : Yaml.Mapping) : Provider := fun name =>
  mapping.reverse.findSome? fun entry =>
    if entry.1.text? = some name then Value.ofYaml? entry.2 else none

/-- The overrides of a workflow define what their mapping defines. -/
def overrideProvider (configuration : Configuration) (workflow : String) : Provider := fun name =>
  (configuration.overrides.find? workflow).bind fun mapping => mappingProvider mapping name

/-- The platform is defined for the workflows that set up continuous integration. -/
def platformProvider (tree : FileTree) (context : Context) (workflow : String) : Provider
  | "ci_platform" =>
    if Knowledge.kindOf workflow = "ci" then
      some (.ofText (CiPlatform.detect tree context.root).name)
    else none
  | _ => none

/-- The scope of a review is defined for the workflows that review tests. -/
def reviewProvider (context : Context) (workflow : String) : Provider
  | "review_scope" =>
    if Knowledge.kindOf workflow = "test-review" then
      some (.ofText
        (ReviewScope.ofVariables context.bindings context.configuration.testDirectory).name)
    else none
  | _ => none

def directoryProvider (workflow : Workflow) : Provider
  | "installed_path" => some (.ofText workflow.directory.text)
  | _ => none

/-- The settings of a workflow that are strings, truth values or numbers define their keys, unless
the key is reserved or the string refers to the configuration. -/
def settingProvider (settings : Yaml.Mapping) : Provider := fun name =>
  if name ∈ reservedSettings then none
  else
    settings.reverse.findSome? fun entry =>
      if entry.1.text? = some name ∧ isVariableSetting entry.2 then Value.ofYaml? entry.2 else none

def declaredProvider (settings : Yaml.Mapping) : Provider := fun name =>
  ((settings.find? declarationSetting).bind Yaml.entries?).bind fun mapping =>
    mappingProvider mapping name

/-- A parsed workflow knows its directory first, then its settings, then what it declares. -/
def ownProviders (workflow : Workflow) : List Provider :=
  [directoryProvider workflow, settingProvider workflow.settings,
    declaredProvider workflow.settings]

/-- The providers of a resolution from the highest precedence to the lowest. Those of the workflow
itself stand between the platform and the shared defaults, and the files of the project are those
that another context sees. -/
def precedenceSeenBy (tree : FileTree) (seer context : Context) (workflow : String)
    (own : List Provider) : List Provider :=
  [context.bindings.find?, reviewProvider context workflow,
    overrideProvider context.configuration workflow, platformProvider tree seer workflow] ++
  own ++
  [mappingProvider context.configuration.sharedDefaults, runProvider context,
    projectProvider tree seer, testProvider context.configuration.tests,
    pathProvider context.configuration.paths]

/-- A new resolution sees the files of its own project. -/
def precedence (tree : FileTree) (context : Context) (workflow : String)
    (own : List Provider) : List Provider :=
  precedenceSeenBy tree context context workflow own

/-- A table is merged from providers when each name has the value of the first one that defines
it. -/
def MergedFrom (providers : List Provider) (merged : Table) : Prop :=
  ∀ name, merged.find? name = firstGiven providers name

theorem lookup_optionalEntry (key name : String) (text : Option String) :
    (optionalEntry key text).reverse.lookup name =
      if name = key then text.map Value.ofText else none := by
  cases text with
  | none => simp [optionalEntry]
  | some content =>
      change [(key, Value.ofText content)].lookup name = _
      rw [Dictionary.lookup_entry]
      rfl

/-- The table of the path settings has what the settings define. -/
theorem find?_pathSource (paths : PathSettings) (name : String) :
    (Dictionary.ofList (pathSource paths)).find? name = pathProvider paths name := by
  rw [Dictionary.find?_ofList, pathSource]
  simp only [List.reverse_append, List.lookup_append, lookup_optionalEntry]
  fun_cases pathProvider paths name <;> simp_all

/-- The table of the flags has both flags. -/
theorem lookup_flagEntries (settings : KnowledgeSettings) (name : String) :
    (flagEntries settings).reverse.lookup name =
      if name = "use_mcp_enhancements" then some (.boolean settings.mcpEnhancements)
      else if name = "use_playwright_utils" then some (.boolean settings.playwrightUtils)
      else none := by
  change [("use_mcp_enhancements", Value.boolean settings.mcpEnhancements),
    ("use_playwright_utils", Value.boolean settings.playwrightUtils)].lookup name = _
  simp only [Dictionary.lookup_entry, List.lookup_nil]

theorem find?_testSource (tests : Option TestSettings) (name : String) :
    (Dictionary.ofList ((tests.map testSource).getD [])).find? name = testProvider tests name := by
  rw [Dictionary.find?_ofList]
  rcases tests with _ | ⟨directory, _ | knowledge⟩
  · fun_cases testProvider none name <;> simp
  · simp only [Option.map_some, Option.getD_some, testSource, textEntry, Option.map_none,
      Option.getD_none, List.reverse_cons, List.reverse_nil, List.nil_append,
      Dictionary.lookup_entry, List.lookup_nil]
    fun_cases testProvider (some ⟨directory, none⟩) name <;> simp_all
  · simp only [Option.map_some, Option.getD_some, testSource, textEntry, List.reverse_cons,
      List.lookup_append, lookup_flagEntries, Dictionary.lookup_entry, List.lookup_nil]
    fun_cases testProvider (some ⟨directory, some knowledge⟩) name <;> simp_all

/-- The table of a project has what the project defines. -/
theorem find?_projectSource (tree : FileTree) (context : Context) (name : String) :
    (Dictionary.ofList
      (projectSource tree context (tree.canonicalOrSelf context.root))).find? name =
      projectProvider tree context name := by
  rw [Dictionary.find?_ofList, projectSource]
  simp only [List.reverse_append, List.lookup_append, lookup_optionalEntry, lookup_flagEntries,
    List.reverse_cons, List.reverse_nil, List.nil_append, textEntry, Dictionary.lookup_entry,
    List.lookup_nil]
  fun_cases projectProvider tree context name <;> simp_all [Function.comp_def]

theorem find?_runSource (context : Context) (name : String) :
    (Dictionary.ofList (runSource context)).find? name = runProvider context name := by
  rw [Dictionary.find?_ofList, runSource]
  simp only [List.reverse_append, List.lookup_append, lookup_optionalEntry, List.reverse_cons,
    List.reverse_nil, List.nil_append, textEntry, Dictionary.lookup_entry, List.lookup_nil]
  fun_cases runProvider context name <;> simp_all [Function.comp_def]

/-- The first kept entry of a name is looked for among all entries. -/
theorem lookup_filterMap {Entry : Type} (read : Entry → Option (String × Value))
    (entries : List Entry) (name : String) :
    (entries.filterMap read).lookup name =
      entries.findSome? fun entry => (read entry).bind fun kept =>
        if kept.1 = name then some kept.2 else none := by
  induction entries with
  | nil => rfl
  | cons entry rest inductionHypothesis =>
      rw [List.findSome?_cons]
      rcases kept : read entry with _ | ⟨key, value⟩
      · rw [List.filterMap_cons_none kept, inductionHypothesis]
        rfl
      · rw [List.filterMap_cons_some kept, Dictionary.lookup_entry, inductionHypothesis]
        by_cases same : name = key
        · simp [same]
        · simp [same, Ne.symm same]

theorem find?_mappingSource (mapping : Yaml.Mapping) (name : String) :
    (Dictionary.ofList (mappingSource mapping)).find? name = mappingProvider mapping name := by
  rw [Dictionary.find?_ofList, mappingSource, ← List.filterMap_reverse, lookup_filterMap]
  unfold mappingProvider
  congr 1
  funext entry
  rcases text : entry.1.text? with _ | key
  · simp [text, Variable.entry?]
  · rcases value : Value.ofYaml? entry.2 with _ | rendered <;>
      simp [text, value, Variable.entry?]

/-- A setting gives its value to its own key only. -/
theorem given_of_setting (setting : Yaml × Yaml) (name : String) :
    (Cascade.settingEntry? setting).bind (fun kept => if kept.1 = name then some kept.2 else none) =
      if setting.1.text? = some name ∧ isVariableSetting setting.2 ∧ name ∉ reservedSettings then
        Value.ofYaml? setting.2
      else none := by
  rcases text : setting.1.text? with _ | key
  · simp [text, settingEntry?]
  · rcases value : Value.ofYaml? setting.2 with _ | rendered
    · simp [text, value, settingEntry?]
    · by_cases same : key = name
      · subst same
        cases kept : isVariableSetting setting.2 <;>
          by_cases reserved : key ∈ reservedSettings <;>
            simp [text, value, settingEntry?, kept, reserved]
      · cases kept : isVariableSetting setting.2 <;>
          by_cases reserved : key ∈ reservedSettings <;>
            simp [text, value, settingEntry?, kept, reserved, same]

/-- The list of the settings of a workflow has what the settings define. -/
theorem lookup_settings (settings : Yaml.Mapping) (name : String) :
    (settings.filterMap settingEntry?).reverse.lookup name = settingProvider settings name := by
  rw [← List.filterMap_reverse, lookup_filterMap]
  unfold settingProvider
  simp only [given_of_setting]
  by_cases reserved : name ∈ reservedSettings <;> simp [reserved]

/-- The table of the overrides of a workflow, over its platform, has what the two define. -/
theorem find?_workflowTable (tree : FileTree) (context : Context) (configuration : Configuration)
    (workflow name : String) :
    (Dictionary.ofList
      (platformSource tree context workflow ++ overrideSource configuration workflow)).find? name =
      (overrideProvider configuration workflow name).or
        (platformProvider tree context workflow name) := by
  rw [Dictionary.find?_ofList, List.reverse_append, List.lookup_append]
  congr 1
  · unfold overrideSource overrideProvider
    rcases configuration.overrides.find? workflow with _ | mapping
    · rfl
    · exact (Dictionary.find?_ofList _ _).symm.trans (find?_mappingSource mapping name)
  · unfold platformSource
    by_cases continuous : Knowledge.kindOf workflow = "ci" <;>
      fun_cases platformProvider tree context workflow name <;>
        simp_all [textEntry, Dictionary.lookup_entry]

theorem find?_reviewSource (context : Context) (workflow name : String) :
    (Dictionary.ofList (reviewSource context workflow)).find? name =
      reviewProvider context workflow name := by
  rw [Dictionary.find?_ofList]
  unfold reviewSource
  by_cases reviews : Knowledge.kindOf workflow = "test-review" <;>
    fun_cases reviewProvider context workflow name <;>
      simp_all [textEntry, Dictionary.lookup_entry]

/-- The table of a parsed workflow has what the first of its providers defines. -/
theorem find?_workflowSource (workflow : Workflow) (name : String) :
    (Dictionary.ofList (workflowSource workflow)).find? name =
      firstGiven (ownProviders workflow) name := by
  have declared : (declaredSource workflow.settings).reverse.lookup name =
      declaredProvider workflow.settings name := by
    unfold declaredSource declaredProvider
    rcases (workflow.settings.find? declarationSetting).bind Yaml.entries? with _ | mapping
    · rfl
    · exact (Dictionary.find?_ofList _ _).symm.trans (find?_mappingSource mapping name)
  have directory : [textEntry directoryVariable workflow.directory.text].lookup name =
      directoryProvider workflow name := by
    rw [textEntry, Dictionary.lookup_entry]
    fun_cases directoryProvider workflow name <;> simp_all [directoryVariable]
  rw [Dictionary.find?_ofList, workflowSource, List.reverse_append, List.reverse_append,
    List.lookup_append, List.lookup_append, declared, lookup_settings, List.reverse_singleton,
    directory]
  simp [ownProviders]

/-- A merge has the value of the highest layer that has the name. -/
theorem find?_merge (tables : List Table) (name : String) :
    (merge tables).find? name = firstGiven (tables.reverse.map Dictionary.find?) name := by
  have folded (base : Table) :
      (tables.foldl Dictionary.overlay base).find? name =
        (firstGiven (tables.reverse.map Dictionary.find?) name).or (base.find? name) := by
    induction tables generalizing base with
    | nil => rfl
    | cons first others inductionHypothesis =>
        rw [List.foldl_cons, inductionHypothesis]
        simp [Option.or_assoc]
  rw [merge, folded]
  exact Option.or_none

/-- The merged layers have every variable of the run, whatever the layers below define. -/
theorem find?_merge_layers_of_run (tables : ProjectTables) {context : Context} (workflow : String)
    (own : Table) {name : String} {value : Value}
    (bound : context.bindings.find? name = some value) :
    (merge (layers tables context workflow own)).find? name = some value := by
  simp [find?_merge, layers, bound]

def tablesOf (tree : FileTree) (context : Context) (workflow : String) : ProjectTables :=
  ProjectTables.compute tree context (tree.canonicalOrSelf context.root) workflow

/-- The merged layers of a resolution follow the order of precedence, also with the tables that
another context of the same configuration computed. -/
theorem mergedFrom_layers (tree : FileTree) (seer context : Context) (workflow : String)
    (own : Table) (providers : List Provider)
    (configured : seer.configuration = context.configuration)
    (given : ∀ name, own.find? name = firstGiven providers name) :
    MergedFrom (precedenceSeenBy tree seer context workflow providers)
      (merge (layers (tablesOf tree seer workflow) context workflow own)) := by
  intro name
  rw [find?_merge]
  simp only [layers, tablesOf, ProjectTables.compute, precedenceSeenBy, List.reverse_cons,
    List.reverse_nil, List.nil_append, List.cons_append, List.map_cons, List.map_nil,
    firstGiven_cons, firstGiven_append, firstGiven_nil, find?_pathSource, find?_testSource,
    find?_projectSource, find?_runSource, find?_mappingSource, find?_reviewSource,
    find?_workflowTable, given, configured, Option.or_assoc]

/-- A new cache computes the tables of a project from its files. -/
theorem Cache.resolveWith_empty (tree : FileTree) (context : Context) (workflow : String)
    (own : Table) :
    (Cache.empty.resolveWith tree context workflow own).1 =
      resolve (tablesOf tree context workflow) context workflow own := rfl

/-- An entry of a mapping defines a variable when it can be read as one. -/
def definesVariable (entry : Yaml × Yaml) : Bool :=
  Option.isSome <| Variable.entry? entry

/-- Entries of a mapping that are no variables define nothing and hide nothing. -/
theorem mappingProvider_filter (mapping : Yaml.Mapping) :
    mappingProvider (mapping.filter definesVariable) = mappingProvider mapping := by
  funext name
  have kept : (fun entry => if definesVariable entry then Variable.entry? entry else none) =
      Variable.entry? := by
    funext entry
    rw [definesVariable]
    cases Variable.entry? entry <;> rfl
  rw [← find?_mappingSource, ← find?_mappingSource, mappingSource, mappingSource,
    List.filterMap_filter, kept]

/-- A new cache resolves a workflow to the expansion of one merged table: each name has the value of
the first provider, in the order of precedence, that defines it. This holds for any variables of the
workflow's own, for none, and for those of a parsed workflow. An entry of a mapping without a
variable counts for nothing. -/
theorem new_cache_resolves_by_precedence (tree : FileTree) (context : Context) :
    (∀ workflow own, ∃ merged, MergedFrom (precedence tree context workflow [own.find?]) merged ∧
      (Cache.empty.resolveWith tree context workflow own).1 = Variable.expand merged) ∧
    (∀ workflow, ∃ merged, MergedFrom (precedence tree context workflow []) merged ∧
      (Cache.empty.resolveNamed tree context workflow).1 = Variable.expand merged) ∧
    (∀ workflow : Workflow, ∃ merged,
      MergedFrom (precedence tree context workflow.name (ownProviders workflow)) merged ∧
      (Cache.empty.resolveWorkflow tree context workflow).1 = Variable.expand merged) ∧
    ∀ mapping : Yaml.Mapping,
      mappingProvider (mapping.filter definesVariable) = mappingProvider mapping := by
  refine ⟨fun workflow own => ?_, fun workflow => ?_, fun workflow => ?_, mappingProvider_filter⟩
  · exact ⟨_, mergedFrom_layers tree context context workflow own [own.find?] rfl (by simp),
      Cache.resolveWith_empty tree context workflow own⟩
  · exact ⟨_, mergedFrom_layers tree context context workflow ∅ [] rfl (by simp),
      Cache.resolveWith_empty tree context workflow ∅⟩
  · have given (name : String) := find?_workflowSource workflow name
    exact ⟨_, mergedFrom_layers tree context context workflow.name _ (ownProviders workflow) rfl
        given,
      Cache.resolveWith_empty tree context workflow.name _⟩

end WorkflowBundle.Cascade
