/-
This file compares the answers of a cache that was used before with those of a new one.
-/

import WorkflowBundle.Proofs.Cascade.Provenance
import WorkflowBundle.Proofs.Variable.Expansion

namespace WorkflowBundle.Cascade

open Variable (Table Value)

/-- These variables of a project depend on how its root is written. -/
def rootedNames : List String := ["project-root", "project_root", "knowledgeIndex"]

/-- A request covers a variable of the project when a higher source defines the name. -/
def Request.coversProject (request : Request) (name : String) : Bool :=
  (firstGiven [request.context.bindings.find?,
    overrideProvider request.context.configuration request.workflow, request.own.find?,
    mappingProvider request.context.configuration.sharedDefaults] name).isSome

/-- A request covers the platform when a higher source defines the name. -/
def Request.coversPlatform (request : Request) : Bool :=
  (firstGiven [request.context.bindings.find?,
    overrideProvider request.context.configuration request.workflow] "ci_platform").isSome

/-- Two requests see a project alike when, as far as it is not covered, they find the same root, the
same index and the same platform. -/
structure SeesAlike (tree : FileTree) (source request : Request) : Prop where
  project : ∀ name ∈ rootedNames, request.coversProject name = false →
    projectProvider tree source.context name = projectProvider tree request.context name
  platform : request.coversPlatform = false →
    platformProvider tree source.context request.workflow "ci_platform" =
      platformProvider tree request.context request.workflow "ci_platform"

/-- A request shows plain values when those that depend on its root hold no placeholders. -/
def ShowsPlain (tree : FileTree) (request : Request) : Prop :=
  ∀ name ∈ rootedNames, ∀ value,
    projectProvider tree request.context name = some value → value.isUnresolved = false

/-- No other name is the platform. -/
theorem platformProvider_of_ne (tree : FileTree) (context : Context) (workflow : String)
    {name : String} (different : name ≠ "ci_platform") :
    platformProvider tree context workflow name = none := by
  fun_cases platformProvider tree context workflow name <;> simp_all

/-- The other variables of a project depend on its configuration only. -/
theorem projectProvider_of_not_mem (tree : FileTree) {seer context : Context} {name : String}
    (configured : seer.configuration = context.configuration) (other : name ∉ rootedNames) :
    projectProvider tree seer name = projectProvider tree context name := by
  unfold projectProvider
  rw [configured]
  split <;> simp_all [rootedNames]

/-- Resolutions that find the same platform and project values for a name give it the same value. -/
theorem firstGiven_congr {tree : FileTree} {first second context : Context} {workflow name : String}
    (own : List Provider)
    (platform : platformProvider tree first workflow name =
      platformProvider tree second workflow name)
    (project : projectProvider tree first name = projectProvider tree second name) :
    firstGiven (precedenceSeenBy tree first context workflow own) name =
      firstGiven (precedenceSeenBy tree second context workflow own) name := by
  simp [precedenceSeenBy, platform, project]

/-- A variable of the project that is covered has the value of the source that covers it. -/
theorem firstGiven_of_coversProject (tree : FileTree) (seer : Context) {request : Request}
    {name : String} (rooted : name ∈ rootedNames) (covered : request.coversProject name = true) :
    firstGiven (precedenceSeenBy tree seer request.context request.workflow
      [request.own.find?]) name =
    firstGiven [request.context.bindings.find?,
      overrideProvider request.context.configuration request.workflow, request.own.find?,
      mappingProvider request.context.configuration.sharedDefaults] name := by
  obtain ⟨value, given⟩ := Option.isSome_iff_exists.1 covered
  rw [given]
  simp only [firstGiven_cons, firstGiven_nil, Option.or_eq_some_iff] at given
  simp only [rootedNames, List.mem_cons, List.not_mem_nil, or_false] at rooted
  rcases rooted with rfl | rfl | rfl <;>
    simp only [precedenceSeenBy, reviewProvider, platformProvider, List.cons_append,
      List.nil_append, firstGiven_cons, Option.or_eq_some_iff] <;> tauto

/-- A platform that is covered has the value of the source that covers it. -/
theorem firstGiven_of_coversPlatform (tree : FileTree) (seer : Context) {request : Request}
    (covered : request.coversPlatform = true) :
    firstGiven (precedenceSeenBy tree seer request.context request.workflow
      [request.own.find?]) "ci_platform" =
    firstGiven [request.context.bindings.find?,
      overrideProvider request.context.configuration request.workflow] "ci_platform" := by
  obtain ⟨value, given⟩ := Option.isSome_iff_exists.1 covered
  rw [given]
  simp only [firstGiven_cons, firstGiven_nil, Option.or_eq_some_iff] at given
  simp only [precedenceSeenBy, reviewProvider, List.cons_append, List.nil_append,
    firstGiven_cons, Option.or_eq_some_iff]
  tauto

theorem isUnresolved_platform (platform : CiPlatform) :
    (Value.ofText platform.name).isUnresolved = false := by
  cases platform <;> rfl

section SameKey

variable {tree : FileTree} {source request : Request}
variable (named : source.workflow = request.workflow)
variable (configured : source.context.configuration = request.context.configuration)

include named configured

/-- A merged table follows the order of precedence with the files that the source sees. -/
theorem find?_merged (name : String) :
    (request.merged (source.tables tree)).find? name =
      firstGiven (precedenceSeenBy tree source.context request.context request.workflow
        [request.own.find?]) name := by
  rw [Request.merged, Request.tables, named]
  exact mergedFrom_layers tree source.context request.context request.workflow request.own
    [request.own.find?] configured (by simp) name

/-- A variable of the project that is not covered has the value that the source sees. -/
theorem find?_merged_of_rooted {name : String} (rooted : name ∈ rootedNames)
    (uncovered : request.coversProject name = false) :
    (request.merged (source.tables tree)).find? name =
      projectProvider tree source.context name := by
  rw [find?_merged named configured]
  simp only [Request.coversProject, firstGiven_cons, firstGiven_nil, Option.or_none,
    Option.isSome_or, Bool.or_eq_false_iff, Option.isSome_eq_false_iff,
    Option.isNone_iff_eq_none] at uncovered
  obtain ⟨noBinding, noOverride, noOwn, noDefault⟩ := uncovered
  simp only [rootedNames, List.mem_cons, List.not_mem_nil, or_false] at rooted
  rcases rooted with rfl | rfl | rfl <;>
    simp [precedenceSeenBy, noBinding, noOverride, noOwn, noDefault, reviewProvider,
      platformProvider, runProvider, testProvider, pathProvider]

/-- The platform is the one that the source sees if it is not covered. -/
theorem find?_merged_platform (continuous : Knowledge.kindOf request.workflow = "ci")
    (uncovered : request.coversPlatform = false) :
    (request.merged (source.tables tree)).find? "ci_platform" =
      platformProvider tree source.context request.workflow "ci_platform" := by
  rw [find?_merged named configured]
  simp only [Request.coversPlatform, firstGiven_cons, firstGiven_nil, Option.or_none,
    Option.isSome_or, Bool.or_eq_false_iff, Option.isSome_eq_false_iff,
    Option.isNone_iff_eq_none] at uncovered
  obtain ⟨noBinding, noOverride⟩ := uncovered
  simp [precedenceSeenBy, noBinding, noOverride, reviewProvider, platformProvider, continuous]

/-- Two requests that see a project alike have the same merged table, and only they do. -/
theorem merged_eq_iff :
    request.merged (source.tables tree) = request.merged (request.tables tree) ↔
      SeesAlike tree source request := by
  constructor
  · intro equal
    constructor
    · intro name rooted uncovered
      rw [← find?_merged_of_rooted named configured rooted uncovered,
        ← find?_merged_of_rooted rfl rfl rooted uncovered, equal]
    · intro uncovered
      by_cases continuous : Knowledge.kindOf request.workflow = "ci"
      · rw [← find?_merged_platform named configured continuous uncovered,
          ← find?_merged_platform rfl rfl continuous uncovered, equal]
      · simp [platformProvider, continuous]
  · intro alike
    apply Dictionary.eq_of_find?_eq
    intro name
    by_cases rooted : name ∈ rootedNames
    · cases covered : request.coversProject name with
      | false =>
          rw [find?_merged_of_rooted named configured rooted covered,
            find?_merged_of_rooted rfl rfl rooted covered, alike.project name rooted covered]
      | true =>
          rw [find?_merged named configured, find?_merged rfl rfl,
            firstGiven_of_coversProject tree _ rooted covered,
            firstGiven_of_coversProject tree _ rooted covered]
    · have project := projectProvider_of_not_mem tree configured rooted
      rw [find?_merged named configured, find?_merged rfl rfl]
      by_cases same : name = "ci_platform"
      · subst same
        cases covered : request.coversPlatform with
        | false => exact firstGiven_congr _ (alike.platform covered) project
        | true =>
            rw [firstGiven_of_coversPlatform tree _ covered,
              firstGiven_of_coversPlatform tree _ covered]
      · refine firstGiven_congr _ ?_ project
        rw [platformProvider_of_ne tree _ _ same, platformProvider_of_ne tree _ _ same]

/-- A resolution that succeeds tells apart what two requests see, if that holds no placeholders. -/
theorem expand_merged_eq_iff {result : Table}
    (resolved : Variable.expand (request.merged (request.tables tree)) = .ok result)
    (sourcePlain : ShowsPlain tree source) (requestPlain : ShowsPlain tree request) :
    Variable.expand (request.merged (source.tables tree)) =
        Variable.expand (request.merged (request.tables tree)) ↔
      SeesAlike tree source request := by
  constructor
  · intro equal
    have cached := equal.trans resolved
    -- A plain value of either merged table is still there after the expansion.
    have agree (name : String) (sourceValue requestValue : Option Value)
        (sourceFound : (request.merged (source.tables tree)).find? name = sourceValue)
        (requestFound : (request.merged (request.tables tree)).find? name = requestValue)
        (sourceKept : ∀ value, sourceValue = some value → value.isUnresolved = false)
        (requestKept : ∀ value, requestValue = some value → value.isUnresolved = false) :
        sourceValue = requestValue := by
      subst sourceFound requestFound
      rw [← Variable.find?_expand_of_plain cached sourceKept,
        ← Variable.find?_expand_of_plain resolved requestKept]
    constructor
    · intro name rooted uncovered
      exact agree name _ _ (find?_merged_of_rooted named configured rooted uncovered)
        (find?_merged_of_rooted rfl rfl rooted uncovered) (sourcePlain name rooted)
        (requestPlain name rooted)
    · intro uncovered
      by_cases continuous : Knowledge.kindOf request.workflow = "ci"
      · have plain (context : Context) (value : Value)
            (given : platformProvider tree context request.workflow "ci_platform" = some value) :
            value.isUnresolved = false := by
          simp only [platformProvider, if_pos continuous, Option.some.injEq] at given
          exact given ▸ isUnresolved_platform _
        exact agree _ _ _ (find?_merged_platform named configured continuous uncovered)
          (find?_merged_platform rfl rfl continuous uncovered) (plain _) (plain _)
      · simp [platformProvider, continuous]
  · intro alike
    rw [(merged_eq_iff named configured).2 alike]

end SameKey

/-- Requests with the same root as written see a project alike. -/
theorem seesAlike_of_root {tree : FileTree} {source request : Request}
    (configured : source.context.configuration = request.context.configuration)
    (root : source.context.root = request.context.root) : SeesAlike tree source request where
  project name _ _ := by simp only [projectProvider, configured, root]
  platform _ := by simp only [platformProvider, root]

/-- After any calls the answer to a request comes from the tables of its source, which has the same
key and configuration. It is the answer of a new cache if the source sees the project alike, as it
does when both roots are written the same, and a resolution that succeeds with plain roots differs
otherwise. -/
theorem used_cache_answers_like_new_iff_alike (tree : FileTree) (calls : List Call)
    (request : Request)
    (faithful : Faithful (request.context.configuration :: configurationsOf calls)) :
    let source := request.source tree calls
    let used := (request.answer tree (Cache.after tree calls)).1
    let fresh := (request.answer tree .empty).1
    ((source = request ∨ .ask source ∈ calls) ∧ source.key tree = request.key tree ∧
      source.context.configuration = request.context.configuration) ∧
    used = Variable.expand (request.merged (source.tables tree)) ∧
    fresh = Variable.expand (request.merged (request.tables tree)) ∧
    (source.context.root = request.context.root → SeesAlike tree source request) ∧
    (SeesAlike tree source request → used = fresh) ∧
    ∀ result, fresh = .ok result → ShowsPlain tree source → ShowsPlain tree request →
      (used = fresh ↔ SeesAlike tree source request) := by
  intro source used fresh
  have origin := source_of_faithful tree faithful
  have usedExpanded : used = Variable.expand (request.merged (source.tables tree)) :=
    answer_after tree calls request
  have freshExpanded : fresh = Variable.expand (request.merged (request.tables tree)) :=
    answer_empty tree request
  obtain ⟨-, key, configured⟩ := id origin
  have named : source.workflow = request.workflow := congrArg CacheKey.workflow key
  refine ⟨origin, usedExpanded, freshExpanded, seesAlike_of_root configured, ?_, ?_⟩
  · intro alike
    rw [usedExpanded, freshExpanded, (merged_eq_iff named configured).2 alike]
  · intro result resolved sourcePlain requestPlain
    rw [usedExpanded, freshExpanded]
    exact expand_merged_eq_iff named configured (freshExpanded.symm.trans resolved) sourcePlain
      requestPlain

/-- This tree has a project with an index. -/
def indexedTree : FileTree where
  entries := [(["p"], .directory), (["p", "_knowledge"], .directory),
    (["p", "_knowledge", "index.csv"], .file ⟨#[]⟩)]
  workingDirectory := []

/-- The indexed project is asked for by a root as written. -/
def indexedRequest (root : String) : Request :=
  .named (.new ⟨root⟩ "2024-01-01") "atdd"

theorem faithful_indexed (first second : String) :
    Faithful ((indexedRequest first).context.configuration ::
      configurationsOf [.ask (indexedRequest second)]) := by
  intro one oneMember other otherMember _
  simp only [configurationsOf, List.filterMap_cons, List.filterMap_nil, List.mem_cons,
    List.not_mem_nil, or_false] at oneMember otherMember
  rcases oneMember with rfl | rfl <;> rcases otherMember with rfl | rfl <;> rfl

theorem source_indexed :
    (indexedRequest "/p").source indexedTree [.ask (indexedRequest "/p/.")] =
      indexedRequest "/p/." := by
  have key : (indexedRequest "/p").key indexedTree = (indexedRequest "/p/.").key indexedTree := by
    decide
  have fingerprint : (indexedRequest "/p/.").fingerprint = (indexedRequest "/p").fingerprint := rfl
  simp [Request.source, Request.sourceIn, Keeper.after, Keeper.next, key, fingerprint,
    Option.filter]

theorem showsPlain_indexed (root : String) (spelled : root = "/p" ∨ root = "/p/.") :
    ShowsPlain indexedTree (indexedRequest root) := by
  intro name rooted value given
  have shown : ∀ name ∈ rootedNames,
      ((projectProvider indexedTree (indexedRequest root).context name).all
        fun value => !value.isUnresolved) = true := by
    rcases spelled with rfl | rfl <;> decide
  simpa [given] using shown name rooted

theorem not_seesAlike_indexed :
    ¬ SeesAlike indexedTree (indexedRequest "/p/.") (indexedRequest "/p") := by
  intro alike
  have index := alike.project "knowledgeIndex" (by decide) (by decide)
  revert index
  decide

theorem resolved_indexed :
    ∃ result, ((indexedRequest "/p").answer indexedTree .empty).1 = .ok result := by
  have shown : (Variable.expand ((indexedRequest "/p").merged
      ((indexedRequest "/p").tables indexedTree))).toOption.map
      (fun result => result.text? "project-root") = some (some "/p") := by
    decide +kernel
  obtain ⟨result, resolved, -⟩ := Outcome.exists_of_map_toOption shown
  exact ⟨result, (answer_empty indexedTree (indexedRequest "/p")).trans resolved⟩

/-- After a request for `/p/.` the cache answers one for `/p` like a new cache would if and only if
both spellings show the project alike. -/
theorem used_cache_answers_respelled_root :
    Faithful ((indexedRequest "/p").context.configuration ::
      configurationsOf [.ask (indexedRequest "/p/.")]) ∧
    ∃ result, ((indexedRequest "/p").answer indexedTree .empty).1 = .ok result ∧
    (((indexedRequest "/p").answer indexedTree
        (Cache.after indexedTree [.ask (indexedRequest "/p/.")])).1 =
      ((indexedRequest "/p").answer indexedTree .empty).1 ↔
    SeesAlike indexedTree (indexedRequest "/p/.") (indexedRequest "/p")) := by
  obtain ⟨result, resolved⟩ := resolved_indexed
  have exactly := used_cache_answers_like_new_iff_alike indexedTree
    [.ask (indexedRequest "/p/.")] (indexedRequest "/p") (faithful_indexed "/p" "/p/.")
  rw [source_indexed] at exactly
  exact ⟨faithful_indexed "/p" "/p/.", result, resolved,
    exactly.2.2.2.2.2 result resolved (showsPlain_indexed _ (.inr rfl))
      (showsPlain_indexed _ (.inl rfl))⟩

/-- A used cache does not always answer like a new one: it may show the index under the root of
another request. -/
theorem used_cache_answer_differs :
    ¬ ∀ (tree : FileTree) (calls : List Call) (request : Request),
      Faithful (request.context.configuration :: configurationsOf calls) →
        (request.answer tree (Cache.after tree calls)).1 = (request.answer tree .empty).1 := by
  intro transparent
  obtain ⟨result, resolved⟩ := resolved_indexed
  rw [answer_empty] at resolved
  have equal := transparent indexedTree [.ask (indexedRequest "/p/.")] (indexedRequest "/p")
    (faithful_indexed "/p" "/p/.")
  rw [answer_after, source_indexed, answer_empty] at equal
  have named : (indexedRequest "/p/.").workflow = (indexedRequest "/p").workflow := rfl
  have configured : (indexedRequest "/p/.").context.configuration =
      (indexedRequest "/p").context.configuration := rfl
  have alike := (expand_merged_eq_iff named configured resolved (showsPlain_indexed _ (.inr rfl))
    (showsPlain_indexed _ (.inl rfl))).1 equal
  exact not_seesAlike_indexed alike

end WorkflowBundle.Cascade
