/-
This file follows the tables that a cache keeps to the requests they were computed for.
-/

import WorkflowBundle.Proofs.Cascade.Precedence

namespace WorkflowBundle.Cascade

open Variable (Table)

/-- A request is about a workflow that is known by its name, or about a parsed one. -/
inductive Request where
  | named (context : Context) (workflow : String)
  | parsed (context : Context) (workflow : Workflow)

namespace Request

def context : Request → Context
  | .named context _ | .parsed context _ => context

def workflow : Request → String
  | .named _ workflow => workflow
  | .parsed _ workflow => workflow.name

/-- The variables that come with the workflow of a request. -/
def own : Request → Table
  | .named .. => ∅
  | .parsed _ workflow => .ofList (workflowSource workflow)

/-- A cache answers a request and may have changed then. -/
def answer (tree : FileTree) (cache : Cache) : Request → Except Violation Table × Cache
  | .named context workflow => cache.resolveNamed tree context workflow
  | .parsed context workflow => cache.resolveWorkflow tree context workflow

def key (tree : FileTree) (request : Request) : CacheKey :=
  Cache.keyOf tree request.context request.workflow

def fingerprint (request : Request) : String :=
  request.context.configuration.fingerprint

def tables (tree : FileTree) (request : Request) : ProjectTables :=
  tablesOf tree request.context request.workflow

def entry (tree : FileTree) (request : Request) : CacheEntry :=
  ⟨request.fingerprint, request.tables tree⟩

/-- A request takes its tables from a kept request of the same fingerprint, or from itself. -/
def sourceIn (kept : Option Request) (request : Request) : Request :=
  (kept.filter fun old => old.fingerprint == request.fingerprint).getD request

/-- The merged table of a request has tables that may come from another request. -/
def merged (tables : ProjectTables) (request : Request) : Table :=
  merge (layers tables request.context request.workflow request.own)

theorem answer_eq (tree : FileTree) (cache : Cache) (request : Request) :
    request.answer tree cache =
      cache.resolveWith tree request.context request.workflow request.own := by
  cases request <;> rfl

end Request

/-- A cache is asked, or it is cleared. -/
inductive Call where
  | ask (request : Request)
  | clear

/-- A call leaves a cache behind. -/
def Call.perform (tree : FileTree) (cache : Cache) : Call → Cache
  | .ask request => (request.answer tree cache).2
  | .clear => .empty

/-- A new cache is used by one call after the other. -/
def Cache.after (tree : FileTree) (calls : List Call) : Cache :=
  calls.foldl (Call.perform tree) .empty

def configurationsOf (calls : List Call) : List Configuration :=
  calls.filterMap fun
    | .ask request => some request.context.configuration
    | .clear => none

/-- Fingerprints are faithful to some configurations when no two of them share one. -/
def Faithful (configurations : List Configuration) : Prop :=
  ∀ first ∈ configurations, ∀ second ∈ configurations,
    first.fingerprint = second.fingerprint → first = second

/-- A keeper tells which request the kept tables of a key come from. -/
abbrev Keeper := CacheKey → Option Request

/-- A request becomes the source of its key unless there is one with the same fingerprint, and
clearing forgets all sources. -/
def Keeper.next (tree : FileTree) (keeper : Keeper) : Call → Keeper
  | .ask request => fun key =>
    if key = request.key tree then some (request.sourceIn (keeper key)) else keeper key
  | .clear => fun _ => none

/-- After some calls the sources are those that the calls left. -/
def Keeper.after (tree : FileTree) (calls : List Call) : Keeper :=
  calls.foldl (Keeper.next tree) fun _ => none

/-- The source of a request after some calls. -/
def Request.source (tree : FileTree) (calls : List Call) (request : Request) : Request :=
  request.sourceIn (Keeper.after tree calls (request.key tree))

/-- A cache matches a keeper when it holds the entries of the kept requests. -/
def Matches (tree : FileTree) (keeper : Keeper) (cache : Cache) : Prop :=
  ∀ key, cache.entries.lookup key = (keeper key).map (Request.entry tree)

theorem lookup_filter_of_ne {entries : List (CacheKey × CacheEntry)} {key other : CacheKey}
    (different : other ≠ key) :
    (entries.filter fun old => old.1 != key).lookup other = entries.lookup other := by
  induction entries with
  | nil => rfl
  | cons first rest inductionHypothesis =>
      obtain ⟨firstKey, entry⟩ := first
      by_cases removed : firstKey = key
      · have skipped : (other == firstKey) = false :=
          beq_eq_false_iff_ne.2 (removed ▸ different)
        rw [List.filter_cons_of_neg (by simp [removed]), inductionHypothesis, List.lookup_cons,
          skipped]
      · rw [List.filter_cons_of_pos (by simpa using removed), List.lookup_cons, List.lookup_cons,
          inductionHypothesis]

/-- An entry that is kept replaces the one of its key. -/
theorem Cache.lookup_keep (cache : Cache) (key other : CacheKey) (entry : CacheEntry) :
    (cache.keep key entry).entries.lookup other =
      if other = key then some entry else cache.entries.lookup other := by
  rw [keep, List.lookup_cons]
  by_cases same : other = key
  · simp [same]
  · rw [beq_eq_false_iff_ne.2 same, if_neg same]
    exact lookup_filter_of_ne same

/-- Tables that are found are fetched as they are, and the entries stay. -/
theorem Cache.fetch_of_found {tree : FileTree} {cache : Cache} {request : Request}
    {tables : ProjectTables}
    (found : cache.find? (request.key tree) request.fingerprint = some tables) :
    cache.fetch tree request.context request.workflow =
      (tables, { cache with hits := cache.hits + 1 }) := by
  rw [Request.key, Request.fingerprint] at found
  simp only [fetch, found]

/-- Tables that are not found are computed and kept. -/
theorem Cache.fetch_of_missing {tree : FileTree} {cache : Cache} {request : Request}
    (missing : cache.find? (request.key tree) request.fingerprint = none) :
    cache.fetch tree request.context request.workflow =
      (request.tables tree,
        { cache.keep (request.key tree) (request.entry tree) with
          misses := cache.misses + 1 }) := by
  rw [Request.key, Request.fingerprint] at missing
  simp only [fetch, missing]
  rfl

/-- A cache that matches a keeper finds the tables of the kept request if the fingerprint fits. -/
theorem Matches.find? {tree : FileTree} {keeper : Keeper} {cache : Cache}
    (matching : Matches tree keeper cache) (key : CacheKey) (fingerprint : String) :
    cache.find? key fingerprint =
      ((keeper key).filter fun old => old.fingerprint == fingerprint).map
        (Request.tables tree) := by
  rw [Cache.find?, matching]
  rcases keeper key with _ | old
  · rfl
  · cases same : old.fingerprint == fingerprint <;> simp [Request.entry, Option.filter, same]

/-- A fetch yields the tables of the source. -/
theorem Matches.fetch_fst {tree : FileTree} {keeper : Keeper} {cache : Cache}
    (matching : Matches tree keeper cache) (request : Request) :
    (cache.fetch tree request.context request.workflow).1 =
      (request.sourceIn (keeper (request.key tree))).tables tree := by
  have found := matching.find? (request.key tree) request.fingerprint
  rw [Request.sourceIn]
  rcases kept : (keeper (request.key tree)).filter fun old =>
    old.fingerprint == request.fingerprint with _ | old
  · rw [kept] at found
    rw [Cache.fetch_of_missing found, kept]
    rfl
  · rw [kept] at found
    rw [Cache.fetch_of_found found, kept]
    rfl

/-- A call takes a cache that matches a keeper to one that matches the next keeper. -/
theorem Matches.perform {tree : FileTree} {keeper : Keeper} {cache : Cache}
    (matching : Matches tree keeper cache) (call : Call) :
    Matches tree (keeper.next tree call) (call.perform tree cache) := by
  cases call with
  | clear =>
      intro key
      rfl
  | ask request =>
      intro key
      have found := matching.find? (request.key tree) request.fingerprint
      simp only [Call.perform, Request.answer_eq, Cache.resolveWith, Keeper.next, Request.sourceIn]
      rcases kept : (keeper (request.key tree)).filter fun old =>
        old.fingerprint == request.fingerprint with _ | old
      · rw [kept] at found
        rw [Cache.fetch_of_missing found, Cache.lookup_keep]
        split
        · rename_i same
          rw [same, kept]
          rfl
        · exact matching key
      · rw [kept] at found
        rw [Cache.fetch_of_found found]
        split
        · rename_i same
          rw [same, kept, matching, (Option.filter_eq_some_iff.1 kept).1]
          rfl
        · exact matching key

/-- A cache that was used by some calls matches the sources that the calls left. -/
theorem matches_after (tree : FileTree) (calls : List Call) :
    Matches tree (Keeper.after tree calls) (Cache.after tree calls) := by
  have run (keeper : Keeper) (cache : Cache) (matching : Matches tree keeper cache) :
      Matches tree (calls.foldl (Keeper.next tree) keeper)
        (calls.foldl (Call.perform tree) cache) := by
    induction calls generalizing keeper cache with
    | nil => exact matching
    | cons call rest inductionHypothesis => exact inductionHypothesis _ _ (matching.perform call)
  exact run _ _ fun _ => rfl

/-- A request takes its tables from itself or from a kept request of its fingerprint. -/
theorem Request.sourceIn_cases (kept : Option Request) (request : Request) :
    request.sourceIn kept = request ∨
      kept = some (request.sourceIn kept) ∧
        (request.sourceIn kept).fingerprint = request.fingerprint := by
  rw [Request.sourceIn]
  rcases fitting : kept.filter fun old => old.fingerprint == request.fingerprint with _ | old
  · left
    rw [fitting, Option.getD_none]
  · obtain ⟨found, same⟩ := Option.filter_eq_some_iff.1 fitting
    right
    rw [fitting, Option.getD_some]
    exact ⟨found, beq_iff_eq.1 same⟩

/-- A keeper keeps requests that were asked, each under its own key. -/
def Keeper.Records (tree : FileTree) (keeper : Keeper) (calls : List Call) : Prop :=
  ∀ key source, keeper key = some source → .ask source ∈ calls ∧ source.key tree = key

theorem Keeper.Records.next {tree : FileTree} {keeper : Keeper} {calls : List Call}
    (recorded : keeper.Records tree calls) (call : Call) :
    (keeper.next tree call).Records tree (calls ++ [call]) := by
  intro key source kept
  cases call with
  | clear => nomatch kept
  | ask request =>
      have earlier (kept : keeper key = some source) :
          .ask source ∈ calls ++ [.ask request] ∧ source.key tree = key :=
        ⟨List.mem_append_left _ (recorded key source kept).1, (recorded key source kept).2⟩
      simp only [Keeper.next] at kept
      split at kept
      · rename_i same
        obtain rfl := Option.some.inj kept
        rcases Request.sourceIn_cases (keeper key) request with own | ⟨found, -⟩
        · rw [own]
          exact ⟨by simp, same.symm⟩
        · exact earlier found
      · exact earlier kept

/-- After some calls a kept request has the key it is kept for, and it was asked. -/
theorem Keeper.records_after (tree : FileTree) (calls : List Call) :
    (Keeper.after tree calls).Records tree calls := by
  have run (past : List Call) (keeper : Keeper) (recorded : keeper.Records tree past) :
      Keeper.Records tree (calls.foldl (Keeper.next tree) keeper) (past ++ calls) := by
    induction calls generalizing past keeper with
    | nil => simpa using recorded
    | cons call rest inductionHypothesis =>
        rw [List.append_cons]
        exact inductionHypothesis _ _ (recorded.next call)
  exact run [] _ fun _ _ kept => nomatch kept

theorem answer_empty (tree : FileTree) (request : Request) :
    (request.answer tree .empty).1 = Variable.expand (request.merged (request.tables tree)) := by
  rw [Request.answer_eq]
  exact Cache.resolveWith_empty tree request.context request.workflow request.own

theorem mem_configurationsOf {calls : List Call} {request : Request}
    (asked : .ask request ∈ calls) : request.context.configuration ∈ configurationsOf calls :=
  List.mem_filterMap.2 ⟨_, asked, rfl⟩

/-- The source of a request is the request itself or was asked under the same key, and it has the
same configuration if fingerprints are faithful. -/
theorem source_of_faithful (tree : FileTree) {calls : List Call} {request : Request}
    (faithful : Faithful (request.context.configuration :: configurationsOf calls)) :
    (request.source tree calls = request ∨ .ask (request.source tree calls) ∈ calls) ∧
      (request.source tree calls).key tree = request.key tree ∧
      (request.source tree calls).context.configuration = request.context.configuration := by
  rcases Request.sourceIn_cases (Keeper.after tree calls (request.key tree)) request with
    own | ⟨kept, same⟩
  · rw [Request.source, own]
    exact ⟨.inl rfl, rfl, rfl⟩
  · obtain ⟨asked, key⟩ := Keeper.records_after tree calls _ _ kept
    exact ⟨.inr asked, key,
      faithful _ (List.mem_cons_of_mem _ (mem_configurationsOf asked)) _ List.mem_cons_self same⟩

/-- A used cache answers a request with the tables of the source. -/
theorem answer_after (tree : FileTree) (calls : List Call) (request : Request) :
    (request.answer tree (Cache.after tree calls)).1 =
      Variable.expand (request.merged ((request.source tree calls).tables tree)) := by
  rw [Request.answer_eq, Request.source, ← (matches_after tree calls).fetch_fst request]
  rfl

end WorkflowBundle.Cascade
