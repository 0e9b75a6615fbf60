/-
This file counts what a cache was asked since it was cleared: how many requests, under how many
keys, and how often kept tables were found.
-/

import Mathlib.Data.Finset.Card
import WorkflowBundle.Proofs.Cascade.Provenance

namespace WorkflowBundle.Cascade

/-- A request is recorded before the earlier ones, and clearing forgets all requests. -/
def Call.record (requests : List Request) : Call → List Request
  | .ask request => request :: requests
  | .clear => []

/-- The requests since the last clearing, the latest first. -/
def requestsSinceClear (calls : List Call) : List Request :=
  calls.foldl Call.record []

section

variable (tree : FileTree)

def latest? (requests : List Request) (key : CacheKey) : Option Request :=
  requests.find? fun request => request.key tree == key

/-- A request repeats when the latest earlier one with its key has its fingerprint. -/
def Request.Repeats (earlier : List Request) (request : Request) : Prop :=
  ∃ latest ∈ latest? tree earlier (request.key tree), latest.fingerprint = request.fingerprint

instance (earlier : List Request) (request : Request) :
    Decidable (request.Repeats tree earlier) :=
  inferInstanceAs (Decidable (∃ latest ∈ latest? tree earlier (request.key tree), _))

/-- Some requests, the latest first, have this many among them that repeat. -/
def countRepeats : List Request → Nat
  | [] => 0
  | request :: earlier =>
    countRepeats earlier + if request.Repeats tree earlier then 1 else 0

/-- A cache accounts for some requests when it counts those that repeat as hits and the others as
misses, and has one entry for each of their keys, with the fingerprint of the latest request. -/
structure Accounts (requests : List Request) (cache : Cache) : Prop where
  hits : cache.hits = countRepeats tree requests
  total : cache.hits + cache.misses = requests.length
  distinct : (cache.entries.map Prod.fst).Nodup
  fingerprints : ∀ key, (cache.entries.lookup key).map CacheEntry.fingerprint =
    (latest? tree requests key).map Request.fingerprint

end

variable {tree : FileTree} {requests : List Request} {cache : Cache} {request : Request}

theorem latest?_cons (request : Request) (requests : List Request) (key : CacheKey) :
    latest? tree (request :: requests) key =
      if key = request.key tree then some request else latest? tree requests key := by
  rw [latest?, List.find?_cons]
  by_cases same : key = request.key tree
  · simp [same]
  · rw [beq_eq_false_iff_ne.2 (Ne.symm same), if_neg same]
    rfl

theorem isSome_latest?_iff (key : CacheKey) :
    (latest? tree requests key).isSome = true ↔ key ∈ requests.map (Request.key tree) := by
  rw [latest?, List.find?_isSome, List.mem_map]
  simp only [beq_iff_eq]

/-- Tables are found exactly for the requests that repeat. -/
theorem Accounts.exists_found_iff (accounts : Accounts tree requests cache) :
    (∃ tables, cache.find? (request.key tree) request.fingerprint = some tables) ↔
      request.Repeats tree requests := by
  have kept := accounts.fingerprints (request.key tree)
  constructor
  · rintro ⟨tables, found⟩
    obtain ⟨entry, fitting, -⟩ := Option.map_eq_some_iff.1 found
    obtain ⟨there, same⟩ := Option.filter_eq_some_iff.1 fitting
    rw [there, Option.map_some] at kept
    obtain ⟨latest, asked, print⟩ := Option.map_eq_some_iff.1 kept.symm
    exact ⟨latest, asked, print.trans (beq_iff_eq.1 same)⟩
  · rintro ⟨latest, asked, same⟩
    rw [asked, Option.map_some] at kept
    obtain ⟨entry, there, print⟩ := Option.map_eq_some_iff.1 kept
    have fitting : (entry.fingerprint == request.fingerprint) = true :=
      beq_iff_eq.2 (print.trans same)
    refine ⟨entry.tables, ?_⟩
    rw [Cache.find?, there, Option.filter_some, if_pos fitting, Option.map_some]

/-- A request that repeats is a hit and leaves the entries as they are. -/
theorem Accounts.answer_of_repeats (accounts : Accounts tree requests cache)
    (repeats : request.Repeats tree requests) :
    (request.answer tree cache).2 = { cache with hits := cache.hits + 1 } := by
  obtain ⟨tables, found⟩ := accounts.exists_found_iff.2 repeats
  rw [Request.answer_eq, Cache.resolveWith, Cache.fetch_of_found found]

/-- A request that does not repeat is a miss and replaces the entry of its key. -/
theorem Accounts.answer_of_fresh (accounts : Accounts tree requests cache)
    (fresh : ¬ request.Repeats tree requests) :
    (request.answer tree cache).2 =
      { cache.keep (request.key tree) (request.entry tree) with misses := cache.misses + 1 } := by
  have missing : cache.find? (request.key tree) request.fingerprint = none := by
    rw [← accounts.exists_found_iff, ← Option.isSome_iff_exists] at fresh
    simpa using fresh
  rw [Request.answer_eq, Cache.resolveWith, Cache.fetch_of_missing missing]

theorem nodup_keys_keep (distinct : (cache.entries.map Prod.fst).Nodup) (key : CacheKey)
    (entry : CacheEntry) : ((cache.keep key entry).entries.map Prod.fst).Nodup := by
  rw [Cache.keep, List.map_cons, List.nodup_cons]
  constructor
  · simp
  · exact distinct.sublist (List.filter_sublist.map Prod.fst)

/-- A cache that accounts for some requests accounts for one more after it answered it. -/
theorem Accounts.answer (accounts : Accounts tree requests cache) (request : Request) :
    Accounts tree (request :: requests) (request.answer tree cache).2 := by
  by_cases repeats : request.Repeats tree requests
  · rw [accounts.answer_of_repeats repeats]
    constructor
    · rw [countRepeats, if_pos repeats, accounts.hits]
    · rw [List.length_cons, ← accounts.total]
      exact Nat.add_right_comm _ _ _
    · exact accounts.distinct
    · intro key
      rw [accounts.fingerprints, latest?_cons]
      split
      · rename_i same
        obtain ⟨latest, asked, print⟩ := repeats
        rw [same, asked, Option.map_some, Option.map_some, print]
      · rfl
  · rw [accounts.answer_of_fresh repeats]
    constructor
    · rw [countRepeats, if_neg repeats]
      exact accounts.hits
    · rw [List.length_cons, ← accounts.total]
      exact (Nat.add_assoc _ _ _).symm
    · exact nodup_keys_keep accounts.distinct _ _
    · intro key
      rw [Cache.lookup_keep, latest?_cons]
      split
      · rfl
      · exact accounts.fingerprints key

/-- A call takes a cache that accounts for some requests to one that accounts for the recorded
ones. -/
theorem Accounts.perform (accounts : Accounts tree requests cache) (call : Call) :
    Accounts tree (call.record requests) (call.perform tree cache) := by
  cases call with
  | ask request => exact accounts.answer request
  | clear => exact ⟨rfl, rfl, List.nodup_nil, fun _ => rfl⟩

/-- A used cache accounts for the requests since it was cleared. -/
theorem accounts_after (tree : FileTree) (calls : List Call) :
    Accounts tree (requestsSinceClear calls) (Cache.after tree calls) := by
  have run (requests : List Request) (cache : Cache) (accounts : Accounts tree requests cache) :
      Accounts tree (calls.foldl Call.record requests)
        (calls.foldl (Call.perform tree) cache) := by
    induction calls generalizing requests cache with
    | nil => exact accounts
    | cons call rest inductionHypothesis => exact inductionHypothesis _ _ (accounts.perform call)
  exact run _ _ ⟨rfl, rfl, List.nodup_nil, fun _ => rfl⟩

theorem Accounts.length_entries (accounts : Accounts tree requests cache) :
    cache.entries.length = (requests.map (Request.key tree)).toFinset.card := by
  have same : (cache.entries.map Prod.fst).toFinset =
      (requests.map (Request.key tree)).toFinset := by
    ext key
    have found := congrArg Option.isSome (accounts.fingerprints key)
    rw [Option.isSome_map, Option.isSome_map] at found
    rw [List.mem_toFinset, List.mem_toFinset, ← isSome_latest?_iff, ← found,
      List.lookup_isSome_iff, List.mem_map]
    exact exists_congr fun _ => and_congr_right fun _ => eq_comm.trans beq_iff_eq.symm
  rw [← same, List.toFinset_card_of_nodup accounts.distinct, List.length_map]

/-- After any calls a cache has counted each request since it was cleared once, has one entry for
each of their keys, and counted those as hits that repeat. A further request is a hit if the latest
one with its key has its fingerprint, and a miss otherwise, whether or not it can be resolved. The
key of a request has the canonical root, or the root as given if it does not exist, and the name of
the workflow. -/
theorem cache_counts_requests_since_clear (tree : FileTree) (calls : List Call) :
    let cache := Cache.after tree calls
    let requests := requestsSinceClear calls
    cache.hits + cache.misses = requests.length ∧
    cache.entries.length = (requests.map (Request.key tree)).toFinset.card ∧
    cache.hits = countRepeats tree requests ∧
    ∀ request : Request,
      let next := (request.answer tree cache).2
      next.hits = cache.hits + (if request.Repeats tree requests then 1 else 0) ∧
      next.misses = cache.misses + (if request.Repeats tree requests then 0 else 1) ∧
      request.key tree =
        ⟨(tree.canonicalOrSelf request.context.root).components, request.workflow⟩ := by
  intro cache requests
  have accounts : Accounts tree requests cache := accounts_after tree calls
  refine ⟨accounts.total, accounts.length_entries, accounts.hits, ?_⟩
  intro request next
  rw [← and_assoc]
  refine ⟨?_, rfl⟩
  by_cases repeats : request.Repeats tree requests
  · have counted : next = { cache with hits := cache.hits + 1 } :=
      accounts.answer_of_repeats repeats
    simp [counted, repeats]
  · have counted : next = _ := accounts.answer_of_fresh repeats
    simp [counted, repeats, Cache.keep]

end WorkflowBundle.Cascade
