/-
This file compares the chain of a first step with the walk along the references between steps.
-/

import Mathlib.Data.List.Chain
import WorkflowBundle.Proofs.Outcome
import WorkflowBundle.Step.Chain

namespace WorkflowBundle.Step

/-- The text of a step may refer to the next one. -/
def referenceIn (text : String) : Option String :=
  setting? (FrontMatter.settings text) "nextStepFile"

/-- A text is parsed as a step at a path. -/
def ofText (path : Path) (text : String) : Step where
  path
  name := setting? (FrontMatter.settings text) "name"
  description := setting? (FrontMatter.settings text) "description"
  nextStep := referenceIn text
  knowledgeIndex := setting? (FrontMatter.settings text) "knowledgeIndex"
  body := FrontMatter.body text

/-- A path is parsed as a step when it can be read and no reference in its text escapes. -/
def Parses (tree : FileTree) (path : Path) (step : Step) : Prop :=
  ∃ text, tree.read path = .ok text ∧
    (∀ reference, referenceIn text = some reference → Escape.ofReference? reference = none) ∧
    step = ofText path text

/-- The target of a path is the canonical path that the reference in its text leads to from the
directory of the path. There is none without a reference, and none where the reference leads
nowhere. -/
def target? (tree : FileTree) (path : Path) : Option Path := do
  let text ← (tree.read path).toOption
  let reference ← referenceIn text
  (tree.canonical ((path.parent?.getD ⟨"."⟩).join reference)).toOption

/-- A walk starts at the canonical path of the first step and goes on from target to target. -/
structure IsWalk (tree : FileTree) (first : Path) (walk : List Path) : Prop where
  starts : ∃ start, tree.canonical first = .ok start ∧ walk.head? = some start
  linked : walk.IsChain fun path next => target? tree path = some next

/-- A path is rejected when it was passed before, when as many paths as a chain may have were
passed, when it cannot be read, or when the reference in its text escapes. -/
inductive Rejected (tree : FileTree) (passed : List Path) (path : Path) :
    ViolationKind → Violation → Prop where
  | repeated (again : path ∈ passed) (within : passed.length ≤ chainLimit) :
      Rejected tree passed path .circularReference (.repeatedStep path passed.length)
  | long (fresh : path ∉ passed) (full : passed.length = chainLimit) :
      Rejected tree passed path .depthExceeded (.longChain path chainLimit)
  | unreadable {fault : FileTree.Fault} (fresh : path ∉ passed) (room : passed.length < chainLimit)
      (unread : tree.read path = .error fault) :
      Rejected tree passed path .missingFile (.unreadableStep path fault)
  | escaping {text reference : String} {escape : Escape} (fresh : path ∉ passed)
      (room : passed.length < chainLimit) (read : tree.read path = .ok text)
      (referred : referenceIn text = some reference)
      (escapes : Escape.ofReference? reference = some escape) :
      Rejected tree passed path .pathTraversal (.escapingStep escape path)

/-- The first violation of a walk is that the first step is missing, or that a path is rejected
after others that were different and could be parsed. -/
inductive FirstViolation (tree : FileTree) (first : Path) : ViolationKind → Violation → Prop where
  | missing {fault : FileTree.Fault} (lost : tree.canonical first = .error fault) :
      FirstViolation tree first .missingFile (.missingFirstStep first)
  | rejected {passed : List Path} {path : Path} {kind : ViolationKind} {violation : Violation}
      (walk : IsWalk tree first (passed ++ [path])) (distinct : passed.Nodup)
      (parsed : ∀ earlier ∈ passed, ∃ step, Parses tree earlier step)
      (broken : Rejected tree passed path kind violation) :
      FirstViolation tree first kind violation

theorem checkReference_eq_ok_iff {path : Path} {reference : Option String} {result : Unit} :
    checkReference path reference = .ok result ↔
      ∀ text, reference = some text → Escape.ofReference? text = none := by
  rw [checkReference]
  cases reference with
  | none => simp
  | some text => cases escaped : Escape.ofReference? text <;> simp [escaped]

/-- A reference that escapes is a violation. -/
theorem checkReference_eq_error_iff {path : Path} {reference : Option String}
    {violation : Violation} :
    checkReference path reference = .error violation ↔
      ∃ text escape, reference = some text ∧ Escape.ofReference? text = some escape ∧
        violation = .escapingStep escape path := by
  rw [checkReference]
  cases reference with
  | none => simp
  | some text => cases escaped : Escape.ofReference? text <;> simp [escaped, eq_comm]

/-- Loading a step reads its text, checks the reference in it, and parses it. -/
theorem load_eq (tree : FileTree) (path : Path) :
    load tree path = (tree.read path).mapError (.unreadableStep path) >>= fun text =>
      checkReference path (referenceIn text) >>= fun _ => pure (ofText path text) := rfl

theorem load_eq_ok_iff {tree : FileTree} {path : Path} {step : Step} :
    load tree path = .ok step ↔ Parses tree path step := by
  simp only [load_eq, Outcome.bind_eq_ok_iff, Outcome.mapError_eq_ok_iff, Outcome.pure_eq_ok_iff,
    checkReference_eq_ok_iff, exists_const, Parses, eq_comm (a := step)]

/-- A step is not loaded when its path cannot be read or the reference in its text escapes. -/
theorem load_eq_error_iff {tree : FileTree} {path : Path} {violation : Violation} :
    load tree path = .error violation ↔
      (∃ fault, tree.read path = .error fault ∧ .unreadableStep path fault = violation) ∨
      ∃ text, tree.read path = .ok text ∧ ∃ reference escape, referenceIn text = some reference ∧
        Escape.ofReference? reference = some escape ∧ violation = .escapingStep escape path := by
  simp only [load_eq, Outcome.bind_eq_error_iff, Outcome.mapError_eq_ok_iff,
    Outcome.mapError_eq_error_iff, checkReference_eq_error_iff]
  simp [pure, Except.pure]

/-- The next path of a parsed step is the target of its path. -/
theorem nextPath?_of_parses {tree : FileTree} {path : Path} {step : Step}
    (parsed : Parses tree path step) : step.nextPath? tree = target? tree path := by
  obtain ⟨text, read, -, rfl⟩ := parsed
  simp [nextPath?, target?, ofText, read, Except.toOption]

/-- A chain does not go on from a path that was passed. -/
theorem chainFrom_of_passed (tree : FileTree) (left : Nat) {passed : List Path} {path : Path}
    (again : path ∈ passed) :
    chainFrom tree left passed path = .error (.repeatedStep path passed.length) := by
  cases left <;> rw [chainFrom, if_pos (List.contains_iff_mem.2 again)]

theorem chainFrom_zero (tree : FileTree) {passed : List Path} {path : Path}
    (fresh : path ∉ passed) :
    chainFrom tree 0 passed path = .error (.longChain path chainLimit) := by
  rw [chainFrom, if_neg (mt List.contains_iff_mem.1 fresh)]

/-- A chain goes on from a fresh path with the step that is loaded from it. -/
theorem chainFrom_succ (tree : FileTree) (left : Nat) {passed : List Path} {path : Path}
    (fresh : path ∉ passed) :
    chainFrom tree (left + 1) passed path = load tree path >>= fun step =>
      match step.nextPath? tree with
      | none => pure [step]
      | some next =>
        chainFrom tree left (passed ++ [path]) next >>= fun rest => pure (step :: rest) :=
  (chainFrom.eq_def tree (left + 1) passed path).trans
    (if_neg (mt List.contains_iff_mem.1 fresh))

/-- A chain goes on to its end when its first step is fresh and parsed and has no target, or when a
chain goes on to its end from the target. -/
theorem chainFrom_succ_eq_ok_iff {tree : FileTree} {left : Nat} {passed : List Path} {path : Path}
    {steps : List Step} :
    chainFrom tree (left + 1) passed path = .ok steps ↔
      path ∉ passed ∧ ∃ step, Parses tree path step ∧
        (target? tree path = none ∧ steps = [step] ∨
          ∃ next rest, target? tree path = some next ∧
            chainFrom tree left (passed ++ [path]) next = .ok rest ∧ steps = step :: rest) := by
  by_cases again : path ∈ passed
  · simp [chainFrom_of_passed tree _ again, again]
  · rw [chainFrom_succ tree left again, Outcome.bind_eq_ok_iff]
    simp only [again, not_false_eq_true, true_and, load_eq_ok_iff]
    refine exists_congr fun step => and_congr_right fun parsed => ?_
    rw [nextPath?_of_parses parsed]
    cases target? tree path with
    | none => simp [eq_comm (a := steps)]
    | some next => simp [-bind_pure_comp, eq_comm (a := steps)]

/-- A chain breaks off at its first step, or goes on to the target of that step and breaks off
later. -/
theorem chainFrom_succ_eq_error_iff {tree : FileTree} {left : Nat} {passed : List Path}
    {path : Path} (fresh : path ∉ passed) {violation : Violation} :
    chainFrom tree (left + 1) passed path = .error violation ↔
      load tree path = .error violation ∨
        ∃ step next, Parses tree path step ∧ target? tree path = some next ∧
          chainFrom tree left (passed ++ [path]) next = .error violation := by
  rw [chainFrom_succ tree left fresh, Outcome.bind_eq_error_iff]
  refine or_congr_right (exists_congr fun step => ?_)
  rw [load_eq_ok_iff, exists_and_left]
  refine and_congr_right fun parsed => ?_
  rw [nextPath?_of_parses parsed]
  cases target? tree path with
  | none => simp [pure, Except.pure]
  | some next => simp [Outcome.bind_eq_error_iff, pure, Except.pure]

/-- A chain that goes on to its end has the steps of the walk from its first path. All of the paths
are fresh and different, and they are no more than the steps that are left. -/
theorem chainFrom_eq_ok_iff {tree : FileTree} {left : Nat} {passed : List Path} {path : Path}
    {steps : List Step} :
    chainFrom tree left passed path = .ok steps ↔
      ∃ others, (path :: others).IsChain (fun path next => target? tree path = some next) ∧
        (∀ last ∈ (path :: others).getLast?, target? tree last = none) ∧
        (path :: others).Nodup ∧ (∀ visited ∈ path :: others, visited ∉ passed) ∧
        (path :: others).length ≤ left ∧ List.Forall₂ (Parses tree) (path :: others) steps := by
  induction left generalizing passed path steps with
  | zero =>
      by_cases again : path ∈ passed
      · simp [chainFrom_of_passed tree 0 again]
      · simp [chainFrom_zero tree again]
  | succ left inductionHypothesis =>
      rw [chainFrom_succ_eq_ok_iff]
      constructor
      · rintro ⟨fresh, step, parsed, ⟨ends, rfl⟩ | ⟨next, rest, linked, done, rfl⟩⟩
        · exact ⟨[], by simp, by simpa using ends, by simp, by simpa using fresh, by simp,
            .cons parsed .nil⟩
        · obtain ⟨others, chained, ends, distinct, unvisited, short, each⟩ :=
            inductionHypothesis.1 done
          have new : path ∉ next :: others := fun member => by simpa using unvisited path member
          refine ⟨next :: others, .cons_cons linked chained, by simpa using ends,
            List.nodup_cons.2 ⟨new, distinct⟩, ?_, by simpa using short, .cons parsed each⟩
          intro visited member
          rcases List.mem_cons.1 member with rfl | later
          · exact fresh
          · exact fun before => unvisited visited later (List.mem_append_left _ before)
      · rintro ⟨others, chained, ends, distinct, unvisited, short, each⟩
        obtain ⟨step, rest, parsed, remaining, rfl⟩ := List.forall₂_cons_left_iff.1 each
        refine ⟨unvisited path List.mem_cons_self, step, parsed, ?_⟩
        cases others with
        | nil =>
            obtain rfl := List.forall₂_nil_left_iff.1 remaining
            exact .inl ⟨by simpa using ends, rfl⟩
        | cons next others =>
            obtain ⟨linked, chained⟩ := List.isChain_cons_cons.1 chained
            obtain ⟨new, distinct⟩ := List.nodup_cons.1 distinct
            refine .inr ⟨next, rest, linked, inductionHypothesis.2 ⟨others, chained, ?_, distinct,
              ?_, by simpa using short, remaining⟩, rfl⟩
            · simpa using ends
            · intro visited member before
              rcases List.mem_append.1 before with earlier | same
              · exact unvisited visited (List.mem_cons_of_mem _ member) earlier
              · obtain rfl := List.mem_singleton.1 same
                exact new member

/-- A path that was passed is rejected for its repetition. -/
theorem rejected_again_iff {tree : FileTree} {passed : List Path} {path : Path}
    (again : path ∈ passed) (within : passed.length ≤ chainLimit) {violation : Violation} :
    Rejected tree passed path violation.kind violation ↔
      .repeatedStep path passed.length = violation := by
  constructor
  · intro broken
    generalize violation.kind = kind at broken
    cases broken with
    | repeated => rfl
    | long fresh | unreadable fresh | escaping fresh => exact absurd again fresh
  · rintro rfl
    exact .repeated again within

/-- A fresh path behind as many as a chain may have is rejected for the length of the chain. -/
theorem rejected_full_iff {tree : FileTree} {passed : List Path} {path : Path}
    (fresh : path ∉ passed) (full : passed.length = chainLimit) {violation : Violation} :
    Rejected tree passed path violation.kind violation ↔
      .longChain path chainLimit = violation := by
  constructor
  · intro broken
    generalize violation.kind = kind at broken
    cases broken with
    | repeated again => exact absurd again fresh
    | long => rfl
    | unreadable _ room | escaping _ room => omega
  · rintro rfl
    exact .long fresh full

/-- A fresh path behind fewer is rejected when it cannot be loaded. -/
theorem rejected_fresh_iff {tree : FileTree} {passed : List Path} {path : Path}
    (fresh : path ∉ passed) (room : passed.length < chainLimit) {violation : Violation} :
    Rejected tree passed path violation.kind violation ↔ load tree path = .error violation := by
  rw [load_eq_error_iff]
  constructor
  · intro broken
    generalize violation.kind = kind at broken
    cases broken with
    | repeated again => exact absurd again fresh
    | long _ full => omega
    | unreadable _ _ unread => exact .inl ⟨_, unread, rfl⟩
    | escaping _ _ read referred escapes => exact .inr ⟨_, read, _, _, referred, escapes, rfl⟩
  · rintro (⟨fault, unread, rfl⟩ | ⟨text, read, reference, escape, referred, escapes, rfl⟩)
    · exact .unreadable fresh room unread
    · exact .escaping fresh room read referred escapes

/-- No path is rejected behind more paths than a chain may have. -/
theorem Rejected.length_le {tree : FileTree} {passed : List Path} {path : Path}
    {kind : ViolationKind} {violation : Violation}
    (broken : Rejected tree passed path kind violation) : passed.length ≤ chainLimit := by
  cases broken with
  | repeated _ within => exact within
  | long _ full => exact full.le
  | unreadable _ room | escaping _ room => exact room.le

/-- A chain breaks off at a path that is rejected, or it passes a path that is fresh and parsed and
breaks off behind it. -/
inductive BreaksOff (tree : FileTree) : List Path → Path → ViolationKind → Violation → Prop where
  | here {passed : List Path} {path : Path} {kind : ViolationKind} {violation : Violation}
      (broken : Rejected tree passed path kind violation) :
      BreaksOff tree passed path kind violation
  | behind {passed : List Path} {path next : Path} {step : Step} {kind : ViolationKind}
      {violation : Violation} (fresh : path ∉ passed) (parsed : Parses tree path step)
      (linked : target? tree path = some next)
      (later : BreaksOff tree (passed ++ [path]) next kind violation) :
      BreaksOff tree passed path kind violation

theorem BreaksOff.length_le {tree : FileTree} {passed : List Path} {path : Path}
    {kind : ViolationKind} {violation : Violation}
    (breaks : BreaksOff tree passed path kind violation) : passed.length ≤ chainLimit := by
  induction breaks with
  | here broken => exact broken.length_le
  | behind _ _ _ _ inductionHypothesis =>
      rw [List.length_append] at inductionHypothesis
      omega

/-- A chain breaks off at its first path or behind it. -/
theorem breaksOff_iff {tree : FileTree} {passed : List Path} {path : Path} {kind : ViolationKind}
    {violation : Violation} :
    BreaksOff tree passed path kind violation ↔
      Rejected tree passed path kind violation ∨
        path ∉ passed ∧ ∃ step next, Parses tree path step ∧ target? tree path = some next ∧
          BreaksOff tree (passed ++ [path]) next kind violation := by
  constructor
  · rintro (broken | ⟨fresh, parsed, linked, later⟩)
    · exact .inl broken
    · exact .inr ⟨fresh, _, _, parsed, linked, later⟩
  · rintro (broken | ⟨fresh, step, next, parsed, linked, later⟩)
    · exact .here broken
    · exact .behind fresh parsed linked later

/-- A chain fails with the violation by which it breaks off. -/
theorem chainFrom_eq_error_iff {tree : FileTree} {left : Nat} {passed : List Path} {path : Path}
    (spent : passed.length + left = chainLimit) {violation : Violation} :
    chainFrom tree left passed path = .error violation ↔
      BreaksOff tree passed path violation.kind violation := by
  induction left generalizing passed path with
  | zero =>
      have noBehind (next : Path) :
          ¬ BreaksOff tree (passed ++ [path]) next violation.kind violation := by
        intro breaks
        have short := breaks.length_le
        rw [List.length_append, List.length_singleton] at short
        omega
      rw [breaksOff_iff]
      by_cases again : path ∈ passed
      · simp [chainFrom_of_passed tree 0 again, rejected_again_iff again (by omega), again]
      · simp [chainFrom_zero tree again, rejected_full_iff again spent, noBehind]
  | succ left inductionHypothesis =>
      rw [breaksOff_iff]
      by_cases again : path ∈ passed
      · simp [chainFrom_of_passed tree _ again, rejected_again_iff again (by omega), again]
      · have longer : (passed ++ [path]).length + left = chainLimit := by
          rw [List.length_append, List.length_singleton]
          omega
        have behind (next : Path) :
            chainFrom tree left (passed ++ [path]) next = .error violation ↔
              BreaksOff tree (passed ++ [path]) next violation.kind violation :=
          inductionHypothesis longer
        simp [chainFrom_succ_eq_error_iff again, rejected_fresh_iff again (by omega), again, behind]

/-- Where a chain breaks off, a walk from its first path over parsed and different paths meets one
that is rejected. -/
theorem BreaksOff.exists_walk {tree : FileTree} {passed : List Path} {path : Path}
    {kind : ViolationKind} {violation : Violation}
    (breaks : BreaksOff tree passed path kind violation) (distinct : passed.Nodup) :
    ∃ walk stop, (walk ++ [stop]).head? = some path ∧
      (walk ++ [stop]).IsChain (fun path next => target? tree path = some next) ∧
      (passed ++ walk).Nodup ∧ (∀ earlier ∈ walk, ∃ step, Parses tree earlier step) ∧
      Rejected tree (passed ++ walk) stop kind violation := by
  induction breaks with
  | @here passed path _ _ broken =>
      exact ⟨[], path, rfl, .singleton path, by simpa using distinct, by simp,
        by simpa using broken⟩
  | @behind passed path next step _ _ fresh parsed linked _ inductionHypothesis =>
      have extended : (passed ++ [path]).Nodup := by
        refine List.nodup_append.2 ⟨distinct, List.pairwise_singleton _ path, ?_⟩
        rintro earlier before later member rfl
        exact fresh (List.mem_singleton.1 member ▸ before)
      obtain ⟨walk, stop, starts, chained, different, each, broken⟩ := inductionHypothesis extended
      rw [List.append_assoc] at different broken
      refine ⟨path :: walk, stop, rfl, ?_, different, ?_, broken⟩
      · refine List.isChain_cons.2 ⟨?_, chained⟩
        intro first member
        obtain rfl := Option.some.inj (starts.symm.trans member)
        exact linked
      · exact List.forall_mem_cons.2 ⟨⟨step, parsed⟩, each⟩

/-- A walk over parsed and different paths to one that is rejected breaks off a chain. -/
theorem breaksOff_of_walk {tree : FileTree} {passed walk : List Path} {path stop : Path}
    {kind : ViolationKind} {violation : Violation}
    (starts : (walk ++ [stop]).head? = some path)
    (chained : (walk ++ [stop]).IsChain fun path next => target? tree path = some next)
    (different : (passed ++ walk).Nodup)
    (each : ∀ earlier ∈ walk, ∃ step, Parses tree earlier step)
    (broken : Rejected tree (passed ++ walk) stop kind violation) :
    BreaksOff tree passed path kind violation := by
  induction walk generalizing passed path with
  | nil =>
      obtain rfl : stop = path := by simpa using starts
      rw [List.append_nil] at broken
      exact .here broken
  | cons head rest inductionHypothesis =>
      obtain rfl : head = path := by simpa using starts
      obtain ⟨next, begins⟩ : ∃ next, (rest ++ [stop]).head? = some next := by
        cases rest <;> exact ⟨_, rfl⟩
      obtain ⟨linked, chained⟩ := List.isChain_cons.1 chained
      obtain ⟨⟨step, parsed⟩, others⟩ := List.forall_mem_cons.1 each
      rw [List.append_cons] at different broken
      have fresh : head ∉ passed := by
        intro before
        have apart := (List.nodup_append.1 (List.nodup_append.1 different).1).2.2
        exact apart head before head (List.mem_singleton_self head) rfl
      exact .behind fresh parsed (linked next begins)
        (inductionHypothesis begins chained different others broken)

/-- A first step that is missing has no chain. -/
theorem chain_of_missing {tree : FileTree} {first : Path} {fault : FileTree.Fault}
    (lost : tree.canonical first = .error fault) :
    chain tree first = .error (.missingFirstStep first) := by
  rw [chain, lost]

/-- The chain of a first step goes on from its canonical path. -/
theorem chain_of_located {tree : FileTree} {first start : Path}
    (located : tree.canonical first = .ok start) :
    chain tree first = chainFrom tree chainLimit [] start := by
  rw [chain, located]

/-- A chain that is built has the steps of the whole walk. -/
theorem chain_eq_ok_iff {tree : FileTree} {first : Path} {steps : List Step} :
    chain tree first = .ok steps ↔
      ∃ walk, IsWalk tree first walk ∧ walk.Nodup ∧ walk.length ≤ chainLimit ∧
        (∀ last ∈ walk.getLast?, target? tree last = none) ∧
        List.Forall₂ (Parses tree) walk steps := by
  cases located : tree.canonical first with
  | error fault =>
      rw [chain_of_missing located]
      refine ⟨nofun, ?_⟩
      rintro ⟨walk, ⟨⟨start, found, -⟩, -⟩, -⟩
      nomatch located.symm.trans found
  | ok start =>
      rw [chain_of_located located, chainFrom_eq_ok_iff]
      constructor
      · rintro ⟨others, chained, ends, distinct, -, short, each⟩
        exact ⟨start :: others, ⟨⟨start, located, rfl⟩, chained⟩, distinct, short, ends, each⟩
      · rintro ⟨walk, ⟨⟨found, same, begins⟩, chained⟩, distinct, short, ends, each⟩
        obtain rfl := Except.ok.inj (located.symm.trans same)
        obtain ⟨others, rfl⟩ := List.head?_eq_some_iff.1 begins
        exact ⟨others, chained, ends, distinct, fun _ _ => List.not_mem_nil, short, each⟩

/-- A chain that is not built fails with the first violation of the walk. -/
theorem chain_eq_error_iff {tree : FileTree} {first : Path} {violation : Violation} :
    chain tree first = .error violation ↔
      FirstViolation tree first violation.kind violation := by
  cases located : tree.canonical first with
  | error fault =>
      rw [chain_of_missing located, Except.error.injEq]
      constructor
      · rintro rfl
        exact .missing located
      · intro broken
        generalize violation.kind = kind at broken
        cases broken with
        | missing => rfl
        | rejected walk =>
            obtain ⟨start, found, -⟩ := walk.starts
            nomatch located.symm.trans found
  | ok start =>
      rw [chain_of_located located, chainFrom_eq_error_iff (Nat.zero_add chainLimit)]
      constructor
      · intro breaks
        obtain ⟨walk, stop, begins, chained, distinct, each, broken⟩ :=
          breaks.exists_walk List.nodup_nil
        exact .rejected ⟨⟨start, located, begins⟩, chained⟩ distinct each broken
      · intro broken
        generalize violation.kind = kind at broken ⊢
        cases broken with
        | missing lost => nomatch located.symm.trans lost
        | rejected walk distinct each broken =>
            obtain ⟨⟨found, same, begins⟩, chained⟩ := walk
            obtain rfl := Except.ok.inj (located.symm.trans same)
            exact breaksOff_of_walk begins chained distinct each broken

/-- The chain of a first step is built exactly when the walk from it, from target to target up to a
path without one, has at most twenty paths, which are different and can all be parsed. It then has
the steps that they are parsed as, in the order of the walk. Otherwise it fails with the first
violation of the walk: a missing file, a reference that escapes, a repetition, or a path too
many. -/
theorem chain_is_walk_or_first_violation (tree : FileTree) (first : Path) :
    chainLimit = 20 ∧
    (∀ steps, chain tree first = .ok steps ↔
      ∃ walk, IsWalk tree first walk ∧ walk.Nodup ∧ walk.length ≤ chainLimit ∧
        (∀ last ∈ walk.getLast?, target? tree last = none) ∧
        List.Forall₂ (Parses tree) walk steps) ∧
    ∀ violation, chain tree first = .error violation ↔
      FirstViolation tree first violation.kind violation :=
  ⟨rfl, fun _ => chain_eq_ok_iff, fun _ => chain_eq_error_iff⟩

end WorkflowBundle.Step
