/-
This file shows which tables can be expanded: those in which every walk along references between
unresolved variables is short.
-/

import Mathlib.Data.List.Chain
import WorkflowBundle.Proofs.Variable.Substitution

namespace WorkflowBundle.Variable

/-- An unresolved variable refers to another one when its text has a reference to that. -/
inductive RefersTo (table : Table) : String → String → Prop where
  | intro {name text inner : String} {found : Reference}
      (bound : table.find? name = some (.unresolved text))
      (member : .reference found ∈ segments text)
      (target : table.find? found.name = some (.unresolved inner)) :
      RefersTo table name found.name

/-- A walk visits unresolved variables, each of which refers to the next one. -/
structure Walk (table : Table) (names : List String) : Prop where
  unresolved : ∀ name ∈ names, ∃ text, table.find? name = some (.unresolved text)
  linked : names.IsChain (RefersTo table)

/-- A table fails to expand for a walk of more than the allowed length, or for one that ends at a
variable that refers back to the walk. The violation names this walk. -/
inductive FailsFor (table : Table) : Violation → Prop where
  | deep {names : List String} {last : String} (walk : Walk table names)
      (ends : names.getLast? = some last) (long : names.length = chainLimit + 1) :
      FailsFor table (.deepVariable last chainLimit)
  | circular {names : List String} {last again : String} (walk : Walk table names)
      (ends : names.getLast? = some last) (refers : RefersTo table last again)
      (inside : again ∈ names) : FailsFor table (.circularVariable names again)

section

variable {table : Table} {name other : String} {names rest : List String}

theorem walk_singleton {text : String} (bound : table.find? name = some (.unresolved text)) :
    Walk table [name] :=
  ⟨by simpa using ⟨text, bound⟩, List.isChain_singleton name⟩

/-- A walk goes on from its last variable to one that this refers to. -/
theorem Walk.concat {last : String} (walk : Walk table names) (ends : names.getLast? = some last)
    (refers : RefersTo table last other) : Walk table (names ++ [other]) := by
  constructor
  · cases refers with
    | intro _ _ target =>
        refine List.forall_mem_append.2 ⟨walk.unresolved, ?_⟩
        simpa using ⟨_, target⟩
  · refine walk.linked.append (List.isChain_singleton other) ?_
    intro first isLast next isHead
    obtain rfl := Option.some.inj (ends.symm.trans isLast)
    obtain rfl := Option.some.inj isHead
    exact refers

/-- A walk is entered from a variable that refers to its first one. -/
theorem Walk.cons (walk : Walk table (other :: rest)) (refers : RefersTo table name other) :
    Walk table (name :: other :: rest) := by
  constructor
  · cases refers with
    | intro bound _ _ => exact List.forall_mem_cons.2 ⟨⟨_, bound⟩, walk.unresolved⟩
  · exact List.isChain_cons_cons.2 ⟨refers, walk.linked⟩

/-- Walks from a variable whose text can be expanded have at most as many members as there are
levels left. -/
theorem Walk.length_le {levels : Nat} {chain : List String} {text : String}
    (walk : Walk table (name :: rest)) (bound : table.find? name = some (.unresolved text))
    (expanded : ∃ result, expandWithin table levels chain text = .ok result) :
    (name :: rest).length ≤ levels := by
  -- Each step of the walk is one level of the expansion.
  induction levels generalizing name rest chain text with
  | zero =>
      obtain ⟨_, impossible⟩ := expanded
      nomatch impossible
  | succ levels inductionHypothesis =>
      cases rest with
      | nil => simp
      | cons next more =>
          obtain ⟨refers, behind⟩ := List.isChain_cons_cons.1 walk.linked
          have later : Walk table (next :: more) :=
            ⟨(List.forall_mem_cons.1 walk.unresolved).2, behind⟩
          cases refers with
          | intro sameBound member target =>
              obtain rfl := Value.unresolved.inj (Option.some.inj (bound.symm.trans sameBound))
              have nested := (exists_expandWithin_iff.1 expanded _ member).2 _ target
              exact Nat.succ_le_succ (inductionHypothesis later target nested)

/-- A text at the end of a walk, with as many levels left as the walk may still have members, fails
to expand for a walk that goes on from this one. -/
theorem Walk.failsFor {levels : Nat} {text : String} {violation : Violation}
    (walk : Walk table names) (ends : names.getLast? = some name)
    (bound : table.find? name = some (.unresolved text))
    (count : names.length + levels = chainLimit + 1)
    (failed : expandWithin table levels names text = .error violation) :
    FailsFor table violation := by
  induction levels generalizing names name text with
  | zero =>
      obtain rfl := Except.error.inj failed
      rw [List.getLastD_eq_getLast?, ends]
      exact .deep walk ends count
  | succ levels inductionHypothesis =>
      obtain ⟨found, member, ⟨inside, rfl⟩ | ⟨inner, target, failing⟩⟩ := expandWithin_eq_error failed
      · obtain ⟨inner, target⟩ := walk.unresolved found.name inside
        exact .circular walk ends (.intro bound member target) inside
      · refine inductionHypothesis (walk.concat ends (.intro bound member target)) (by simp) target
          ?_ failing
        rw [List.length_append, List.length_singleton]
        omega

/-- A walk that refers back to one of its members closes a circle. -/
theorem Walk.circle {last again : String} (walk : Walk table names)
    (ends : names.getLast? = some last) (refers : RefersTo table last again)
    (inside : again ∈ names) : Relation.TransGen (RefersTo table) again again := by
  obtain ⟨before, behind, rfl⟩ := List.append_of_mem inside
  have linked : (again :: behind).IsChain (RefersTo table) := walk.linked.right_of_append
  have reached : (again :: behind).getLast (by simp) = last := by
    rw [List.getLast?_append_of_ne_nil _ (by simp), List.getLast?_eq_some_getLast (by simp)] at ends
    exact Option.some.inj ends
  exact .tail' (List.relationReflTransGen_of_exists_isChain_cons behind linked reached) refers

/-- A way to the first variable of a walk makes the walk longer. -/
theorem Walk.exists_longer (walk : Walk table (other :: rest))
    (way : Relation.TransGen (RefersTo table) name other) :
    ∃ more, rest.length < more.length ∧ Walk table (name :: more) := by
  induction way using Relation.TransGen.head_induction_on with
  | single refers => exact ⟨other :: rest, Nat.lt_succ_self _, walk.cons refers⟩
  | head refers _ inductionHypothesis =>
      obtain ⟨more, longer, extended⟩ := inductionHypothesis
      exact ⟨_ :: more, Nat.lt_succ_of_lt longer, extended.cons refers⟩

/-- Around a circle there are walks of every length. -/
theorem exists_walk_of_circle (circle : Relation.TransGen (RefersTo table) name name)
    (length : Nat) : ∃ rest, length ≤ rest.length ∧ Walk table (name :: rest) := by
  induction length with
  | zero =>
      obtain ⟨_, ⟨bound, _, _⟩, _⟩ := Relation.TransGen.head'_iff.1 circle
      exact ⟨[], Nat.le_refl 0, walk_singleton bound⟩
  | succ length inductionHypothesis =>
      obtain ⟨rest, long, walk⟩ := inductionHypothesis
      obtain ⟨more, longer, extended⟩ := walk.exists_longer circle
      exact ⟨more, Nat.succ_le_of_lt (Nat.lt_of_le_of_lt long longer), extended⟩

/-- A table that fails to expand has a walk that is too long. -/
theorem FailsFor.exists_walk {violation : Violation} (fails : FailsFor table violation) :
    ∃ names, Walk table names ∧ chainLimit < names.length := by
  cases fails with
  | deep walk _ long => exact ⟨_, walk, long ▸ Nat.lt_succ_self chainLimit⟩
  | circular walk ends refers inside =>
      obtain ⟨rest, long, around⟩ :=
        exists_walk_of_circle (walk.circle ends refers inside) chainLimit
      exact ⟨_, around, Nat.lt_succ_of_le long⟩

/-- A failure to expand is a circle or a chain that is too long, and the first of these only if
there is a circle. -/
theorem FailsFor.kind {violation : Violation} (fails : FailsFor table violation) :
    violation.kind = .depthExceeded ∨ violation.kind = .circularReference ∧
      ∃ name, Relation.TransGen (RefersTo table) name name := by
  cases fails with
  | deep _ _ _ => exact .inl rfl
  | circular walk ends refers inside => exact .inr ⟨rfl, _, walk.circle ends refers inside⟩

/-- A table that cannot be expanded fails for a walk. -/
theorem failsFor_of_expand {violation : Violation} (failed : expand table = .error violation) :
    FailsFor table violation := by
  obtain ⟨name, text, bound, failing⟩ := expand_eq_error failed
  exact (walk_singleton bound).failsFor rfl bound (Nat.add_comm 1 chainLimit) failing

theorem Walk.length_le_of_expand {result : Table} (walk : Walk table names)
    (expanded : expand table = .ok result) : names.length ≤ chainLimit := by
  cases names with
  | nil => exact Nat.zero_le chainLimit
  | cons name rest =>
      obtain ⟨text, bound⟩ := walk.unresolved name List.mem_cons_self
      exact walk.length_le bound (exists_expand_iff.1 ⟨result, expanded⟩ name text bound)

end

/-- A table can be expanded if and only if no walk has more members than a chain may have, so that
there are no circles. A failure names the walk it is due to, and it reports a circle only if there
is one and a chain that is too long otherwise. -/
theorem expands_iff_walks_are_short (table : Table) :
    ((∃ result, expand table = .ok result) ↔
      ∀ names, Walk table names → names.length ≤ chainLimit) ∧
    (∀ result, expand table = .ok result →
      ∀ name, ¬ Relation.TransGen (RefersTo table) name name) ∧
    ∀ violation, expand table = .error violation → FailsFor table violation ∧
      (violation.kind = .depthExceeded ∨ violation.kind = .circularReference ∧
        ∃ name, Relation.TransGen (RefersTo table) name name) := by
  refine ⟨⟨?_, ?_⟩, ?_, ?_⟩
  · rintro ⟨result, expanded⟩ names walk
    exact walk.length_le_of_expand expanded
  · intro short
    cases outcome : expand table with
    | ok result => exact ⟨result, rfl⟩
    | error violation =>
        obtain ⟨names, walk, long⟩ := (failsFor_of_expand outcome).exists_walk
        exact absurd (short names walk) (Nat.not_le_of_gt long)
  · intro result expanded name circle
    obtain ⟨rest, long, walk⟩ := exists_walk_of_circle circle chainLimit
    exact absurd (walk.length_le_of_expand expanded) (Nat.not_le_of_gt (Nat.lt_succ_of_le long))
  · intro violation failed
    have fails := failsFor_of_expand failed
    exact ⟨fails, fails.kind⟩

/-- Each variable of a row refers to the next one. -/
def rowTable (count : Nat) : Table :=
  .ofList <| (List.range count).map fun index =>
    (toString index, .unresolved ("\x7b" ++ toString (index + 1) ++ "\x7d"))

example : (expand (rowTable chainLimit)).isOk = true ∧
    expand (rowTable (chainLimit + 1)) = .error (.deepVariable "10" chainLimit) := by
  decide +kernel

end WorkflowBundle.Variable
