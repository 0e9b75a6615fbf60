/-
This file says which fragments of knowledge a table lists.
-/

import WorkflowBundle.Proofs.Firsts
import WorkflowBundle.Proofs.Knowledge.Index
import WorkflowBundle.Proofs.Knowledge.Row
import WorkflowBundle.Proofs.Outcome

namespace WorkflowBundle.KnowledgeIndex

open Csv (Holds inOrder)
open Firsts (ListsFirsts)

/-- At a place among the rows stands the record of a fragment. -/
def ListedAt (header : Csv.Record) (rows : List Csv.Record) (place : Nat) (fragment : Fragment) :
    Prop :=
  ∃ row, rows[place]? = some row ∧ IsListed (Holds header.trimmed row.trimmed) fragment

section

variable {text : String} {header : Csv.Record} {rows : List Csv.Record}

theorem length_trimmed (record : Csv.Record) : record.trimmed.length = record.fields.length :=
  List.length_map _

/-- A table whose header has each column once, and whose rows are as long as the header, is parsed
row by row. -/
theorem parse_eq_ok (read : Csv.records text = header :: rows)
    (once : ∀ column ∈ columns, header.trimmed.count column = 1)
    (same : ∀ row ∈ rows, row.fields.length = header.fields.length) (path : Path) :
    parse text path = .ok (ofFragments path
      ((rows.map fun row => fragment? (header.trimmed.zip row.trimmed)).reduceOption)) := by
  have named : ∀ column ∈ columns, column ∈ header.trimmed := by
    intro column member
    apply List.count_pos_iff.1
    rw [once column member]
    decide
  have written : Text.isBlankText text = false :=
    Csv.isBlankText_eq_false (read ▸ List.mem_cons_self) (named "id" (by decide)) (by decide)
  have complete : columns.filter (fun column => !header.trimmed.contains column) = [] := by
    rw [List.filter_eq_nil_iff]
    intro column member
    simp [named column member]
  have each : rows.mapM (Csv.row columns header.trimmed) =
      .ok (rows.map fun row => header.trimmed.zip row.trimmed) := by
    rw [Outcome.mapM_eq_ok_iff, List.forall₂_map_right_iff, List.forall₂_same]
    intro row member
    apply Csv.row_eq_ok _ once
    rw [same row member, length_trimmed]
  rw [parse, written, read]
  simp only [Bool.false_eq_true, if_false, List.head?_cons, Option.map_some, Option.getD_some,
    List.drop_one, List.tail_cons, complete, each, Except.mapError, Except.map]
  rw [List.filterMap_map, List.reduceOption, List.filterMap_map]
  rfl

/-- The fragments that are kept of the rows are the first ones of their identifiers. -/
theorem listsFirsts_rows (once : ∀ column ∈ columns, header.trimmed.count column = 1)
    (same : ∀ row ∈ rows, row.fields.length = header.fields.length) :
    ListsFirsts (ListedAt header rows) Fragment.id
      (keepFirst (rows.map fun row => fragment? (header.trimmed.zip row.trimmed)).reduceOption) := by
  have lists : ListsFirsts
      (Firsts.offersOf (rows.map fun row => fragment? (header.trimmed.zip row.trimmed))) Fragment.id
      (keepFirst (rows.map fun row => fragment? (header.trimmed.zip row.trimmed)).reduceOption) :=
    Firsts.listsFirsts_keepNew _
  refine lists.congr fun place fragment => ?_
  rw [Firsts.offersOf, List.getElem?_map, Option.map_eq_some_iff, ListedAt]
  refine exists_congr fun row => and_congr_right fun there => ?_
  apply fragment?_eq_some_iff once
  rw [length_trimmed, length_trimmed, same row (List.mem_of_getElem? there)]

/-- At one place stands the record of one fragment. -/
theorem listedAt_single (once : ∀ column ∈ columns, header.trimmed.count column = 1) (place : Nat)
    (first second : Fragment) (one : ListedAt header rows place first)
    (another : ListedAt header rows place second) : first = second := by
  obtain ⟨row, there, listed⟩ := one
  obtain ⟨other, alsoThere, alsoListed⟩ := another
  obtain rfl := Option.some.inj (there.symm.trans alsoThere)
  exact listed.isRead.unique once alsoListed.isRead

/-- A permutation of the columns changes no number of occurrences in the header. -/
theorem count_trimmed_inOrder {order : List Nat}
    (permuted : order.Perm (List.range header.fields.length)) {otherHeader : Csv.Record}
    (sameHeader : otherHeader.fields = inOrder order header.fields) (column : String) :
    otherHeader.trimmed.count column = header.trimmed.count column := by
  rw [Csv.trimmed_inOrder sameHeader]
  apply (Csv.inOrder_perm _).count_eq
  rwa [length_trimmed]

/-- A permutation of the columns keeps the rows as long as the header. -/
theorem length_inOrder (same : ∀ row ∈ rows, row.fields.length = header.fields.length)
    {order : List Nat} (permuted : order.Perm (List.range header.fields.length))
    {otherHeader : Csv.Record} {otherRows : List Csv.Record}
    (sameHeader : otherHeader.fields = inOrder order header.fields)
    (sameRows : otherRows.map Csv.Record.fields = rows.map fun row => inOrder order row.fields) :
    ∀ row ∈ otherRows, row.fields.length = otherHeader.fields.length := by
  intro row member
  have shown : row.fields ∈ otherRows.map Csv.Record.fields := List.mem_map_of_mem member
  rw [sameRows] at shown
  obtain ⟨original, inside, equal⟩ := List.mem_map.1 shown
  have length := same original inside
  rw [← equal, sameHeader, (Csv.inOrder_perm permuted).length_eq, ← length]
  exact (Csv.inOrder_perm (length ▸ permuted)).length_eq

/-- A permutation of the columns of header and rows changes nothing that the rows list. -/
theorem listedAt_inOrder_iff (same : ∀ row ∈ rows, row.fields.length = header.fields.length)
    {order : List Nat} (permuted : order.Perm (List.range header.fields.length))
    {otherHeader : Csv.Record} {otherRows : List Csv.Record}
    (sameHeader : otherHeader.fields = inOrder order header.fields)
    (sameRows : otherRows.map Csv.Record.fields = rows.map fun row => inOrder order row.fields)
    (place : Nat) (fragment : Fragment) :
    ListedAt otherHeader otherRows place fragment ↔ ListedAt header rows place fragment := by
  have shown := congrArg (fun records => records[place]?) sameRows
  simp only [List.getElem?_map] at shown
  rw [ListedAt, ListedAt]
  cases there : rows[place]? with
  | none =>
      rw [there, Option.map_none, Option.map_eq_none_iff] at shown
      simp [shown]
  | some row =>
      rw [there, Option.map_some, Option.map_eq_some_iff] at shown
      obtain ⟨other, alsoThere, fields⟩ := shown
      have member : row ∈ rows := List.mem_of_getElem? there
      have trimmedLength : row.trimmed.length = header.trimmed.length := by
        rw [length_trimmed, length_trimmed, same row member]
      rw [← length_trimmed header] at permuted
      have held : Holds otherHeader.trimmed other.trimmed = Holds header.trimmed row.trimmed := by
        funext name value
        rw [Csv.trimmed_inOrder sameHeader, Csv.trimmed_inOrder fields]
        exact propext (Csv.holds_inOrder_iff trimmedLength permuted)
      simp [alsoThere, held]

end

/-- An index that is parsed from a table, whose header has each column once among any others and
whose rows are as long as the header, lists the fragment of the first row for each identifier, in the
order of the rows. A row counts when it has an identifier and a file that stays in the directory of
the index, and its values are those under the names of the columns. The index finds a fragment by its
identifier, and it is the same when the columns of the header and of all rows are permuted. -/
theorem index_lists_first_rows {text : String} {header : Csv.Record} {rows : List Csv.Record}
    (read : Csv.records text = header :: rows)
    (once : ∀ column ∈ columns, header.trimmed.count column = 1)
    (same : ∀ row ∈ rows, row.fields.length = header.fields.length) (path : Path) :
    ∃ index, parse text path = .ok index ∧ index.path = path ∧
      ListsFirsts (ListedAt header rows) Fragment.id index.fragments ∧
      (∀ id fragment, index.find? id = some fragment ↔
        fragment ∈ index.fragments ∧ fragment.id = id) ∧
      ∀ other order, order.Perm (List.range header.fields.length) →
        (Csv.records other).map Csv.Record.fields =
          (header :: rows).map (fun record => inOrder order record.fields) →
        parse other path = .ok index := by
  have lists := listsFirsts_rows once same
  refine ⟨_, parse_eq_ok read once same path, rfl, lists, ?_, ?_⟩
  · intro id fragment
    exact find?_eq_some_iff (nodup_keepFirst _)
  · intro other order permuted fields
    obtain ⟨otherHeader, otherRows, alsoRead, sameHeader, sameRows⟩ := List.map_eq_cons_iff.1 fields
    have alsoOnce : ∀ column ∈ columns, otherHeader.trimmed.count column = 1 := by
      intro column member
      rw [count_trimmed_inOrder permuted sameHeader, once column member]
    have alsoSame := length_inOrder same permuted sameHeader sameRows
    have alsoLists : ListsFirsts (ListedAt header rows) Fragment.id _ :=
      (listsFirsts_rows alsoOnce alsoSame).congr
        (listedAt_inOrder_iff same permuted sameHeader sameRows)
    rw [parse_eq_ok alsoRead alsoOnce alsoSame path, ofFragments, ofFragments,
      lists.unique alsoLists (listedAt_single once)]

/-- The header of this table has a column of its own, and the first row of `a` is rejected. -/
def scattered : String :=
  "tags,id,note,fragment_file,name,description\n" ++ "x,a,,../a.md,Old,\n" ++
    "\"y; x,,y\",a,,a.md, New ,\n" ++ "x,a,,c.md,Late,\n" ++ ",b,,b.md,,\n"

def scatteredHeader : Csv.Record :=
  ⟨⟨0, 1, 0⟩, ["tags", "id", "note", "fragment_file", "name", "description"]⟩

def scatteredRows : List Csv.Record :=
  [⟨⟨1, 2, 44⟩, ["x", "a", "", "../a.md", "Old", ""]⟩,
    ⟨⟨2, 3, 62⟩, ["y; x,,y", "a", "", "a.md", " New ", ""]⟩,
    ⟨⟨3, 4, 87⟩, ["x", "a", "", "c.md", "Late", ""]⟩, ⟨⟨4, 5, 103⟩, ["", "b", "", "b.md", "", ""]⟩]

/-- The same table with its columns in the usual order. -/
def gathered : String :=
  "id,name,description,fragment_file,tags,note\n" ++ "a,Old,,../a.md,x,\n" ++
    "a, New ,,a.md,\"y; x,,y\",\n" ++ "a,Late,,c.md,x,\n" ++ "b,,,b.md,,\n"

/-- Both tables are parsed as the same index, whose fragment `a` is that of the first row that
counts. -/
theorem scattered_index_is_gathered :
    ∃ index, parse scattered ⟨"index.csv"⟩ = .ok index ∧
      ListsFirsts (ListedAt scatteredHeader scatteredRows) Fragment.id index.fragments ∧
      (index.find? "a").map Fragment.file = some "a.md" ∧
      parse gathered ⟨"index.csv"⟩ = .ok index := by
  have read : Csv.records scattered = scatteredHeader :: scatteredRows := by decide +kernel
  have moved : (Csv.records gathered).map Csv.Record.fields =
      (scatteredHeader :: scatteredRows).map fun record =>
        inOrder [1, 4, 5, 3, 0, 2] record.fields := by
    decide +kernel
  have found : (parse scattered ⟨"index.csv"⟩).toOption.map
      (fun index => (index.find? "a").map Fragment.file) = some (some "a.md") := by
    decide +kernel
  obtain ⟨index, parsed, -, lists, -, permuted⟩ :=
    index_lists_first_rows read (by decide) (by decide) ⟨"index.csv"⟩
  obtain ⟨same, alsoParsed, shown⟩ := Outcome.exists_of_map_toOption found
  obtain rfl := Except.ok.inj (parsed.symm.trans alsoParsed)
  exact ⟨index, parsed, lists, shown, permuted gathered _ (by decide) moved⟩

end WorkflowBundle.KnowledgeIndex
