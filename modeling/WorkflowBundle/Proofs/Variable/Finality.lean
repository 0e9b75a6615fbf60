/-
This file says when an expansion is final, that is when a second one changes nothing: exactly when
no value that is left unresolved refers to a defined name.
-/

import WorkflowBundle.Proofs.Variable.Classification
import WorkflowBundle.Proofs.Variable.Scan

namespace WorkflowBundle.Variable

/-- Equal parts at the same distance shift what stands in front of them. -/
theorem exists_shift {lead part rest others : List Char}
    (same : lead ++ (part ++ rest) = part ++ others) :
    ∃ shifted, lead ++ part = part ++ shifted ∧ shifted ++ rest = others := by
  rw [← List.append_assoc] at same
  rcases List.append_eq_append_iff.1 same with ⟨more, longer, behind⟩ | ⟨shifted, moved, behind⟩
  · have total := congrArg List.length longer
    simp only [List.length_append] at total
    obtain rfl : lead = [] := List.eq_nil_of_length_eq_zero (by omega)
    obtain rfl : more = [] := List.eq_nil_of_length_eq_zero (by omega)
    exact ⟨[], by simp, behind⟩
  · exact ⟨shifted, moved, behind.symm⟩

section Covering

variable (lookup : String → Option String)

/-- Parts behind a lead cover a reference when the text that a lookup has for it holds the reference
where the parts have it. -/
def Covers (lead : List Char) (parts : List Segment) : Prop :=
  ∃ before found text after ahead behind,
    parts = before ++ .reference found :: after ∧ lookup found.name = some text ∧
    text.toList = ahead ++ (found.written ++ behind) ∧
    lead ++ before.flatMap Segment.written =
      before.flatMap (Segment.replacement lookup) ++ ahead ∧
    after.flatMap Segment.written = behind ++ after.flatMap (Segment.replacement lookup)

variable {lookup}

/-- Parts cover a reference if they do behind their first one. -/
theorem Covers.cons {lead shifted : List Char} {segment : Segment} {rest : List Segment}
    (moved : lead ++ segment.written = segment.replacement lookup ++ shifted)
    (covers : Covers lookup shifted rest) : Covers lookup lead (segment :: rest) := by
  obtain ⟨before, found, text, after, ahead, behind, rfl, bound, holds, front, back⟩ := covers
  refine ⟨segment :: before, found, text, after, ahead, behind, rfl, bound, holds, ?_, back⟩
  rw [List.flatMap_cons, List.flatMap_cons, ← List.append_assoc, moved, List.append_assoc, front,
    List.append_assoc]

/-- Parts that are filled to what they make up behind a lead cover a reference, unless the lead is
empty and the lookup knows none of their references. -/
theorem covers_of_filled {parts : List Segment} {lead : List Char}
    (same : lead ++ parts.flatMap Segment.written =
      parts.flatMap (Segment.replacement lookup))
    (unequal : lead ≠ [] ∨ ∃ found, .reference found ∈ parts ∧ (lookup found.name).isSome) :
    Covers lookup lead parts := by
  induction parts generalizing lead with
  | nil =>
      rcases unequal with some | ⟨_, member, -⟩
      · exact absurd (List.append_eq_nil_iff.1 same).1 some
      · nomatch member
  | cons segment rest inductionHypothesis =>
      rw [List.flatMap_cons, List.flatMap_cons] at same
      -- A part that is kept shifts the lead, and a text that is inserted covers its reference or
      -- leaves a lead behind.
      have kept (written : segment.replacement lookup = segment.written)
          (later : lead ≠ [] ∨ ∃ found, .reference found ∈ rest ∧ (lookup found.name).isSome) :
          Covers lookup lead (segment :: rest) := by
        rw [written] at same
        obtain ⟨shifted, moved, remaining⟩ := exists_shift same
        refine .cons (written ▸ moved) (inductionHypothesis remaining ?_)
        refine later.imp_left fun some empty => some ?_
        have total := congrArg List.length moved
        simp only [List.length_append, empty, List.length_nil] at total
        exact List.eq_nil_of_length_eq_zero (by omega)
      cases segment with
      | literal character =>
          refine kept rfl (unequal.imp_right ?_)
          rintro ⟨found, member, known⟩
          exact ⟨found, (List.mem_cons.1 member).resolve_left nofun, known⟩
      | reference found =>
          rcases bound : lookup found.name with _ | text
          · refine kept (by simp [Segment.replacement, bound, Segment.written]) ?_
            refine unequal.imp_right ?_
            rintro ⟨other, member, known⟩
            rcases List.mem_cons.1 member with equal | later
            · obtain rfl := Segment.reference.inj equal
              simp [bound] at known
            · exact ⟨other, later, known⟩
          · have inserted : Segment.replacement lookup (.reference found) = text.toList := by
              simp [Segment.replacement, bound]
            have covered (behind : List Char)
                (holds : text.toList = lead ++ found.written ++ behind)
                (back : rest.flatMap Segment.written =
                  behind ++ rest.flatMap (Segment.replacement lookup)) :
                Covers lookup lead (.reference found :: rest) :=
              ⟨[], found, text, rest, lead, behind, rfl, bound, by rw [holds, List.append_assoc],
                List.append_nil lead, back⟩
            rw [inserted, ← List.append_assoc, Segment.written] at same
            rcases List.append_eq_append_iff.1 same with ⟨behind, holds, back⟩ |
              ⟨shifted, moved, remaining⟩
            · exact covered behind holds back
            · by_cases reached : shifted = []
              · subst reached
                exact covered [] (by simpa using moved.symm) (by simpa using remaining.symm)
              · exact .cons (inserted ▸ moved) (inductionHypothesis remaining.symm (.inl reached))

/-- Filling parts keeps the characters outside of their references. -/
theorem countP_written_le {parts : List Segment} (outside : Char → Bool)
    (plain : ∀ found, .reference found ∈ parts → ∀ character ∈ found.written,
      outside character = false) :
    (parts.flatMap Segment.written).countP outside ≤
      (parts.flatMap (Segment.replacement lookup)).countP outside := by
  induction parts with
  | nil => exact Nat.le_refl _
  | cons segment rest inductionHypothesis =>
      have later := inductionHypothesis fun found member =>
        plain found (List.mem_cons_of_mem _ member)
      rw [List.flatMap_cons, List.flatMap_cons, List.countP_append, List.countP_append]
      cases segment with
      | literal character => exact Nat.add_le_add_left later _
      | reference found =>
          have none : found.written.countP outside = 0 :=
            List.countP_eq_zero.2 fun character member => by
              simp [plain found List.mem_cons_self character member]
          rw [Segment.written, none]
          exact Nat.add_le_add (Nat.zero_le _) later

/-- A text that is filled to itself covers a reference if it has a known one, which is read in the
text that the lookup has for it, behind characters that can stand in references. -/
theorem exists_own_reference {raw : String} (same : fill lookup raw = raw)
    (known : ∃ found, .reference found ∈ segments raw ∧ (lookup found.name).isSome) :
    ∃ found text ahead behind, lookup found.name = some text ∧
      text.toList = ahead ++ (found.written ++ behind) ∧
      reference? (found.written ++ behind) = some found ∧
      ∀ character ∈ ahead, standsInReference character = true := by
  have filled : [] ++ (segments raw).flatMap Segment.written =
      (segments raw).flatMap (Segment.replacement lookup) := by
    have texts := congrArg String.toList same
    rw [fill, String.toList_ofList] at texts
    rw [List.nil_append, written_segments, texts]
  obtain ⟨before, found, text, after, ahead, behind, split, bound, holds, front, back⟩ :=
    covers_of_filled filled (.inr known)
  have read := reference?_of_segmentsFrom split
  rw [back] at read
  refine ⟨found, text, ahead, behind, bound, holds, reference?_of_append read, ?_⟩
  -- Filling the parts in front of the reference loses no character that stands outside of
  -- references, so that none is left for the text ahead of it.
  have plain : ∀ other, .reference other ∈ before → ∀ character ∈ other.written,
      (!standsInReference character) = false := by
    intro other member character inside
    have listed : .reference other ∈ segments raw := split ▸ List.mem_append_left _ member
    obtain ⟨_, _, -, here⟩ := reference?_of_mem_segmentsFrom listed
    simp [all_standsInReference here character inside]
  have count := @countP_written_le lookup before (!standsInReference ·) plain
  rw [List.nil_append] at front
  rw [front, List.countP_append] at count
  have none : ahead.countP (!standsInReference ·) = 0 := by omega
  intro character member
  simpa using List.countP_eq_zero.1 none character member

end Covering

/-- The text of a list or a mapping starts with a bracket, or with a brace that opens no name. -/
theorem write_collection_starts {yaml : Yaml} {json : Json}
    (collected : yaml.collection? = some json) :
    (∃ rest, json.write.toList = '[' :: rest) ∨
      (∃ rest, json.write.toList = '\x7b' :: '"' :: rest) ∨
      json.write.toList = ['\x7b', '\x7d'] := by
  rw [Yaml.collection?] at collected
  split at collected
  · obtain ⟨items, -, rfl⟩ := Option.map_eq_some_iff.1 collected
    rw [Json.write, Json.writeAt, Json.toList_enclose _ rfl rfl]
    exact .inl ⟨_, rfl⟩
  · obtain ⟨fields, -, rfl⟩ := Option.map_eq_some_iff.1 collected
    rw [Json.write, Json.writeAt, Json.toList_enclose _ rfl rfl]
    rcases writeFields_starts 1 fields with empty | ⟨rest, starts⟩
    · rw [empty]
      exact .inr (.inr rfl)
    · rw [starts]
      exact .inr (.inl ⟨_, rfl⟩)
  · cases collected

/-- The text of a list or a mapping holds no reference behind characters that can stand in
references only. -/
theorem not_reference_in_collection {yaml : Yaml} {json : Json}
    (collected : yaml.collection? = some json) {found : Reference} {ahead behind : List Char}
    (holds : json.write.toList = ahead ++ (found.written ++ behind))
    (clean : ∀ character ∈ ahead, standsInReference character = true) :
    reference? (found.written ++ behind) ≠ some found := by
  intro read
  obtain ⟨next, rest, starts, named⟩ := exists_start_of_reference? read
  have stands : ∀ character ∈ ahead ++ found.written, standsInReference character = true :=
    List.forall_mem_append.2 ⟨clean, all_standsInReference read⟩
  obtain ⟨first, second, more, shape⟩ :
      ∃ first second more, ahead ++ found.written = first :: second :: more := by
    rw [starts]
    rcases ahead with _ | ⟨first, _ | ⟨second, ahead⟩⟩ <;> exact ⟨_, _, _, rfl⟩
  rw [← List.append_assoc, shape] at holds
  rw [shape, List.forall_mem_cons, List.forall_mem_cons] at stands
  obtain ⟨firstStands, secondStands, -⟩ := stands
  rcases write_collection_starts collected with ⟨inner, opens⟩ | ⟨inner, opens⟩ | empty
  · obtain ⟨rfl, -⟩ := List.cons.inj (opens.symm.trans holds)
    nomatch firstStands
  · obtain ⟨-, same⟩ := List.cons.inj (opens.symm.trans holds)
    obtain ⟨rfl, -⟩ := List.cons.inj same
    nomatch secondStands
  · simp only [empty, List.cons_append, List.cons.injEq, List.nil_eq_append_iff] at holds
    obtain ⟨rfl, rfl, rfl, -⟩ := holds
    have length := congrArg List.length shape
    simp only [starts, List.length_append, List.length_cons, List.length_nil] at length
    obtain rfl : ahead = [] := List.eq_nil_of_length_eq_zero (by omega)
    obtain rfl : next = '\x7d' := by simp_all
    exact absurd named (by decide)

/-- A given value is unresolved if it holds a reference behind characters that can stand in
references. -/
theorem isUnresolved_of_reference {value : Value} (given : value.IsGiven) {found : Reference}
    {ahead behind : List Char} (holds : value.render.toList = ahead ++ (found.written ++ behind))
    (read : reference? (found.written ++ behind) = some found)
    (clean : ∀ character ∈ ahead, standsInReference character = true) :
    value.isUnresolved = true := by
  have classified (same : value.IsClassified) : value.isUnresolved = true := by
    obtain ⟨inner, place, whole, here⟩ := exists_placeholder_of_reference? read
    have present := placeholdersFrom_ne_nil (ahead ++ inner) here
    rw [List.append_assoc, ← whole, ← holds] at present
    rw [same, hasPlaceholder]
    simpa using present
  rcases given with ⟨text, rfl⟩ | ⟨yaml, made⟩
  · exact classified (isClassified_ofText text)
  · rcases ofYaml?_cases made with ⟨-, json, -, collected, rfl⟩ | ⟨-, scalar⟩
    · exact absurd read (not_reference_in_collection collected holds clean)
    · exact classified scalar

/-- A table is settled when none of its unresolved texts refers to a name that it defines. -/
def Settled (table : Table) : Prop :=
  ∀ name raw, table.find? name = some (.unresolved raw) →
    ∀ found, .reference found ∈ segments raw → table.find? found.name = none

section

variable {table result : Table}

/-- An expansion is kept by a second one if it is settled. -/
theorem expand_of_settled (expanded : expand table = .ok result) (settled : Settled result) :
    expand result = .ok result := by
  have kept (name : String) (value : Value) (bound : result.find? name = some value) :
      expandValue result name value = .ok value := by
    refine expandValue_of_unknown (typed_of_expand expanded) bound ?_
    rintro raw rfl
    exact settled name raw bound
  obtain ⟨again, done⟩ : ∃ again, expand result = .ok again := by
    refine exists_expand_iff.2 fun name raw bound => ?_
    obtain ⟨inner, same, -⟩ := Outcome.map_eq_ok_iff.1 (kept name _ bound)
    exact ⟨inner, same⟩
  have same : again = result := by
    apply Dictionary.eq_of_find?_eq
    intro name
    have related := find?_expand done name
    rcases bound : result.find? name with _ | value
    · exact find?_expand_of_none done bound
    · rw [bound] at related
      generalize again.find? name = new at related ⊢
      cases related with
      | some step => rw [Except.ok.inj ((kept name value bound).symm.trans step)]
  rw [done, same]

/-- A given table that is kept by its expansion is settled. -/
theorem settled_of_expand (given : Given result) (kept : expand result = .ok result) :
    Settled result := by
  intro name raw bound found member
  by_contra known
  have same : fill result.text? raw = raw := by
    have solved := find?_expand_eq kept name
    rw [bound] at solved
    exact (ofText_eq_unresolved_iff.1 (Option.some.inj solved).symm).1
  obtain ⟨other, text, ahead, behind, shown, holds, read, clean⟩ :=
    exists_own_reference same ⟨found, member, by
      simpa [Table.text?, Option.isSome_iff_ne_none] using known⟩
  obtain ⟨value, defined, rfl⟩ := Option.map_eq_some_iff.1 shown
  have unresolved := isUnresolved_of_reference (given _ _ defined) holds read clean
  cases value with
  | unresolved inner =>
      -- The value refers to its own name, so that its expansion closes a circle.
      obtain ⟨third, inside, own⟩ := exists_reference_of_read read ahead (Nat.zero_le _)
      rw [← holds] at inside
      have expandable := exists_expand_iff.1 ⟨result, kept⟩ other.name inner defined
      have outside := (exists_expandWithin_iff.1 expandable third inside).1
      exact outside (own ▸ List.mem_singleton_self _)
  | _ => simp [Value.isUnresolved] at unresolved

/-- The expansion of a table of strings and YAML values is kept by a second expansion if and only if
no value that is left unresolved refers to a defined name. A substitution of the expansion then
inserts its values as they are shown. -/
theorem expansion_is_final_iff_settled (given : Given table)
    (expanded : expand table = .ok result) :
    (expand result = .ok result ↔ Settled result) ∧
      (Settled result → ∀ text, expandText result text = .ok (insertValues result text) ∧
        substitute result text = insertValues result text) := by
  refine ⟨⟨settled_of_expand (given.expand expanded), expand_of_settled expanded⟩, ?_⟩
  intro settled text
  have inserted : expandText result text = .ok (insertValues result text) :=
    expandText_eq_fill (expand_of_settled expanded settled) text
  refine ⟨inserted, ?_⟩
  rw [substitute, inserted]

end

/-- The report table is given by strings and settled by its expansion. -/
theorem report_expansion_is_final :
    ∃ result, expand reportTable = .ok result ∧ Settled result ∧
      result.find? "report" = some (.unresolved "/repo/\x7bgone\x7d.md") ∧
      substitute result "See \x7breport\x7d." = insertValues result "See \x7breport\x7d." := by
  have given : Given reportTable := given_ofList (by decide +kernel)
  have shown : (expand reportTable).toOption.map (fun result =>
      (decide (expand result = .ok result), result.find? "report")) =
        some (true, some (.unresolved "/repo/\x7bgone\x7d.md")) := by
    decide +kernel
  obtain ⟨result, expanded, seen⟩ := Outcome.exists_of_map_toOption shown
  obtain ⟨kept, found⟩ := Prod.mk.inj seen
  obtain ⟨settles, inserts⟩ := expansion_is_final_iff_settled given expanded
  have settled := settles.1 (of_decide_eq_true kept)
  exact ⟨result, expanded, settled, found, (inserts settled _).2⟩

/-- A brace is put in front of the rest of a reference. -/
def gluedTable : Table :=
  .ofList [("brace", .ofText "\x7b"), ("name", .ofText "Ann"),
    ("title", .ofText "\x7bbrace\x7dname\x7d")]

/-- A second expansion inserts the name for the reference that the first one puts together. -/
theorem glued_expansion_is_not_final :
    ¬ ∀ table result, Given table → expand table = .ok result → expand result = .ok result := by
  intro final
  have given : Given gluedTable := given_ofList (by decide +kernel)
  have shown : (expand gluedTable).toOption.map (fun result =>
      decide (expand result = .ok result)) = some false := by
    decide +kernel
  obtain ⟨result, expanded, changed⟩ := Outcome.exists_of_map_toOption shown
  exact of_decide_eq_false changed (final gluedTable result given expanded)

end WorkflowBundle.Variable
