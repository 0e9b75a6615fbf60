/-
This file says how references are read at one place of a text, and that a reference that is read at
some place makes the whole text refer to its name.
-/

import WorkflowBundle.Proofs.Variable.Placeholder

namespace WorkflowBundle.Variable

theorem enclosed?_of_single {next : Char} (single : next ≠ '\x7b') (rest : List Char) :
    enclosed? ['\x7b', '\x7b'] ['\x7d', '\x7d'] ('\x7b' :: next :: rest) = none := by
  simp [enclosed?, single.symm]

theorem ne_brace_of_isNameCharacter {character : Char}
    (named : isNameCharacter character = true) : character ≠ '\x7b' := by
  rintro rfl
  nomatch named

/-- A reference is a doubly braced name, or the mark of the configuration and a name that ends
there, or a braced name where no reference to the configuration is. -/
theorem reference?_eq_some_iff {text : List Char} {found : Reference} :
    reference? text = some found ↔
      ∃ name rest, name ≠ [] ∧ (∀ character ∈ name, isNameCharacter character = true) ∧
        found.name = String.ofList name ∧ text = found.written ++ rest ∧
        (found.written = ['\x7b', '\x7b'] ++ name ++ ['\x7d', '\x7d'] ∨
          found.written = configurationMark ++ name ∧ EndsName rest ∨
          found.written = ['\x7b'] ++ name ++ ['\x7d'] ∧ configurationReference? text = none) := by
  rw [reference?, Option.or_eq_some_iff, Option.or_eq_some_iff]
  constructor
  · rintro (doubled | ⟨-, configuration | ⟨unmarked, single⟩⟩)
    · obtain ⟨name, rest, named, clean, -, rfl, rfl⟩ := enclosed?_eq_some_iff.1 doubled
      exact ⟨name, rest, named, clean, rfl, by simp, .inl rfl⟩
    · obtain ⟨name, rest, named, clean, ends, rfl, rfl⟩ := enclosed?_eq_some_iff.1 configuration
      exact ⟨name, rest, named, clean, rfl, by simp, .inr (.inl ⟨List.append_nil _, ends⟩)⟩
    · obtain ⟨name, rest, named, clean, -, rfl, rfl⟩ := enclosed?_eq_some_iff.1 single
      exact ⟨name, rest, named, clean, rfl, by simp, .inr (.inr ⟨rfl, unmarked⟩)⟩
  · obtain ⟨written, label⟩ := found
    rintro ⟨name, rest, named, clean, rfl, rfl,
      doubled | ⟨configuration, ends⟩ | ⟨single, unmarked⟩⟩
    · obtain rfl := doubled
      exact .inl (enclosed?_eq_some_iff.2
        ⟨name, rest, named, clean, endsName_cons (by decide) _, rfl, by simp⟩)
    · obtain rfl := configuration
      refine .inr ⟨enclosed?_of_single (by decide) _, .inl ?_⟩
      exact enclosed?_eq_some_iff.2
        ⟨name, rest, named, clean, ends, by rw [List.append_nil], by simp⟩
    · obtain rfl := single
      obtain ⟨first, others, rfl⟩ := List.exists_cons_of_ne_nil named
      have opened := ne_brace_of_isNameCharacter (clean first List.mem_cons_self)
      refine .inr ⟨enclosed?_of_single opened _, .inr ⟨unmarked, ?_⟩⟩
      exact enclosed?_eq_some_iff.2
        ⟨first :: others, rest, named, clean, endsName_cons (by decide) _, rfl, by simp⟩

/-- A reference to the configuration stays one when more text follows. -/
theorem isSome_configurationReference?_append {text : List Char}
    (marked : (configurationReference? text).isSome) (more : List Char) :
    (configurationReference? (text ++ more)).isSome := by
  obtain ⟨found, read⟩ := Option.isSome_iff_exists.1 marked
  obtain ⟨name, rest, named, clean, -, -, rfl⟩ := enclosed?_eq_some_iff.1 read
  obtain ⟨first, others, rfl⟩ := List.exists_cons_of_ne_nil named
  simp [configurationReference?, enclosed?, clean first List.mem_cons_self]

/-- A reference is read as well if less text follows it. -/
theorem reference?_of_append {found : Reference} {rest more : List Char}
    (read : reference? (found.written ++ (rest ++ more)) = some found) :
    reference? (found.written ++ rest) = some found := by
  obtain ⟨name, behind, named, clean, label, whole, shape⟩ := reference?_eq_some_iff.1 read
  obtain rfl := List.append_cancel_left whole
  refine reference?_eq_some_iff.2 ⟨name, rest, named, clean, label, rfl, ?_⟩
  rcases shape with doubled | ⟨configuration, ends⟩ | ⟨single, unmarked⟩
  · exact .inl doubled
  · refine .inr (.inl ⟨configuration, fun character first => ends character ?_⟩)
    rw [List.head?_append, Option.mem_def.1 first]
    rfl
  · refine .inr (.inr ⟨single, Option.eq_none_iff_forall_ne_some.2 fun other marked => ?_⟩)
    have still := isSome_configurationReference?_append (Option.isSome_of_eq_some marked) more
    rw [List.append_assoc, unmarked] at still
    nomatch still

/-- A reference starts with an opening brace, and a name character or another one follows. -/
theorem exists_start_of_reference? {text : List Char} {found : Reference}
    (read : reference? text = some found) :
    ∃ next rest, found.written = '\x7b' :: next :: rest ∧
      (next = '\x7b' ∨ isNameCharacter next = true) := by
  obtain ⟨name, _, named, clean, -, -, shape⟩ := reference?_eq_some_iff.1 read
  obtain ⟨first, others, rfl⟩ := List.exists_cons_of_ne_nil named
  rcases shape with doubled | ⟨configuration, -⟩ | ⟨single, -⟩
  · exact ⟨_, _, doubled, .inl rfl⟩
  · exact ⟨_, _, configuration, .inr (by decide)⟩
  · exact ⟨_, _, single, .inr (clean first List.mem_cons_self)⟩

/-- A character can stand in a reference when it is a name character, a brace or a colon. -/
def standsInReference (character : Char) : Bool :=
  isNameCharacter character || ['\x7b', '\x7d', ':'].contains character

/-- Only such characters stand in a reference. -/
theorem all_standsInReference {text : List Char} {found : Reference}
    (read : reference? text = some found) : ∀ character ∈ found.written,
      standsInReference character = true := by
  obtain ⟨name, _, -, clean, -, -, shape⟩ := reference?_eq_some_iff.1 read
  have named : ∀ character ∈ name, standsInReference character = true :=
    fun character member => Bool.or_eq_true_iff.2 (.inl (clean character member))
  have mark : ∀ character ∈ configurationMark, standsInReference character = true :=
    List.all_eq_true.1 rfl
  have opening : standsInReference '\x7b' = true := by decide
  have closing : standsInReference '\x7d' = true := by decide
  rcases shape with doubled | ⟨configuration, -⟩ | ⟨single, -⟩
  · rw [doubled]
    grind
  · rw [configuration]
    exact List.forall_mem_append.2 ⟨mark, named⟩
  · rw [single]
    grind

theorem not_mem_of_clean {name : List Char}
    (clean : ∀ character ∈ name, isNameCharacter character = true) : '\x7b' ∉ name :=
  fun member => ne_brace_of_isNameCharacter (clean _ member) rfl

/-- Behind the first brace of a doubly braced name its name is read. -/
theorem reference?_inside_doubled {name : List Char} (named : name ≠ [])
    (clean : ∀ character ∈ name, isNameCharacter character = true) (rest : List Char) :
    reference? ('\x7b' :: (name ++ ['\x7d', '\x7d'] ++ rest)) =
      some ⟨['\x7b'] ++ name ++ ['\x7d'], String.ofList name⟩ := by
  have unmarked :
      configurationReference? ('\x7b' :: (name ++ ['\x7d', '\x7d'] ++ rest)) = none := by
    refine Option.eq_none_iff_forall_ne_some.2 fun found marked => ?_
    obtain ⟨key, behind, -, -, -, -, whole⟩ := enclosed?_eq_some_iff.1 marked
    -- The mark has a colon behind its closing brace, where this text has another closing brace.
    have mark : configurationMark = '\x7b' :: ("config_source".toList ++ ['\x7d', ':']) := rfl
    have source : ∀ character ∈ "config_source".toList, isNameCharacter character = true :=
      List.all_eq_true.1 rfl
    have closes : isNameCharacter '\x7d' = false := by decide
    have ends := congrArg (fun text => (text.drop 1).dropWhile isNameCharacter) whole
    simp only [mark, List.drop_succ_cons, List.drop_zero, List.append_assoc, List.cons_append,
      dropWhile_of_endsName clean (endsName_cons closes _),
      dropWhile_of_endsName source (endsName_cons closes _)] at ends
    simp at ends
  exact reference?_eq_some_iff.2
    ⟨name, '\x7d' :: rest, named, clean, rfl, by simp, .inr (.inr ⟨rfl, unmarked⟩)⟩

/-- A text that reaches beyond an opening brace of a whole text holds that brace. -/
theorem exists_overlap {first : Char} {before rest written behind : List Char}
    (whole : first :: (before ++ '\x7b' :: rest) = written ++ behind)
    (reaches : before.length < written.length - 1) :
    ∃ more, written = first :: (before ++ '\x7b' :: more) ∧ rest = more ++ behind := by
  have halves : (first :: before) ++ '\x7b' :: rest = written ++ behind := whole
  rcases List.append_eq_append_iff.1 halves with ⟨more, reached, remaining⟩ | ⟨more, short, -⟩
  · cases more with
    | nil => simp [reached] at reaches
    | cons brace more =>
        obtain ⟨rfl, same⟩ := List.cons.inj remaining
        exact ⟨more, reached, same⟩
  · have total := congrArg List.length short
    rw [List.length_cons, List.length_append] at total
    omega

/-- A reference that reaches into another one that is read behind its start is a doubly braced name,
and both have this name. -/
theorem name_eq_of_overlap {character : Char} {before rest : List Char} {found other : Reference}
    (first : reference? (character :: (before ++ rest)) = some other)
    (second : reference? rest = some found)
    (reaches : before.length < other.written.length - 1) : other.name = found.name := by
  obtain ⟨next, others, starts, -⟩ := exists_start_of_reference? second
  obtain ⟨name, behind, named, clean, label, whole, shape⟩ := reference?_eq_some_iff.1 first
  obtain ⟨tail, rfl⟩ := (written_of_reference? second).1
  rw [starts] at whole
  obtain ⟨more, reached, remaining⟩ := exists_overlap whole reaches
  have closed (text : List Char) (unopened : '\x7b' ∉ text) :
      text ≠ before ++ '\x7b' :: more := by
    rintro rfl
    simp at unopened
  have unopened := not_mem_of_clean clean
  -- Only a doubly braced name has an opening brace behind its first character.
  rcases shape with doubled | ⟨configuration, -⟩ | ⟨single, -⟩
  · have inside : '\x7b' :: (name ++ ['\x7d', '\x7d']) = before ++ '\x7b' :: more :=
      (List.cons.inj (doubled.symm.trans reached)).2
    cases before with
    | nil =>
        have same : name ++ ['\x7d', '\x7d'] = more := (List.cons.inj inside).2
        have stands : found.written ++ tail = '\x7b' :: (name ++ ['\x7d', '\x7d'] ++ behind) := by
          rw [starts, same]
          exact congrArg (List.cons _) remaining
        rw [stands, reference?_inside_doubled named clean] at second
        rw [label, ← Option.some.inj second]
    | cons _ before =>
        have deeper : name ++ ['\x7d', '\x7d'] = before ++ '\x7b' :: more :=
          (List.cons.inj inside).2
        have present : '\x7b' ∈ name ++ ['\x7d', '\x7d'] := by simp [deeper]
        simp [unopened] at present
  · have inside : "config_source\x7d:".toList ++ name = before ++ '\x7b' :: more :=
      (List.cons.inj (configuration.symm.trans reached)).2
    refine absurd inside (closed _ ?_)
    rw [List.mem_append, not_or]
    exact ⟨by decide, unopened⟩
  · have inside : name ++ ['\x7d'] = before ++ '\x7b' :: more :=
      (List.cons.inj (single.symm.trans reached)).2
    exact absurd inside (closed _ (by simp [unopened]))

/-- A reference that is read at some place of a text is one of the references of the text, or it
lies inside of one with the same name. -/
theorem exists_reference_of_read {found : Reference} {rest : List Char}
    (read : reference? rest = some found) (before : List Char) {pending : Nat}
    (skipped : pending ≤ before.length) :
    ∃ other, .reference other ∈ segmentsFrom pending (before ++ rest) ∧
      other.name = found.name := by
  induction before generalizing pending with
  | nil =>
      obtain rfl := Nat.le_zero.1 skipped
      obtain ⟨next, others, starts, -⟩ := exists_start_of_reference? read
      obtain ⟨behind, whole⟩ := (written_of_reference? read).1
      rw [starts] at whole
      subst whole
      refine ⟨found, ?_, rfl⟩
      rw [List.nil_append, List.cons_append, segmentsFrom]
      rw [List.cons_append] at read
      rw [read]
      exact List.mem_cons_self
  | cons character before inductionHypothesis =>
      cases pending with
      | succ pending => exact inductionHypothesis (Nat.le_of_succ_le_succ skipped)
      | zero =>
          rw [List.cons_append, segmentsFrom]
          cases here : reference? (character :: (before ++ rest)) with
          | none =>
              obtain ⟨other, member, same⟩ := inductionHypothesis (Nat.zero_le _)
              exact ⟨other, List.mem_cons_of_mem _ member, same⟩
          | some first =>
              rcases Nat.lt_or_ge before.length (first.written.length - 1) with reaches | ends
              · exact ⟨first, List.mem_cons_self, name_eq_of_overlap here read reaches⟩
              · obtain ⟨other, member, same⟩ := inductionHypothesis ends
                exact ⟨other, List.mem_cons_of_mem _ member, same⟩

/-- Skipping characters is scanning what is behind them. -/
theorem segmentsFrom_drop (pending : Nat) (text : List Char) :
    segmentsFrom pending text = segmentsFrom 0 (text.drop pending) := by
  induction text generalizing pending with
  | nil => cases pending <;> rfl
  | cons character rest inductionHypothesis =>
      cases pending with
      | zero => rfl
      | succ pending => exact inductionHypothesis pending

/-- A reference at the start of a text is the first segment, and the others are those of the text
behind it. -/
theorem segmentsFrom_reference {found : Reference} {rest : List Char}
    (read : reference? (found.written ++ rest) = some found) :
    segmentsFrom 0 (found.written ++ rest) = .reference found :: segmentsFrom 0 rest := by
  obtain ⟨next, others, starts, -⟩ := exists_start_of_reference? read
  rw [starts, List.cons_append] at read ⊢
  rw [segmentsFrom, read]
  change _ :: segmentsFrom (found.written.length - 1) _ = _
  rw [segmentsFrom_drop, starts]
  simp

/-- Where a reference stands among the segments, it is read in front of what the segments behind it
make up. -/
theorem reference?_of_segmentsFrom {pending : Nat} {text : List Char} {before after : List Segment}
    {found : Reference} (split : segmentsFrom pending text = before ++ .reference found :: after) :
    reference? (found.written ++ after.flatMap Segment.written) = some found := by
  induction text generalizing pending before with
  | nil =>
      have nothing : before ++ .reference found :: after = [] := by
        rw [← split]
        cases pending <;> rfl
      simp at nothing
  | cons character rest inductionHypothesis =>
      cases pending with
      | succ pending => exact inductionHypothesis split
      | zero =>
          rw [segmentsFrom] at split
          cases read : reference? (character :: rest) with
          | none =>
              rw [read] at split
              cases before with
              | nil => cases (List.cons.inj split).1
              | cons _ before => exact inductionHypothesis (List.cons.inj split).2
          | some first =>
              rw [read] at split
              cases before with
              | cons _ before => exact inductionHypothesis (List.cons.inj split).2
              | nil =>
                  obtain ⟨same, behind⟩ := List.cons.inj split
                  obtain rfl := Segment.reference.inj same
                  have parts := written_segmentsFrom 0 (character :: rest)
                  rw [segmentsFrom, read] at parts
                  change first.written ++ (segmentsFrom _ rest).flatMap Segment.written =
                    character :: rest at parts
                  rw [← behind, parts]
                  exact read

end WorkflowBundle.Variable
