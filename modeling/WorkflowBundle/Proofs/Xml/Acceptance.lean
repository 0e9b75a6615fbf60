/-
This file shows that every document that can be read as a tree is well formed.
-/

import WorkflowBundle.Proofs.Outcome
import WorkflowBundle.Proofs.Xml.Division
import WorkflowBundle.Xml.WellFormed

namespace WorkflowBundle.Xml

/-- The nesting of a reading has the names of the open elements, and a root was met when one is open
or was closed. -/
def Reading.nesting (reading : Reading) : Nesting :=
  ⟨reading.frames.map Frame.name, reading.root.isSome || !reading.frames.isEmpty⟩

/-- A node that is added keeps the open elements and belongs to the root. Text is added inside of an
element only. -/
theorem Reading.nesting_of_add {reading next : Reading} {node : Node}
    (added : reading.add node = some next) :
    next.nesting = ⟨reading.frames.map Frame.name, true⟩ ∧
      (reading.frames = [] → node.isElement = true ∧ reading.root = none) := by
  obtain ⟨frames, root⟩ := reading
  cases frames with
  | nil =>
      simp only [add] at added
      split at added
      · rename_i allowed
        obtain ⟨element, first⟩ := Bool.and_eq_true_iff.1 allowed
        obtain rfl := Option.some.inj added
        exact ⟨rfl, fun _ => ⟨element, Option.isNone_iff_eq_none.1 first⟩⟩
      · nomatch added
  | cons frame frames =>
      obtain rfl := Option.some.inj added
      simp [nesting]

theorem Reading.nesting_of_open {reading : Reading} (inside : reading.frames ≠ []) :
    reading.nesting = ⟨reading.frames.map Frame.name, true⟩ := by
  simp [nesting, inside]

theorem tagName_of_readTag {content : List Char} {tag : List Char × List (List Char × List Char)}
    (read : readTag content = some tag) : tag.1 = Event.tagName content := by
  obtain ⟨_, -, rfl⟩ := Option.map_eq_some_iff.1 read
  rfl

theorem isAsciiBlank_of_isSpace {character : Char} (space : isSpace character = true) :
    Text.isAsciiBlank character = true := by
  simp only [isSpace, Bool.or_eq_true, beq_iff_eq] at space
  rcases space with ((rfl | rfl) | rfl) | rfl <;> rfl

/-- Writing text keeps the nesting. -/
theorem Reading.nesting_of_write {reading next : Reading} {content : List Char}
    (written : reading.write content = some next) :
    next.nesting = reading.nesting ∧
      (reading.frames = [] → ∀ character ∈ content, isSpace character = true) := by
  rw [write] at written
  by_cases outside : reading.frames = []
  · rw [if_pos (by simp [outside])] at written
    split at written
    · rename_i blank
      obtain rfl := Option.some.inj written
      exact ⟨rfl, fun _ => List.all_eq_true.1 blank⟩
    · nomatch written
  · rw [if_neg (by simp [outside])] at written
    obtain ⟨decoded, -, added⟩ := Option.bind_eq_some_iff.1 written
    rw [(nesting_of_add added).1, nesting_of_open outside]
    exact ⟨rfl, fun empty => absurd empty outside⟩

/-- Where an element may stand, it may start a root or belong to one. -/
theorem Nesting.addRoot_of_allowed {reading : Reading}
    (allowed : reading.frames = [] → reading.root = none) (offset : Nat) :
    reading.nesting.addRoot offset = .ok ⟨reading.frames.map Frame.name, true⟩ := by
  obtain ⟨frames, root⟩ := reading
  cases frames with
  | nil =>
      obtain rfl : root = none := allowed rfl
      rfl
  | cons frame frames => rfl

/-- An element that is entered is open. -/
theorem Reading.nesting_of_enter {reading next : Reading}
    {tag : List Char × List (List Char × List Char)} (entered : reading.enter tag = some next) :
    next.nesting = ⟨tag.1 :: reading.frames.map Frame.name, true⟩ ∧
      (reading.frames = [] → reading.root = none) := by
  rw [enter] at entered
  split at entered
  · nomatch entered
  · rename_i allowed
    obtain rfl := Option.some.inj entered
    refine ⟨by simp [nesting], fun outside => ?_⟩
    simpa [outside] using allowed

/-- An element that is left was the innermost one. -/
theorem Nesting.close_of_leave {reading next : Reading} {name : List Char}
    (left : reading.leave name = some next) (offset : Nat) :
    reading.nesting.close name offset = .ok next.nesting := by
  obtain ⟨frames, root⟩ := reading
  cases frames with
  | nil => nomatch left
  | cons frame frames =>
      simp only [Reading.leave] at left
      split at left
      · rename_i same
        rw [(Reading.nesting_of_add left).1]
        simp [close, Reading.nesting, same]
      · nomatch left

/-- An event that can be read has its place in the nesting. -/
theorem Nesting.step_of_reading {reading next : Reading} (placed : Placed)
    (read : reading.step placed.event = some next) :
    Nesting.step reading.nesting placed = .ok next.nesting := by
  obtain ⟨event, before, start, stop⟩ := placed
  match event, read with
  | .opening content, read =>
      obtain ⟨tag, named, entered⟩ := Option.bind_eq_some_iff.1 read
      obtain ⟨nested, allowed⟩ := Reading.nesting_of_enter entered
      rw [nested, tagName_of_readTag named, step, addRoot_of_allowed allowed]
      rfl
  | .empty content, read =>
      obtain ⟨tag, -, added⟩ := Option.bind_eq_some_iff.1 read
      obtain ⟨nested, allowed⟩ := Reading.nesting_of_add added
      rw [nested]
      exact addRoot_of_allowed (fun outside => (allowed outside).2) before
  | .closing name, read => exact close_of_leave read start
  | .text content, read =>
      obtain ⟨same, blank⟩ := Reading.nesting_of_write read
      rw [same]
      refine if_neg ?_
      intro stray
      obtain ⟨outer, visible⟩ := Bool.and_eq_true_iff.1 stray
      have outside : reading.frames = [] := by simpa [Reading.nesting] using outer
      have invisible : content.all Text.isAsciiBlank = true :=
        List.all_eq_true.2 fun character member =>
          isAsciiBlank_of_isSpace (blank outside character member)
      simp [invisible] at visible
  | .section content, read =>
      obtain ⟨nested, allowed⟩ := Reading.nesting_of_add read
      have inside : reading.frames ≠ [] := fun outside => nomatch (allowed outside).1
      rw [nested, ← Reading.nesting_of_open inside]
      refine if_neg ?_
      simpa [Reading.nesting] using inside
  | .comment _, read | .doctype _, read | .instruction _, read =>
      obtain rfl := Option.some.inj read
      rfl

/-- Text with visible characters is one piece up to the next markup. -/
theorem Piece.exists_of_text {content rest : List Char}
    (visible : content.dropWhile isSpace ≠ []) (plain : ∀ character ∈ content, character ≠ '<')
    (separate : AtMarkup rest) :
    ∃ (piece : Piece) (trimmed : List Char), piece.IsReadBefore rest ∧
      piece.characters = content ∧ piece.event = .text trimmed := by
  obtain ⟨first, others, shape⟩ := List.exists_cons_of_ne_nil visible
  have head := List.head?_dropWhile_not isSpace content
  rw [shape] at head
  have kept : ∀ character ∈ first :: others, character ≠ '<' := by
    intro character member
    exact plain character ((List.dropWhile_suffix (l := content) isSpace).subset (shape ▸ member))
  have blank : ∀ character ∈ content.takeWhile isSpace, isSpace character = true :=
    fun _ => List.mem_takeWhile_imp
  refine ⟨_, _, .text blank head kept separate, ?_, rfl⟩
  rw [characters, ← shape, List.takeWhile_append_dropWhile]

/-- Characters lead from one nesting to another when the events that are read from them do, and there
is no fault. -/
def Events.Leads (fuel before : Nat) (source : List Char) (first last : Nesting) : Prop :=
  (readWithin fuel before source).fault = none ∧
    (readWithin fuel before source).placed.foldlM Nesting.step first = .ok last

theorem Events.leads_blank {space : List Char}
    (blank : ∀ character ∈ space, isSpace character = true) (fuel before : Nat)
    (nesting : Nesting) : Leads fuel before space nesting nesting := by
  rw [Leads, readWithin_end blank]
  exact ⟨rfl, rfl⟩

/-- A piece at the start makes the first step, and the characters that follow make the others. -/
theorem Events.leads_piece {piece : Piece} {following : List Char} {fuel before : Nat}
    {first next last : Nesting} (whole : piece.IsReadBefore following)
    (step : Nesting.step first (piece.placed before) = .ok next)
    (behind : Leads fuel (before + Text.byteSize piece.characters) following next last) :
    Leads (fuel + 1) before (piece.characters ++ following) first last := by
  obtain ⟨sound, nested⟩ := behind
  rw [Leads, readWithin_take whole]
  refine ⟨sound, ?_⟩
  change (piece.placed before :: _).foldlM Nesting.step first = _
  rw [List.foldlM_cons, step]
  exact nested

/-- Markup behind white space makes the step of its event. -/
theorem Events.leads_markup {space taken rest : List Char} {event : Event}
    {reading next : Reading} {fuel before : Nat} {last : Nesting}
    (blank : ∀ character ∈ space, isSpace character = true)
    (found : Event.ofMarkup (taken ++ rest) = .ok (event, rest))
    (read : reading.step event = some next)
    (behind : ∀ before, Leads fuel before rest next.nesting last) :
    Leads (fuel + 1) before (space ++ '<' :: (taken ++ rest)) reading.nesting last := by
  let piece : Piece := ⟨space, '<' :: taken, event⟩
  have here : space ++ '<' :: (taken ++ rest) = piece.characters ++ rest :=
    (List.append_assoc space ('<' :: taken) rest).symm
  rw [here]
  exact leads_piece (.markup blank found) (Nesting.step_of_reading (piece.placed before) read)
    (behind _)

/-- Text with visible characters keeps the nesting, as it stands inside of an element. -/
theorem Events.leads_text {content rest : List Char} {reading next : Reading} {fuel before : Nat}
    {last : Nesting} (visible : content.dropWhile isSpace ≠ [])
    (plain : ∀ character ∈ content, character ≠ '<') (separate : AtMarkup rest)
    (written : reading.write content = some next)
    (behind : ∀ before, Leads fuel before rest next.nesting last) :
    Leads (fuel + 1) before (content ++ rest) reading.nesting last := by
  obtain ⟨same, blankOutside⟩ := Reading.nesting_of_write written
  obtain ⟨piece, trimmed, whole, rfl, text⟩ := Piece.exists_of_text visible plain separate
  have inside : reading.frames ≠ [] := fun outside =>
    visible (List.dropWhile_eq_nil_iff.2 (blankOutside outside))
  have step : Nesting.step reading.nesting (piece.placed before) = .ok reading.nesting := by
    rw [Nesting.step, Piece.placed, text]
    refine if_neg ?_
    simp [Reading.nesting, inside]
  rw [same] at behind
  exact leads_piece whole step (behind _)

/-- A text up to the next markup is divided from it. -/
theorem Events.divide_text {character : Char} {rest : List Char} (plain : character ≠ '<') :
    character :: rest =
        (character :: rest.takeWhile (· != '<')) ++ rest.dropWhile (· != '<') ∧
      (∀ other ∈ character :: rest.takeWhile (· != '<'), other ≠ '<') ∧
      AtMarkup (rest.dropWhile (· != '<')) := by
  refine ⟨?_, ?_, List.dropWhile_idempotent _ _⟩
  · rw [List.cons_append, List.takeWhile_append_dropWhile]
  · intro other member
    rcases List.mem_cons.1 member with rfl | later
    · exact plain
    · simpa using List.mem_takeWhile_imp later

/-- A document that can be read runs through the nesting as well, also behind white space. -/
theorem Events.leads_of_reading {space source : List Char} {events : List Event}
    {reading final : Reading} (blank : ∀ character ∈ space, isSpace character = true)
    (separate : space = [] ∨ AtMarkup source) (divided : events? source = some events)
    (read : events.foldlM Reading.step reading = some final) (fuel before : Nat)
    (enough : (space ++ source).length < fuel) :
    Leads fuel before (space ++ source) reading.nesting final.nesting := by
  induction source using events?.induct generalizing space events reading fuel before with
  | case1 =>
      rw [events?_nil] at divided
      obtain rfl := Option.some.inj divided
      obtain rfl := Option.some.inj read
      rw [List.append_nil]
      exact leads_blank blank fuel before reading.nesting
  | case2 markup event rest found inductionHypothesis =>
      rw [events?_markup found] at divided
      obtain ⟨others, remaining, rfl⟩ := Option.map_eq_some_iff.1 divided
      rw [List.foldlM_cons] at read
      obtain ⟨next, first, read⟩ := Option.bind_eq_some_iff.1 read
      obtain ⟨fuel, rfl⟩ := Nat.exists_eq_add_one_of_ne_zero (Nat.ne_zero_of_lt enough)
      obtain ⟨taken, rfl, -⟩ := Event.exists_taken_of_ofMarkup found
      simp only [List.length_append, List.length_cons] at enough
      refine leads_markup blank found first fun before => ?_
      exact inductionHypothesis (List.forall_mem_nil (isSpace · = true)) (.inl rfl) remaining read
        fuel before (by simp only [List.nil_append]; omega)
  | case3 markup fault found =>
      rw [events?_fault found] at divided
      nomatch divided
  | case4 character rest plain inductionHypothesis =>
      obtain ⟨divides, kept, tail⟩ := @divide_text character rest plain
      -- White space is followed by markup only, so that none stands before this text.
      obtain rfl : space = [] := by
        refine separate.resolve_right fun there => ?_
        have shorter := (List.dropWhile_suffix (l := rest) (· != '<')).length_le
        rw [AtMarkup, List.dropWhile_cons_of_pos (by simpa using plain)] at there
        rw [there, List.length_cons] at shorter
        omega
      rw [events?_cons plain] at divided
      obtain ⟨others, remaining, rfl⟩ := Option.map_eq_some_iff.1 divided
      rw [List.foldlM_cons] at read
      obtain ⟨next, first, read⟩ := Option.bind_eq_some_iff.1 read
      rw [List.nil_append, divides] at enough ⊢
      by_cases visible : (character :: rest.takeWhile (· != '<')).dropWhile isSpace = []
      · -- Blank text is no event of its own and counts as white space before what follows.
        rw [← (Reading.nesting_of_write first).1]
        exact inductionHypothesis (List.dropWhile_eq_nil_iff.1 visible) (.inr tail) remaining read
          fuel before enough
      · obtain ⟨fuel, rfl⟩ := Nat.exists_eq_add_one_of_ne_zero (Nat.ne_zero_of_lt enough)
        simp only [List.length_append, List.length_cons] at enough
        refine leads_text visible kept tail first fun before => ?_
        exact inductionHypothesis (List.forall_mem_nil (isSpace · = true)) (.inl rfl) remaining
          read fuel before (by simp only [List.nil_append]; omega)

/-- Every document that can be read as a tree is well formed. -/
theorem checkWellFormed_of_document? {text : String} {root : Node}
    (document : document? text = some root) : checkWellFormed text = .ok () := by
  obtain ⟨events, divided, document⟩ := Option.bind_eq_some_iff.1 document
  obtain ⟨reading, read, document⟩ := Option.bind_eq_some_iff.1 document
  obtain ⟨sound, nested⟩ := Events.leads_of_reading (List.forall_mem_nil (isSpace · = true))
    (.inl rfl) divided read _ 0 (Nat.lt_succ_self _)
  split at document
  · rename_i closed
    have finished : reading.nesting = ⟨[], true⟩ := by
      have outside : reading.frames = [] := by simpa using closed
      simp [Reading.nesting, outside, document]
    rw [finished] at nested
    rw [List.nil_append] at sound nested
    rw [checkWellFormed, Events.read_eq]
    refine Outcome.bind_eq_ok_iff.2 ⟨⟨[], true⟩, nested, ?_⟩
    simp only [sound]
    rfl
  · nomatch document

end WorkflowBundle.Xml
