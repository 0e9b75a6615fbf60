/-
This file divides a text into the pieces that its reader takes for one event each.
-/

import Mathlib.Data.List.DropRight
import WorkflowBundle.Proofs.Xml.Document

namespace WorkflowBundle.Xml

/-- A piece of a text is what is written for one event, and the white space before it. -/
structure Piece where
  space : List Char
  written : List Char
  event : Event

namespace Piece

/-- A piece takes its white space and what is written behind it. -/
def characters (piece : Piece) : List Char :=
  piece.space ++ piece.written

/-- Behind its white space a piece is markup, as it is read before the characters that follow. Or it
is a text that lasts until the next markup, and white space at its end is no part of the event. -/
inductive IsReadBefore : Piece → List Char → Prop where
  | markup {space taken following : List Char} {event : Event}
      (blank : ∀ character ∈ space, isSpace character = true)
      (read : Event.ofMarkup (taken ++ following) = .ok (event, following)) :
      IsReadBefore ⟨space, '<' :: taken, event⟩ following
  | text {space others following : List Char} {first : Char}
      (blank : ∀ character ∈ space, isSpace character = true)
      (visible : isSpace first = false)
      (plain : ∀ character ∈ first :: others, character ≠ '<') (separate : AtMarkup following) :
      IsReadBefore ⟨space, first :: others, .text ((first :: others).rdropWhile isSpace)⟩ following

/-- The event of a piece that starts behind some bytes. -/
def placed (before : Nat) (piece : Piece) : Placed :=
  ⟨piece.event, before, before + Text.byteSize piece.space,
    before + Text.byteSize piece.characters⟩

theorem IsReadBefore.written_ne_nil {piece : Piece} {following : List Char}
    (first : piece.IsReadBefore following) : piece.written ≠ [] := by
  cases first <;> exact List.cons_ne_nil _ _

theorem IsReadBefore.blank_space {piece : Piece} {following : List Char}
    (first : piece.IsReadBefore following) :
    ∀ character ∈ piece.space, isSpace character = true := by
  cases first <;> assumption

/-- The white space of a piece is all that stands before its first other character. -/
theorem IsReadBefore.divide_space {piece : Piece} {following : List Char}
    (first : piece.IsReadBefore following) :
    (piece.characters ++ following).takeWhile isSpace = piece.space ∧
      (piece.characters ++ following).dropWhile isSpace = piece.written ++ following := by
  have blank := first.blank_space
  rw [characters, List.append_assoc, List.takeWhile_append_of_pos blank,
    List.dropWhile_append_of_pos blank]
  cases first with
  | markup blank read => exact ⟨List.append_nil _, rfl⟩
  | text blank visible plain separate => simp [visible]

end Piece

/-- A text is divided into pieces, each of which is read before the others, and a rest. -/
inductive Divides : List Piece → List Char → List Char → Prop where
  | done (rest : List Char) : Divides [] rest rest
  | take {piece : Piece} {pieces : List Piece} {following rest : List Char}
      (first : piece.IsReadBefore following) (others : Divides pieces following rest) :
      Divides (piece :: pieces) (piece.characters ++ following) rest

/-- The pieces of a text that starts behind some bytes are placed one behind the other. -/
def place : Nat → List Piece → List Placed
  | _, [] => []
  | before, piece :: pieces =>
    piece.placed before :: place (before + Text.byteSize piece.characters) pieces

/-- A divided text consists of the pieces and the rest. -/
theorem Divides.source_eq {pieces : List Piece} {source rest : List Char}
    (divided : Divides pieces source rest) :
    source = pieces.flatMap Piece.characters ++ rest := by
  induction divided with
  | done rest => rfl
  | take first others inductionHypothesis =>
      rw [List.flatMap_cons, List.append_assoc, ← inductionHypothesis]

theorem Divides.length_le {pieces : List Piece} {source rest : List Char}
    (divided : Divides pieces source rest) : pieces.length ≤ source.length := by
  induction divided with
  | done rest => exact Nat.zero_le _
  | take first others inductionHypothesis =>
      have written := List.length_pos_iff.2 first.written_ne_nil
      rw [List.length_cons, List.length_append, Piece.characters, List.length_append]
      omega

@[simp] theorem map_event_place (before : Nat) (pieces : List Piece) :
    (place before pieces).map Placed.event = pieces.map Piece.event := by
  induction pieces generalizing before with
  | nil => rfl
  | cons piece pieces inductionHypothesis =>
      rw [place, List.map_cons, List.map_cons, inductionHypothesis]
      rfl

/-- An event among the placed ones is that of a piece, behind the bytes of the pieces before it. -/
theorem exists_of_place_eq_append {before : Nat} {pieces : List Piece}
    {earlier later : List Placed} {placed : Placed}
    (divided : place before pieces = earlier ++ placed :: later) :
    ∃ first piece second, pieces = first ++ piece :: second ∧ place before first = earlier ∧
      placed = piece.placed (before + Text.byteSize (first.flatMap Piece.characters)) := by
  induction earlier generalizing before pieces with
  | nil =>
      cases pieces with
      | nil => nomatch divided
      | cons piece pieces => exact ⟨[], piece, pieces, rfl, rfl, (List.cons.inj divided).1.symm⟩
  | cons previous earlier inductionHypothesis =>
      cases pieces with
      | nil => nomatch divided
      | cons piece pieces =>
          obtain ⟨rfl, others⟩ := List.cons.inj divided
          obtain ⟨first, found, second, rfl, rfl, rfl⟩ := inductionHypothesis others
          refine ⟨piece :: first, found, second, rfl, rfl, ?_⟩
          rw [List.flatMap_cons, Text.byteSize_append, Nat.add_assoc]

namespace Events

theorem readWithin_end {source : List Char} (blank : ∀ character ∈ source, isSpace character = true)
    (fuel before : Nat) : readWithin fuel before source = ⟨[], none⟩ := by
  cases fuel with
  | zero => rfl
  | succ fuel => simp only [readWithin, List.dropWhile_eq_nil_iff.2 blank]

/-- A piece at the start of a text is its first event, and the others are those of the characters
that follow. -/
theorem readWithin_take {piece : Piece} {following : List Char}
    (first : piece.IsReadBefore following) (fuel before : Nat) :
    readWithin (fuel + 1) before (piece.characters ++ following) =
      (readWithin fuel (before + Text.byteSize piece.characters) following).prepend
        (piece.placed before) := by
  obtain ⟨spaced, starts⟩ := first.divide_space
  rw [readWithin, spaced, starts]
  rw [Piece.placed, Piece.characters, Text.byteSize_append, ← Nat.add_assoc]
  cases first with
  | @markup space taken following event blank read =>
      have size : Text.byteSize ('<' :: taken) = 1 + Text.byteSize taken :=
        Text.byteSize_append ['<'] taken
      have stop (start : Nat) :
          start + 1 + Text.byteSize (taken ++ following) - Text.byteSize following =
            start + Text.byteSize ('<' :: taken) := by
        rw [size, Text.byteSize_append]
        omega
      simp only [List.cons_append, read, stop]
  | @text space others following first blank visible plain separate =>
      have kept : ∀ character ∈ first :: others, (character != '<') = true := by
        simpa using plain
      have nothing : following.takeWhile (· != '<') = [] := by
        have divided := List.takeWhile_append_dropWhile (p := (· != '<')) (l := following)
        rw [separate] at divided
        exact List.append_left_eq_self.1 divided
      simp only
      split
      · rename_i empty
        nomatch empty
      · rename_i bracket
        obtain ⟨rfl, -⟩ := List.cons.inj bracket
        exact absurd rfl (plain '<' List.mem_cons_self)
      · rw [List.takeWhile_append_of_pos kept, List.dropWhile_append_of_pos kept, separate,
          nothing, List.append_nil]
        rfl

end Events

/-- A text is blank, or it starts with a piece, or its first markup is at fault. -/
theorem exists_piece (source : List Char) :
    (∀ character ∈ source, isSpace character = true) ∨
      (∃ (piece : Piece) (following : List Char), piece.IsReadBefore following ∧
        source = piece.characters ++ following) ∨
      ∃ space markup fault, (∀ character ∈ space, isSpace character = true) ∧
        Event.ofMarkup markup = .error fault ∧ source = space ++ '<' :: markup := by
  have divided : source = source.takeWhile isSpace ++ source.dropWhile isSpace :=
    List.takeWhile_append_dropWhile.symm
  have blank : ∀ character ∈ source.takeWhile isSpace, isSpace character = true :=
    fun _ => List.mem_takeWhile_imp
  cases behind : source.dropWhile isSpace with
  | nil => exact .inl (List.dropWhile_eq_nil_iff.1 behind)
  | cons first others =>
      rw [behind] at divided
      by_cases bracket : first = '<'
      · subst bracket
        cases read : Event.ofMarkup others with
        | error fault => exact .inr (.inr ⟨_, others, fault, blank, read, divided⟩)
        | ok result =>
            obtain ⟨event, following⟩ := result
            obtain ⟨taken, rfl, -⟩ := Event.exists_taken_of_ofMarkup read
            refine .inr (.inl ⟨_, following, .markup blank read, ?_⟩)
            rw [Piece.characters, List.append_assoc]
            exact divided
      · have visible : isSpace first = false := by
          have head := List.head?_dropWhile_not isSpace source
          rw [behind] at head
          exact head
        have kept : ∀ character ∈ first :: others.takeWhile (· != '<'), character ≠ '<' := by
          intro character member
          rcases List.mem_cons.1 member with rfl | later
          · exact bracket
          · simpa using List.mem_takeWhile_imp later
        have separate : AtMarkup (others.dropWhile (· != '<')) := List.dropWhile_idempotent _ _
        refine .inr (.inl ⟨_, _, .text blank visible kept separate, ?_⟩)
        rw [Piece.characters, List.append_assoc, List.cons_append, List.takeWhile_append_dropWhile]
        exact divided

namespace Events

/-- A text whose first markup is at fault has no events. -/
theorem readWithin_fault {space markup : List Char} {fault : MarkupFault}
    (blank : ∀ character ∈ space, isSpace character = true)
    (read : Event.ofMarkup markup = .error fault) (fuel before : Nat) :
    ∃ offset, readWithin (fuel + 1) before (space ++ '<' :: markup) =
      ⟨[], some (fault, offset)⟩ := by
  have starts : (space ++ '<' :: markup).dropWhile isSpace = '<' :: markup := by
    rw [List.dropWhile_append_of_pos blank]
    rfl
  simp only [readWithin, starts, read]
  exact ⟨_, rfl⟩

/-- A text that is divided up to white space is read as its pieces. -/
theorem readWithin_of_divides {pieces : List Piece} {source rest : List Char}
    (divided : Divides pieces source rest)
    (ends : ∀ character ∈ rest, isSpace character = true) {fuel : Nat}
    (enough : pieces.length ≤ fuel) (before : Nat) :
    readWithin fuel before source = ⟨place before pieces, none⟩ := by
  induction divided generalizing fuel before with
  | done rest => exact readWithin_end ends fuel before
  | take first others inductionHypothesis =>
      obtain ⟨fuel, rfl⟩ := Nat.exists_eq_add_one_of_ne_zero (Nat.ne_zero_of_lt enough)
      rw [readWithin_take first, inductionHypothesis ends (Nat.le_of_succ_le_succ enough)]
      rfl

/-- The events that are read are the pieces of the text, and when no fault ends them the rest is
white space. -/
theorem divides_of_readWithin (fuel before : Nat) (source : List Char) :
    ∃ pieces rest, Divides pieces source rest ∧
      (readWithin fuel before source).placed = place before pieces ∧
      (source.length < fuel → (readWithin fuel before source).fault = none →
        ∀ character ∈ rest, isSpace character = true) := by
  induction fuel generalizing before source with
  | zero => exact ⟨[], source, .done source, rfl, nofun⟩
  | succ fuel inductionHypothesis =>
      rcases exists_piece source with
        blank | ⟨piece, following, first, rfl⟩ | ⟨space, markup, fault, blank, read, rfl⟩
      · rw [readWithin_end blank]
        exact ⟨[], source, .done source, rfl, fun _ _ => blank⟩
      · obtain ⟨pieces, rest, divided, read, ends⟩ :=
          inductionHypothesis (before + Text.byteSize piece.characters) following
        rw [readWithin_take first]
        refine ⟨piece :: pieces, rest, .take first divided, congrArg (_ :: ·) read, ?_⟩
        intro enough sound
        refine ends ?_ sound
        have written := List.length_pos_iff.2 first.written_ne_nil
        rw [List.length_append, Piece.characters, List.length_append] at enough
        omega
      · obtain ⟨offset, faulty⟩ := readWithin_fault blank read fuel before
        rw [faulty]
        exact ⟨[], _, .done _, rfl, nofun⟩

theorem read_eq (text : String) :
    read text = readWithin ((withoutMark text.toList).length + 1) 0
      (withoutMark text.toList) := rfl

end Events

/-- A text delivers events when it is divided into their pieces up to white space at its end. -/
def Delivers (text : String) (events : List Event) : Prop :=
  ∃ pieces rest, Divides pieces (withoutMark text.toList) rest ∧
    (∀ character ∈ rest, isSpace character = true) ∧ pieces.map Piece.event = events

/-- The reader comes to the end of a text without a fault when the text delivers the events. -/
theorem delivers_iff_read (text : String) (events : List Event) :
    Delivers text events ↔
      (Events.read text).fault = none ∧ (Events.read text).placed.map Placed.event = events := by
  rw [Events.read_eq]
  constructor
  · rintro ⟨pieces, rest, divided, ends, rfl⟩
    have enough : pieces.length ≤ (withoutMark text.toList).length + 1 :=
      Nat.le_succ_of_le divided.length_le
    rw [Events.readWithin_of_divides divided ends enough]
    exact ⟨rfl, map_event_place 0 pieces⟩
  · rintro ⟨sound, rfl⟩
    obtain ⟨pieces, rest, divided, read, ends⟩ :=
      Events.divides_of_readWithin ((withoutMark text.toList).length + 1) 0
        (withoutMark text.toList)
    refine ⟨pieces, rest, divided, ends (Nat.lt_succ_self _) sound, ?_⟩
    rw [read, map_event_place]

end WorkflowBundle.Xml
