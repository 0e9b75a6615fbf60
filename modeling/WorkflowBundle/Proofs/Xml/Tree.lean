/-
This file shows that a text is well formed exactly when its events are those of one element tree and
of white space, comments, declarations and instructions around it.
-/

import WorkflowBundle.Proofs.Outcome
import WorkflowBundle.Proofs.Xml.Division
import WorkflowBundle.Xml.WellFormed

namespace WorkflowBundle.Xml

/-- Tags open and close elements. -/
def Event.isTag : Event → Bool
  | .opening _ | .empty _ | .closing _ => true
  | .text _ | .section _ | .comment _ | .doctype _ | .instruction _ => false

/-- White space, comments, declarations and instructions may stand outside of the root element. The
declaration of the version of the markup is an instruction here. -/
def Event.isOuter : Event → Bool
  | .text content => content.all Text.isAsciiBlank
  | .comment _ | .doctype _ | .instruction _ => true
  | .opening _ | .empty _ | .closing _ | .section _ => false

/-- A tree is an event that is no tag, an element written as one tag, or an element with the trees
between its tags. -/
inductive Tree where
  | leaf (event : Event) (untagged : event.isTag = false)
  | empty (content : List Char)
  | element (content : List Char) (children : List Tree)

namespace Tree

mutual

/-- The traversal of an element meets its opening tag, then its children, and last the closing tag
with the name of the opening one. -/
def events : Tree → List Event
  | .leaf event _ => [event]
  | .empty content => [.empty content]
  | .element content children =>
    .opening content :: eventsOf children ++ [.closing (Event.tagName content)]

/-- Trees are traversed in order. -/
def eventsOf : List Tree → List Event
  | [] => []
  | tree :: trees => tree.events ++ eventsOf trees

end

def isElement : Tree → Bool
  | .leaf .. => false
  | .empty _ | .element .. => true

end Tree

/-- The events of a document are those of its root element, and before and behind them others that
may stand outside of it. -/
def IsDocument (events : List Event) : Prop :=
  ∃ (before : List Event) (tree : Tree) (after : List Event),
    events = before ++ tree.events ++ after ∧ tree.isElement = true ∧
      (∀ event ∈ before, event.isOuter = true) ∧ ∀ event ∈ after, event.isOuter = true

namespace Nesting

/-- An event leads from one nesting to the next, wherever it is placed, or it is at fault. -/
def after? (nesting : Nesting) (event : Event) : Option Nesting :=
  (nesting.step ⟨event, 0, 0, 0⟩).toOption

/-- The place of an event only tells where its fault is. -/
theorem toOption_step (nesting : Nesting) (placed : Placed) :
    (nesting.step placed).toOption = nesting.after? placed.event := by
  obtain ⟨event, before, start, stop⟩ := placed
  obtain ⟨names, rooted⟩ := nesting
  cases event with
  | opening content | empty content => cases names <;> cases rooted <;> rfl
  | closing name =>
      cases names with
      | nil => rfl
      | cons expected names =>
          by_cases same : name = expected
          · simp [after?, step, close, same]
          · simp [after?, step, close, same, Except.toOption]
  | text content =>
      rw [after?, step, step]
      dsimp only
      split <;> rfl
  | «section» content =>
      rw [after?, step, step]
      dsimp only
      split <;> rfl
  | comment content | doctype content | instruction content => rfl

/-- The places of events only tell where the first fault is. -/
theorem toOption_foldlM_step (nesting : Nesting) (placed : List Placed) :
    (placed.foldlM step nesting).toOption =
      (placed.map Placed.event).foldlM after? nesting := by
  induction placed generalizing nesting with
  | nil => rfl
  | cons first others inductionHypothesis =>
      rw [List.map_cons, List.foldlM_cons, List.foldlM_cons, ← toOption_step]
      cases nesting.step first with
      | error failure => rfl
      | ok next => exact inductionHypothesis next

/-- Outside of all elements an event may stand anywhere, or it starts the root element, which no
element has been before. -/
theorem after?_outside_eq_some_iff {rooted : Bool} {event : Event} {next : Nesting} :
    after? ⟨[], rooted⟩ event = some next ↔
      (event.isOuter = true ∧ next = ⟨[], rooted⟩) ∨
        (∃ content, event = .opening content ∧ rooted = false ∧
          next = ⟨[Event.tagName content], true⟩) ∨
        ∃ content, event = .empty content ∧ rooted = false ∧ next = ⟨[], true⟩ := by
  cases event with
  | opening content | empty content =>
      cases rooted with
      | true => simp [after?, step, addRoot, Event.isOuter, bind, Except.bind, Except.toOption]
      | false =>
          simp [after?, step, addRoot, Event.isOuter, bind, Except.bind, pure, Except.pure,
            Except.toOption, eq_comm]
  | closing name => simp [after?, step, close, Event.isOuter, Except.toOption]
  | text content =>
      cases blank : content.all Text.isAsciiBlank <;>
        simp [after?, step, Event.isOuter, Except.toOption, blank, eq_comm]
  | «section» content => simp [after?, step, Event.isOuter, Except.toOption]
  | comment content | doctype content | instruction content =>
      simp [after?, step, Event.isOuter, Except.toOption, eq_comm]

/-- Inside of an element an event may be no tag, or it opens an element, is one, or closes the
innermost one. -/
theorem after?_inside_eq_some_iff {name : List Char} {names : List (List Char)} {event : Event}
    {next : Nesting} :
    after? ⟨name :: names, true⟩ event = some next ↔
      (event.isTag = false ∧ next = ⟨name :: names, true⟩) ∨
        (∃ content, event = .opening content ∧
          next = ⟨Event.tagName content :: name :: names, true⟩) ∨
        (∃ content, event = .empty content ∧ next = ⟨name :: names, true⟩) ∨
        event = .closing name ∧ next = ⟨names, true⟩ := by
  cases event with
  | opening content | empty content =>
      simp [after?, step, addRoot, Event.isTag, bind, Except.bind, pure, Except.pure,
        Except.toOption, eq_comm]
  | closing found =>
      by_cases same : found = name
      · simp [after?, step, close, Event.isTag, Except.toOption, same, eq_comm]
      · simp [after?, step, close, Event.isTag, Except.toOption, same]
  | text content | «section» content | comment content | doctype content | instruction content =>
      simp [after?, step, Event.isTag, Except.toOption, eq_comm]

/-- Events that may stand outside of all elements keep the nesting there. -/
theorem foldlM_outer {events : List Event} (outer : ∀ event ∈ events, event.isOuter = true)
    (rooted : Bool) : events.foldlM after? ⟨[], rooted⟩ = some ⟨[], rooted⟩ := by
  induction events with
  | nil => rfl
  | cons event events inductionHypothesis =>
      obtain ⟨here, others⟩ := List.forall_mem_cons.1 outer
      rw [List.foldlM_cons, after?_outside_eq_some_iff.2 (.inl ⟨here, rfl⟩)]
      exact inductionHypothesis others

/-- Behind events that keep the nesting inside of an element its closing tag may follow. -/
theorem foldlM_closing {events : List Event} {name : List Char} {names : List (List Char)}
    (kept : events.foldlM after? ⟨name :: names, true⟩ = some ⟨name :: names, true⟩) :
    (events ++ [Event.closing name]).foldlM after? ⟨name :: names, true⟩ = some ⟨names, true⟩ := by
  have closed : after? ⟨name :: names, true⟩ (.closing name) = some ⟨names, true⟩ :=
    after?_inside_eq_some_iff.2 (.inr (.inr (.inr ⟨rfl, rfl⟩)))
  rw [List.foldlM_append, kept, Option.bind_eq_bind, Option.bind_some, List.foldlM_cons, closed]
  rfl

mutual

/-- The events of a tree keep the nesting inside of an element. -/
theorem foldlM_events (tree : Tree) (name : List Char) (names : List (List Char)) :
    tree.events.foldlM after? ⟨name :: names, true⟩ = some ⟨name :: names, true⟩ := by
  cases tree with
  | leaf event untagged =>
      rw [Tree.events, List.foldlM_cons, after?_inside_eq_some_iff.2 (.inl ⟨untagged, rfl⟩)]
      rfl
  | empty content =>
      rw [Tree.events, List.foldlM_cons,
        after?_inside_eq_some_iff.2 (.inr (.inr (.inl ⟨content, rfl, rfl⟩)))]
      rfl
  | element content children =>
      rw [Tree.events, List.cons_append, List.foldlM_cons,
        after?_inside_eq_some_iff.2 (.inr (.inl ⟨content, rfl, rfl⟩))]
      exact foldlM_closing (foldlM_eventsOf children (Event.tagName content) (name :: names))

theorem foldlM_eventsOf (trees : List Tree) (name : List Char) (names : List (List Char)) :
    (Tree.eventsOf trees).foldlM after? ⟨name :: names, true⟩ = some ⟨name :: names, true⟩ := by
  cases trees with
  | nil => rfl
  | cons tree trees =>
      rw [Tree.eventsOf, List.foldlM_append, foldlM_events tree name names]
      exact foldlM_eventsOf trees name names

end

/-- The events of an element lead from the start to behind the root. -/
theorem foldlM_root {tree : Tree} (element : tree.isElement = true) :
    tree.events.foldlM after? .start = some ⟨[], true⟩ := by
  cases tree with
  | leaf event untagged => nomatch element
  | empty content => rfl
  | element content children =>
      rw [Tree.events, List.cons_append, List.foldlM_cons, start,
        after?_outside_eq_some_iff.2 (.inr (.inl ⟨content, rfl, rfl, rfl⟩))]
      exact foldlM_closing (foldlM_eventsOf children (Event.tagName content) [])

/-- Events close the elements with these names: trees stand before the closing tag of each, and
behind the last tag there is nothing but what may stand outside of the root. -/
def Closes : List (List Char) → List Event → Prop
  | [], events => ∀ event ∈ events, event.isOuter = true
  | name :: names, events =>
    ∃ (children : List Tree) (behind : List Event),
      events = Tree.eventsOf children ++ .closing name :: behind ∧ Closes names behind

/-- A tree before events that close an element belongs to this element. -/
theorem Closes.prepend {name : List Char} {names : List (List Char)} {events : List Event}
    (closes : Closes (name :: names) events) (tree : Tree) :
    Closes (name :: names) (tree.events ++ events) := by
  obtain ⟨children, behind, rfl, others⟩ := closes
  refine ⟨tree :: children, behind, ?_, others⟩
  rw [Tree.eventsOf, List.append_assoc]

/-- Events that lead out of all elements close them. The induction on the events carries the names
of all open elements, since a closing tag goes on with the next of them. -/
theorem closes_of_foldlM {names : List (List Char)} {events : List Event}
    (run : events.foldlM after? ⟨names, true⟩ = some ⟨[], true⟩) : Closes names events := by
  induction events generalizing names with
  | nil =>
      obtain rfl : names = [] := congrArg Nesting.names (Option.some.inj run)
      exact List.forall_mem_nil _
  | cons event events inductionHypothesis =>
      rw [List.foldlM_cons] at run
      obtain ⟨next, first, others⟩ := Option.bind_eq_some_iff.1 run
      cases names with
      | nil =>
          rcases after?_outside_eq_some_iff.1 first with
            ⟨outer, rfl⟩ | ⟨content, -, unmet, -⟩ | ⟨content, -, unmet, -⟩
          · exact List.forall_mem_cons.2 ⟨outer, inductionHypothesis others⟩
          · nomatch unmet
          · nomatch unmet
      | cons name names =>
          rcases after?_inside_eq_some_iff.1 first with
            ⟨untagged, rfl⟩ | ⟨content, rfl, rfl⟩ | ⟨content, rfl, rfl⟩ | ⟨rfl, rfl⟩
          · exact (inductionHypothesis others).prepend (.leaf event untagged)
          · obtain ⟨children, behind, rfl, outside⟩ := inductionHypothesis others
            have joined := outside.prepend (.element content children)
            rw [Tree.events, List.append_assoc, List.cons_append] at joined
            exact joined
          · exact (inductionHypothesis others).prepend (.empty content)
          · exact ⟨[], events, rfl, inductionHypothesis others⟩

/-- Events lead from the start to behind the root exactly when they are those of a document. -/
theorem foldlM_start_eq_rooted_iff (events : List Event) :
    events.foldlM after? .start = some ⟨[], true⟩ ↔ IsDocument events := by
  constructor
  · intro run
    induction events with
    | nil => nomatch run
    | cons event events inductionHypothesis =>
        rw [List.foldlM_cons] at run
        obtain ⟨next, first, others⟩ := Option.bind_eq_some_iff.1 run
        rcases after?_outside_eq_some_iff.1 first with
          ⟨outer, rfl⟩ | ⟨content, rfl, -, rfl⟩ | ⟨content, rfl, -, rfl⟩
        · obtain ⟨before, tree, after, rfl, element, outside, behind⟩ := inductionHypothesis others
          exact ⟨event :: before, tree, after, rfl, element,
            List.forall_mem_cons.2 ⟨outer, outside⟩, behind⟩
        · obtain ⟨children, behind, rfl, outside⟩ := closes_of_foldlM others
          refine ⟨[], .element content children, behind, ?_, rfl, List.forall_mem_nil _, outside⟩
          rw [Tree.events, List.nil_append, List.append_assoc]
          rfl
        · exact ⟨[], .empty content, events, rfl, rfl, List.forall_mem_nil _,
            closes_of_foldlM others⟩
  · rintro ⟨before, tree, after, rfl, element, outside, behind⟩
    rw [List.foldlM_append, List.foldlM_append, start, foldlM_outer outside]
    refine Option.bind_eq_some_iff.2 ⟨_, foldlM_root element, ?_⟩
    exact foldlM_outer behind true

theorem rooted_of_foldlM {names : List (List Char)} {events : List Event} {last : Nesting}
    (run : events.foldlM after? ⟨names, true⟩ = some last) : last.rooted = true := by
  induction events generalizing names with
  | nil =>
      obtain rfl := Option.some.inj run
      rfl
  | cons event events inductionHypothesis =>
      rw [List.foldlM_cons] at run
      obtain ⟨next, first, others⟩ := Option.bind_eq_some_iff.1 run
      cases names with
      | nil =>
          rcases after?_outside_eq_some_iff.1 first with
            ⟨-, rfl⟩ | ⟨content, -, unmet, -⟩ | ⟨content, -, unmet, -⟩
          · exact inductionHypothesis others
          · nomatch unmet
          · nomatch unmet
      | cons name names =>
          rcases after?_inside_eq_some_iff.1 first with
            ⟨-, rfl⟩ | ⟨content, -, rfl⟩ | ⟨content, -, rfl⟩ | ⟨-, rfl⟩ <;>
            exact inductionHypothesis others

/-- Events lead back to the start exactly when all of them may stand outside of the root. -/
theorem foldlM_start_eq_start_iff (events : List Event) :
    events.foldlM after? .start = some .start ↔ ∀ event ∈ events, event.isOuter = true := by
  refine ⟨fun run => ?_, fun outer => foldlM_outer outer false⟩
  induction events with
  | nil => exact List.forall_mem_nil _
  | cons event events inductionHypothesis =>
      rw [List.foldlM_cons] at run
      obtain ⟨next, first, others⟩ := Option.bind_eq_some_iff.1 run
      rcases after?_outside_eq_some_iff.1 first with
        ⟨outer, rfl⟩ | ⟨content, -, -, rfl⟩ | ⟨content, -, -, rfl⟩
      · exact List.forall_mem_cons.2 ⟨outer, inductionHypothesis others⟩
      · nomatch rooted_of_foldlM others
      · nomatch rooted_of_foldlM others

end Nesting

/-- A text is well formed when its events come to an end without a fault and lead behind a root. -/
theorem checkWellFormed_eq_ok_iff (text : String) :
    checkWellFormed text = .ok () ↔
      (Events.read text).fault = none ∧
        (Events.read text).placed.foldlM Nesting.step .start = .ok ⟨[], true⟩ := by
  rw [checkWellFormed, Outcome.bind_eq_ok_iff]
  constructor
  · rintro ⟨⟨names, rooted⟩, nested, finished⟩
    split at finished
    · nomatch finished
    · rename_i sound
      cases names with
      | cons name names => nomatch finished
      | nil =>
          cases rooted with
          | false => nomatch finished
          | true => exact ⟨sound, nested⟩
  · rintro ⟨sound, nested⟩
    refine ⟨_, nested, ?_⟩
    simp only [sound]
    rfl

/-- A text is well formed exactly when it delivers its events up to its end, and they are those of
one element tree with nothing outside of it but what may stand there. -/
theorem well_formed_iff_document (text : String) :
    checkWellFormed text = .ok () ↔ ∃ events, Delivers text events ∧ IsDocument events := by
  have nested : (Events.read text).placed.foldlM Nesting.step .start = .ok ⟨[], true⟩ ↔
      IsDocument ((Events.read text).placed.map Placed.event) := by
    rw [← Nesting.foldlM_start_eq_rooted_iff, ← Nesting.toOption_foldlM_step]
    cases (Events.read text).placed.foldlM Nesting.step .start <;> simp [Except.toOption]
  rw [checkWellFormed_eq_ok_iff, nested]
  simp only [delivers_iff_read, and_assoc, exists_and_left, exists_eq_left']

end WorkflowBundle.Xml
