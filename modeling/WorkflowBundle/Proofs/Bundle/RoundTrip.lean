/-
This file reads a written bundle back and shows that nothing is lost.
-/

import WorkflowBundle.Proofs.Bundle.Element
import WorkflowBundle.Proofs.Xml.Acceptance

namespace WorkflowBundle.Bundle

open Xml

/-- A bundle shows a name, a mission, files and variables with their texts, instructions and a
template. -/
structure Contents where
  name : String
  mission : String
  contextFiles : List (String × String)
  bindings : List (String × String)
  instructions : String
  outputTemplate : String
deriving DecidableEq

namespace Contents

/-- The text of a section is empty where the section is left out. -/
def sectionText (root : Node) (name : String) : String :=
  ((root.child? name).map Node.content).getD ""

/-- An item is an element with a label and a content. -/
def item? (name label : String) (node : Node) : Option (String × String) :=
  if node.isNamed name then (node.attribute? label).map fun value => (value, node.content) else none

/-- The items of a section are its elements, and there are none where it is left out. -/
def items? (root : Node) (group name label : String) : Option (List (String × String)) :=
  ((((root.child? group).map Node.children).getD []).filter Node.isElement).mapM
    (item? name label)

/-- The contents are read from the sections by their names. -/
def ofRoot? (root : Node) : Option Contents :=
  if root.isNamed "compiled-workflow" then do
    let name ← root.attribute? "name"
    let contextFiles ← items? root "context" "file" "path"
    let bindings ← items? root "variables" "var" "name"
    let instructions ← root.child? "instructions"
    some {
      name
      mission := sectionText root "mission"
      contextFiles
      bindings
      instructions := instructions.content
      outputTemplate := sectionText root "output-template" }
  else none

/-- The contents of a bundle are read from its document. -/
def read? (text : String) : Option Contents :=
  (document? text).bind ofRoot?

end Contents

/-- A section that is not left out is an element with a line end behind it. -/
def sectionNodes (name : String) (inner : Option (List Node)) : List Node :=
  match inner with
  | none => []
  | some nodes => [.element name.toList [] nodes, .text ['\n']]

theorem find?_sectionNodes (name other : String) (inner : Option (List Node)) :
    (sectionNodes name inner).find? (Node.isNamed other) =
      if other = name then inner.map (.element name.toList []) else none := by
  cases inner with
  | none => simp [sectionNodes]
  | some nodes =>
      by_cases same : other = name
      · simp [sectionNodes, Node.isNamed, same]
      · have different : name ≠ other := Ne.symm same
        simp [sectionNodes, Node.isNamed, String.toList_inj, same, different]

theorem adds_section {name content : String} {nodes : List Node} (named : IsName name)
    (inner : Adds content nodes) :
    Adds (element name "" content) (sectionNodes name (some nodes)) := by
  have labelled : Attribute.IsLabelled none := nofun
  exact adds_element named labelled rfl inner

/-- Nodes hold the text that their characters make up. -/
def heldText (nodes : List Node) : String :=
  String.ofList (nodes.flatMap Node.characters)

/-- A text in sections adds texts that hold it. -/
theorem adds_text (text : String) :
    ∃ nodes, Adds (Xml.sections text) nodes ∧ heldText nodes = text := by
  obtain ⟨parts, joined, adds⟩ := adds_sections text
  refine ⟨_, adds, ?_⟩
  have characters : (parts.map Node.text).flatMap Node.characters = parts.flatten := by
    rw [List.flatMap_map]
    exact List.flatMap_id'
  rw [heldText, characters, joined, String.ofList_toList]

/-- A section with a text is read with its text, also when it is left out. -/
theorem adds_optionalSection {name : String} (named : IsName name) (text : String) :
    ∃ inner, Adds (optionalSection name text) (sectionNodes name inner) ∧
      (inner.map heldText).getD "" = text := by
  rw [optionalSection]
  split
  · rename_i empty
    exact ⟨none, adds_empty, (String.isEmpty_iff.1 empty).symm⟩
  · obtain ⟨nodes, adds, same⟩ := adds_text text
    exact ⟨some nodes, adds_section named adds, same⟩

/-- A section with lines is read with the elements that they add, also when it is left out. -/
theorem adds_listSection {Item Content : Type} {line : Item → String}
    {read : Node → Option Content} {shown : Item → Content} {name : String} (named : IsName name)
    (each : ∀ item, ∃ node, Adds (line item) [node, .text ['\n']] ∧ node.isElement = true ∧
      read node = some (shown item)) (marked : ∀ item, IsMarked (line item))
    (items : List Item) :
    ∃ inner, Adds (listSection name (items.map line)) (sectionNodes name inner) ∧
      ((inner.getD []).filter Node.isElement).mapM read = some (items.map shown) := by
  rw [listSection]
  split
  · rename_i empty
    obtain rfl : items = [] := by simpa using empty
    exact ⟨none, adds_empty, rfl⟩
  · obtain ⟨nodes, adds, starts, reads⟩ := adds_lines each marked items
    refine ⟨some _, adds_section named (adds_lineEnd.append adds starts), ?_⟩
    rw [← reads]
    rfl

theorem isMarked_optionalSection (name text : String) : IsMarked (optionalSection name text) := by
  rw [optionalSection]
  split
  · exact .inl rfl
  · exact isMarked_element ..

theorem isMarked_listSection (name : String) (lines : List String) :
    IsMarked (listSection name lines) := by
  rw [listSection]
  split
  · exact .inl rfl
  · exact isMarked_element ..

theorem isLabelled_some {label : String} (named : IsName label) (value : String) :
    Attribute.IsLabelled (some (label, value)) := by
  rintro _ _ same
  obtain ⟨rfl, -⟩ := Prod.mk.inj (Option.some.inj same)
  exact named

/-- An element with one attribute is read as an item. -/
theorem item?_element (name label value : String) (nodes : List Node) :
    Contents.item? name label
        (.element name.toList (Attribute.pairs (some (label, value))) nodes) =
      some (value, heldText nodes) := by
  simp [heldText, Contents.item?, Node.isNamed, Node.attribute?, Node.content, Node.children,
    Attribute.pairs]

/-- The line of a file adds its path, and its content unless it is a link. -/
theorem adds_fileLine (tree : FileTree) (root : Path) (linksOnly : Bool) (file : Path × String) :
    ∃ node, Adds (fileLine tree root linksOnly file) [node, .text ['\n']] ∧
      node.isElement = true ∧
      Contents.item? "file" "path" node =
        some (displayPath tree root file.1, if linksOnly then "" else file.2) := by
  have labelled := isLabelled_some (by decide : IsName "path") (displayPath tree root file.1)
  rw [fileLine]
  cases linksOnly with
  | true =>
      have shape : ("<file" ++ attributeText "path" (displayPath tree root file.1) ++
          " />\n").toList = '<' :: ("file".toList ++ (Attribute.written
            (some ("path", displayPath tree root file.1)) ++ ' ' :: '/' :: '>' :: ['\n'])) := by
        simp [Attribute.written]
      exact ⟨_, adds_emptyElement (by decide) labelled shape, rfl, item?_element ..⟩
  | false =>
      obtain ⟨nodes, adds, same⟩ := adds_text file.2
      refine ⟨_, adds_element (by decide) labelled rfl adds, rfl, ?_⟩
      rw [item?_element, same]
      rfl

theorem adds_variableLine (entry : String × Variable.Value) :
    ∃ node, Adds (variableLine entry) [node, .text ['\n']] ∧ node.isElement = true ∧
      Contents.item? "var" "name" node = some (entry.1, entry.2.render) := by
  have labelled := isLabelled_some (by decide : IsName "name") entry.1
  refine ⟨_, adds_element (by decide) labelled rfl (adds_escape entry.2.render), rfl, ?_⟩
  rw [item?_element]
  split
  · rename_i empty
    rw [empty]
    rfl
  · simp [heldText, Node.characters]

theorem isMarked_fileLine (tree : FileTree) (root : Path) (linksOnly : Bool)
    (file : Path × String) : IsMarked (fileLine tree root linksOnly file) := by
  rw [fileLine]
  split
  · exact .inr ⟨_, by simp; rfl⟩
  · exact isMarked_element ..

/-- A document is read from nothing to a closed root. -/
theorem document?_of_readFrom {text : String} {markup : List Char} {root : Node}
    (starts : text.toList = '<' :: markup)
    (read : readFrom .start text.toList = some ⟨[], some root⟩) : document? text = some root := by
  obtain ⟨events, divided, ran⟩ := Option.bind_eq_some_iff.1 read
  have unmarked : withoutMark text.toList = text.toList := by
    rw [starts]
    rfl
  rw [document?, unmarked, divided]
  change (events.foldlM Reading.step .start).bind _ = _
  rw [ran]
  rfl

/-- An element is read as a document. -/
theorem document?_element {name attributes content : String} {given : Attribute}
    {nodes : List Node} (named : IsName name) (labelled : given.IsLabelled)
    (written : attributes.toList = given.written) (inner : Adds content nodes) :
    document? (element name attributes content) =
      some (.element name.toList given.pairs nodes) := by
  have starts : ∃ markup, (element name attributes content).toList = '<' :: markup :=
    ⟨_, by simp [element]; rfl⟩
  obtain ⟨markup, starts⟩ := starts
  refine document?_of_readFrom starts ?_
  have outside : (Reading.start.frames.isEmpty && Reading.start.root.isSome) = false := rfl
  have read := readFrom_element named labelled written inner outside []
  have lineEnd (reading : Reading) :
      readFrom reading ['\n'] = (reading.write ['\n']).bind fun next => readFrom next [] := by
    have ends : AtMarkup [] := rfl
    have written : ['\n'] ≠ [] := by simp
    exact readFrom_text written (by simp) ends reading
  simp only [List.append_nil, lineEnd, readFrom_nil] at read
  rw [read]
  rfl

/-- The root of a bundle has its sections behind a line end. -/
def rootElement (name : String)
    (mission files bindings instructions template : Option (List Node)) : Node :=
  .element "compiled-workflow".toList (Attribute.pairs (some ("name", name)))
    ([.text ['\n']] ++ sectionNodes "mission" mission ++ sectionNodes "context" files ++
      sectionNodes "variables" bindings ++ sectionNodes "instructions" instructions ++
      sectionNodes "output-template" template)

/-- Each section of a bundle is found by its name. -/
theorem child?_rootElement (name : String)
    (mission files bindings instructions template : Option (List Node)) :
    let root := rootElement name mission files bindings instructions template
    root.child? "mission" = mission.map (.element "mission".toList []) ∧
    root.child? "context" = files.map (.element "context".toList []) ∧
    root.child? "variables" = bindings.map (.element "variables".toList []) ∧
    root.child? "instructions" = instructions.map (.element "instructions".toList []) ∧
    root.child? "output-template" = template.map (.element "output-template".toList []) := by
  simp [rootElement, Node.child?, Node.children, List.find?_append, find?_sectionNodes,
    Node.isNamed]

/-- The text of a section is what its nodes hold. -/
theorem sectionText_eq {root : Node} {name : String} {inner : Option (List Node)}
    (found : root.child? name = inner.map (.element name.toList [])) :
    Contents.sectionText root name = (inner.map heldText).getD "" := by
  rw [Contents.sectionText, found]
  cases inner <;> rfl

/-- The items of a section are read from its nodes. -/
theorem items?_eq {root : Node} {group : String} {inner : Option (List Node)}
    (found : root.child? group = inner.map (.element group.toList [])) (name label : String) :
    Contents.items? root group name label =
      ((inner.getD []).filter Node.isElement).mapM (Contents.item? name label) := by
  rw [Contents.items?, found]
  cases inner <;> rfl

/-- The contents of a bundle are what its sections hold. -/
theorem ofRoot?_rootElement (name : String) {mission files bindings template : Option (List Node)}
    {instructions : List Node} {shownFiles shownBindings : List (String × String)}
    (readFiles : ((files.getD []).filter Node.isElement).mapM (Contents.item? "file" "path") =
      some shownFiles)
    (readBindings : ((bindings.getD []).filter Node.isElement).mapM
      (Contents.item? "var" "name") = some shownBindings) :
    Contents.ofRoot? (rootElement name mission files bindings (some instructions) template) =
      some {
        name
        mission := (mission.map heldText).getD ""
        contextFiles := shownFiles
        bindings := shownBindings
        instructions := heldText instructions
        outputTemplate := (template.map heldText).getD "" } := by
  obtain ⟨foundMission, foundFiles, foundBindings, foundInstructions, foundTemplate⟩ :=
    child?_rootElement name mission files bindings (some instructions) template
  have named : (rootElement name mission files bindings (some instructions) template).attribute?
      "name" = some name := by
    simp [rootElement, Node.attribute?, Attribute.pairs]
  rw [Contents.ofRoot?, if_pos (by rfl), named, items?_eq foundFiles, items?_eq foundBindings,
    readFiles, readBindings, foundInstructions, sectionText_eq foundMission,
    sectionText_eq foundTemplate]
  rfl

/-- A bundle is written as a well-formed document, and reading it back yields its name, its mission,
its files in order, with their contents unless they are links, all variables but the knowledge, its
instructions and its template. -/
theorem written_bundle_reads_back (tree : FileTree) (root : Path) (bundle : Bundle) :
    Xml.checkWellFormed (bundle.write tree root) = .ok () ∧
      Contents.read? (bundle.write tree root) = some {
        name := bundle.name
        mission := bundle.mission
        contextFiles := bundle.contextFiles.map fun file =>
          (displayPath tree root file.1, if bundle.linksOnly then "" else file.2)
        bindings := (bundle.bindings.entries.filter fun entry => entry.1 ≠ "knowledge_base").map
          fun entry => (entry.1, entry.2.render)
        instructions := bundle.instructions
        outputTemplate := bundle.outputTemplate } := by
  obtain ⟨mission, addsMission, sameMission⟩ :=
    adds_optionalSection (by decide : IsName "mission") bundle.mission
  obtain ⟨files, addsFiles, sameFiles⟩ := adds_listSection (by decide : IsName "context")
    (adds_fileLine tree root bundle.linksOnly) (isMarked_fileLine tree root bundle.linksOnly)
    bundle.contextFiles
  obtain ⟨bindings, addsBindings, sameBindings⟩ := adds_listSection
    (by decide : IsName "variables") adds_variableLine (fun _ => isMarked_element ..)
    (listedVariables bundle.bindings)
  obtain ⟨instructions, addsInstructions, sameInstructions⟩ := adds_text bundle.instructions
  obtain ⟨template, addsTemplate, sameTemplate⟩ :=
    adds_optionalSection (by decide : IsName "output-template") bundle.outputTemplate
  have inner := ((((adds_lineEnd.append addsMission (isMarked_optionalSection ..)).append addsFiles
    (isMarked_listSection ..)).append addsBindings (isMarked_listSection ..)).append
    (adds_section (by decide : IsName "instructions") addsInstructions)
    (isMarked_element ..)).append addsTemplate (isMarked_optionalSection ..)
  have document : document? (bundle.write tree root) =
      some (rootElement bundle.name mission files bindings (some instructions) template) :=
    document?_element (by decide) (isLabelled_some (by decide) _) rfl inner
  refine ⟨checkWellFormed_of_document? document, ?_⟩
  have listed : listedVariables bundle.bindings =
      bundle.bindings.entries.filter fun entry => entry.1 ≠ "knowledge_base" := by
    simp [listedVariables, hiddenVariables]
  rw [listed] at sameBindings
  rw [Contents.read?, document, Option.bind_some, ofRoot?_rootElement _ sameFiles sameBindings,
    sameMission, sameInstructions, sameTemplate]

end WorkflowBundle.Bundle
