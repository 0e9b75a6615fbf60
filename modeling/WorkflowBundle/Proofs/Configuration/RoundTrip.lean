/-
This file shows that the document that is written for a configuration is read as the configuration.
-/

import WorkflowBundle.Proofs.Configuration.Reading
import WorkflowBundle.Proofs.Outcome

namespace WorkflowBundle

namespace Configuration

open Yaml (Node Read represented)

/-- The fields of knowledge settings. -/
def knowledgeFields (settings : KnowledgeSettings) : List (String × Option Yaml) :=
  [("index_path", settings.indexPath.map .string),
    ("playwright_utils", some (.boolean settings.playwrightUtils)),
    ("mcp_enhancements", some (.boolean settings.mcpEnhancements)),
    ("default_tags",
      if settings.selectors.isEmpty then none else some (selectorsToYaml settings.selectors)),
    ("max_tokens", some (.integer settings.maxTokens))]

def testFields (settings : TestSettings) : List (String × Option Yaml) :=
  [("test_dir", some (.string settings.testDirectory)),
    ("knowledge", settings.knowledge.map KnowledgeSettings.toYaml)]

/-- The fields of path settings. -/
def pathFields (settings : PathSettings) : List (String × Option Yaml) :=
  [("output_folder", settings.outputFolder.map .string),
    ("project_knowledge", settings.projectKnowledge.map .string),
    ("communication_language", settings.communicationLanguage.map .string),
    ("user_name", settings.userName.map .string)]

/-- The sections of a configuration. -/
def sections (configuration : Configuration) : List (String × Option Yaml) :=
  [("testarch", some ((configuration.tests.map TestSettings.toYaml).getD .null)),
    ("paths", some configuration.paths.toYaml),
    ("shared_defaults", some (.mapping configuration.sharedDefaults)),
    ("workflow_overrides", some (fieldsToYaml (configuration.overrides.entries.map fun entry =>
      (entry.1, .mapping entry.2))))]

/-- Selectors are written as the fields of their names. -/
theorem selectorsToYaml_eq (selectors : Dictionary (List String)) :
    selectorsToYaml selectors = fieldsToYaml (selectors.entries.map fun entry =>
      (entry.1, .sequence (entry.2.map .string))) := by
  rw [selectorsToYaml, fieldsToYaml, List.map_map]
  rfl

theorem toYaml_knowledge (settings : KnowledgeSettings) :
    settings.toYaml = fieldsToYaml (writtenFields (knowledgeFields settings)) := by
  obtain ⟨index, playwright, enhancements, selectors, size⟩ := settings
  rw [KnowledgeSettings.toYaml, knowledgeFields]
  dsimp only
  cases index <;> split <;> rfl

theorem toYaml_tests (settings : TestSettings) :
    settings.toYaml = fieldsToYaml (writtenFields (testFields settings)) := by
  obtain ⟨directory, _ | knowledge⟩ := settings <;> rfl

theorem toYaml_paths (settings : PathSettings) :
    settings.toYaml = fieldsToYaml (writtenFields (pathFields settings)) := by
  obtain ⟨_ | output, _ | knowledge, _ | language, _ | user⟩ := settings <;> rfl

/-- A configuration is written section by section. -/
theorem toYaml_eq (configuration : Configuration) :
    configuration.toYaml = fieldsToYaml (writtenFields (sections configuration)) := by
  rw [toYaml, sections]
  simp only [fieldsToYaml, writtenFields, List.filterMap_cons, Option.map_some, List.filterMap_nil,
    List.map_cons, List.map_nil, List.map_map]
  rfl

section Sections

variable (document : Node) {depth : Nat} {node : Node}

/-- An optional field of a section is read as it is. -/
theorem IsSection.readField_optional {α : Type} {fields : List (String × Option Yaml)}
    {nodes : List (String × Node)} (isSection : IsSection depth fields nodes) {name : String}
    {value : Option α} {encode : α → Yaml} {read : Node → Read α}
    (member : (name, value.map encode) ∈ fields) (present : ∀ content, IsPresent (encode content))
    (reads : ∀ content node, represented (encode content) depth node = true →
      read node = pure content) :
    Configuration.readField nodes name none (readOptional document read) = pure value := by
  refine isSection.readField member (fun absent => (Option.map_eq_none_iff.1 absent).symm) ?_
  intro given written node holds
  obtain ⟨content, rfl, rfl⟩ := Option.map_eq_some_iff.1 written
  exact readOptional_of_represented document (present content) holds (reads content)

/-- An optional text of a section is read as it is. -/
theorem IsSection.readField_text {fields : List (String × Option Yaml)}
    {nodes : List (String × Node)} (isSection : IsSection depth fields nodes) {name : String}
    {text : Option String} (member : (name, text.map .string) ∈ fields) :
    Configuration.readField nodes name none (readOptional document (readText document)) =
      pure text :=
  isSection.readField_optional document member isPresent_string fun _ _ =>
    readText_of_represented document

theorem eq_empty_of_isEmpty {α : Type} {dictionary : Dictionary α}
    (isEmpty : dictionary.isEmpty = true) : ∅ = dictionary := by
  obtain ⟨entries, ascending⟩ := dictionary
  obtain rfl := List.isEmpty_iff.1 isEmpty
  rfl

theorem readKnowledge_of_represented {settings : KnowledgeSettings}
    (holds : represented settings.toYaml depth node = true) :
    readKnowledge document node = pure settings := by
  rw [toYaml_knowledge] at holds
  obtain ⟨inner, nodes, rfl, done, isSection⟩ :=
    exists_isSection document (by simp [knowledgeFields]) holds
  have index : Configuration.readField nodes "index_path" none
      (readOptional document (readText document)) = pure settings.indexPath :=
    isSection.readField_text document (by simp [knowledgeFields])
  have playwright : Configuration.readField nodes "playwright_utils" true (readFlag document) =
      pure settings.playwrightUtils :=
    isSection.readField_written (by simp [knowledgeFields]) fun _ =>
      readFlag_of_represented document
  have enhancements : Configuration.readField nodes "mcp_enhancements" true (readFlag document) =
      pure settings.mcpEnhancements :=
    isSection.readField_written (by simp [knowledgeFields]) fun _ =>
      readFlag_of_represented document
  have size : Configuration.readField nodes "max_tokens" 12000 (readSize document) =
      pure settings.maxTokens :=
    isSection.readField_written (by simp [knowledgeFields]) fun _ =>
      readSize_of_represented document
  have selectors : Configuration.readField nodes "default_tags" ∅
      (readDictionary document (readList document (readText document))) =
      pure settings.selectors := by
    have member : ("default_tags",
        if settings.selectors.isEmpty then none else some (selectorsToYaml settings.selectors)) ∈
        knowledgeFields settings := by
      simp [knowledgeFields]
    refine isSection.readField member ?_ ?_
    · intro absent
      split at absent
      · rename_i isEmpty
        exact eq_empty_of_isEmpty isEmpty
      · nomatch absent
    · intro given written node holds
      split at written
      · nomatch written
      · obtain rfl := Option.some.inj written
        rw [selectorsToYaml_eq] at holds
        exact readDictionary_of_represented document holds fun _ _ _ _ =>
          readList_of_represented document
  rw [readKnowledge, done, pure_bind]
  simp only [index, playwright, enhancements, selectors, size, pure_bind]

theorem readTests_of_represented {settings : TestSettings}
    (holds : represented settings.toYaml depth node = true) :
    readTests document node = pure settings := by
  rw [toYaml_tests] at holds
  obtain ⟨inner, nodes, rfl, done, isSection⟩ :=
    exists_isSection document (by simp [testFields]) holds
  have directory : Configuration.readField nodes "test_dir" "tests/" (readText document) =
      pure settings.testDirectory :=
    isSection.readField_written (by simp [testFields]) fun _ => readText_of_represented document
  have present (knowledge : KnowledgeSettings) : IsPresent knowledge.toYaml :=
    isPresent_mapping _
  have knowledge : Configuration.readField nodes "knowledge" none
      (readOptional document (readKnowledge document)) = pure settings.knowledge :=
    isSection.readField_optional document (by simp [testFields]) present fun _ _ =>
      readKnowledge_of_represented document
  rw [readTests, done, pure_bind]
  simp only [directory, knowledge, pure_bind]

theorem readPaths_of_represented {settings : PathSettings}
    (holds : represented settings.toYaml depth node = true) :
    readPaths document node = pure settings := by
  rw [toYaml_paths] at holds
  obtain ⟨inner, nodes, rfl, done, isSection⟩ :=
    exists_isSection document (by simp [pathFields]) holds
  have output : Configuration.readField nodes "output_folder" none
      (readOptional document (readText document)) = pure settings.outputFolder :=
    isSection.readField_text document (by simp [pathFields])
  have knowledge : Configuration.readField nodes "project_knowledge" none
      (readOptional document (readText document)) = pure settings.projectKnowledge :=
    isSection.readField_text document (by simp [pathFields])
  have language : Configuration.readField nodes "communication_language" none
      (readOptional document (readText document)) = pure settings.communicationLanguage :=
    isSection.readField_text document (by simp [pathFields])
  have user : Configuration.readField nodes "user_name" none
      (readOptional document (readText document)) = pure settings.userName :=
    isSection.readField_text document (by simp [pathFields])
  rw [readPaths, done, pure_bind]
  simp only [output, knowledge, language, user, pure_bind]

/-- A document that represents a configuration is read as it. -/
theorem ofNode_of_represented {configuration : Configuration}
    (holds : represented configuration.toYaml Read.depthLimit document = true) :
    ofNode document = pure configuration := by
  rw [toYaml_eq] at holds
  obtain ⟨inner, nodes, deeper, done, isSection⟩ :=
    exists_isSection document (by simp [sections]) holds
  obtain rfl : Read.depthLimit - 1 = inner := by omega
  have tests : Configuration.readField nodes "testarch" none
      (readOptional document (readTests document)) = pure configuration.tests := by
    have member : ("testarch", some ((configuration.tests.map TestSettings.toYaml).getD .null)) ∈
        sections configuration := by
      simp [sections]
    refine isSection.readField_written member fun node holds => ?_
    cases given : configuration.tests with
    | none =>
        rw [given] at holds
        exact readOptional_of_null document _ holds
    | some tests =>
        rw [given, Option.map_some, Option.getD_some] at holds
        exact readOptional_of_represented document (isPresent_mapping _) holds fun _ =>
          readTests_of_represented document
  have paths : Configuration.readField nodes "paths" {} (readPaths document) =
      pure configuration.paths :=
    isSection.readField_written (by simp [sections]) fun _ => readPaths_of_represented document
  have shared : Configuration.readField nodes "shared_defaults" []
      (readMapping document (Read.depthLimit - 1)) = pure configuration.sharedDefaults :=
    isSection.readField_written (by simp [sections]) fun _ => readMapping_of_represented document
  have overrides : Configuration.readField nodes "workflow_overrides" ∅
      (readDictionary document (readMapping document (Read.depthLimit - 2))) =
      pure configuration.overrides := by
    have member : ("workflow_overrides", some (fieldsToYaml
        (configuration.overrides.entries.map fun entry => (entry.1, .mapping entry.2)))) ∈
        sections configuration := by
      simp [sections]
    refine isSection.readField_written member fun node holds => ?_
    refine readDictionary_of_represented document holds fun inside deeper value node holds => ?_
    obtain rfl : Read.depthLimit - 2 = inside := by omega
    exact readMapping_of_represented document holds
  rw [ofNode, done, pure_bind]
  simp only [tests, paths, shared, overrides, pure_bind]

end Sections

/-- Behind a key the first line starts with the key. -/
theorem exists_afterKey (key : String) (block : Yaml.Block) :
    ∃ first more, block.afterKey key = (key ++ first) :: more := by
  cases block with
  | line text size => exact ⟨": " ++ text, [], by simp [Yaml.Block.afterKey, String.append_assoc]⟩
  | literal header lines =>
      exact ⟨": " ++ header, Yaml.indentLines lines, by
        simp [Yaml.Block.afterKey, String.append_assoc]⟩
  | mapping tag lines =>
      rw [Yaml.Block.afterKey, Yaml.Block.heading]
      split
      · exact ⟨":", _, rfl⟩
      · exact ⟨":" ++ " " ++ tag, Yaml.indentLines lines, by simp [String.append_assoc]⟩
  | sequence tag lines =>
      rw [Yaml.Block.afterKey, Yaml.Block.heading]
      split
      · exact ⟨":", _, rfl⟩
      · exact ⟨":" ++ " " ++ tag, lines, by simp [String.append_assoc]⟩

/-- The document of a configuration starts with the name of its first section. -/
theorem isBlankText_write (configuration : Configuration) :
    Text.isBlankText configuration.toYaml.write = false := by
  have key : Yaml.block (.string "testarch") = .line "testarch" (some 8) := rfl
  obtain ⟨first, more, shape⟩ := exists_afterKey "testarch"
    (Yaml.block ((configuration.tests.map TestSettings.toYaml).getD .null))
  have lines : configuration.toYaml.block.alone =
      Yaml.Block.entry (Yaml.block (.string "testarch"))
        (Yaml.block ((configuration.tests.map TestSettings.toYaml).getD .null)) ++
      Yaml.entryLines _ := rfl
  rw [key, Yaml.Block.entry, if_pos (by decide), shape, List.cons_append] at lines
  rw [Text.isBlankText, Yaml.write, lines, List.map_cons, String.join_cons, List.all_eq_false]
  exact ⟨'t', by simp, by decide⟩

/-- A configuration is read from its document if the reader and the writer are inverse at its YAML
value. What is left out has its default value again, and mappings keep their order. -/
theorem parse_write {configuration : Configuration}
    (readsBack : configuration.toYaml.ReadsBack) :
    parse configuration.toYaml.write = .ok configuration := by
  obtain ⟨document, parsed, holds⟩ := readsBack
  rw [parse, if_neg (by simp [isBlankText_write]), parsed]
  change Read.run document (ofNode document) = _
  rw [ofNode_of_represented document holds]
  rfl

/-- Where the reader and the writer are inverse at the YAML value of a configuration, the text that
is hashed for its fingerprint is read as the configuration, and no other such configuration has the
same text. The fingerprint is the start of the digest of this text. -/
theorem hashed_text_is_read_as_configuration {configuration : Configuration}
    (readsBack : configuration.toYaml.ReadsBack) :
    configuration.fingerprint =
        String.ofList ((Sha256.ofText configuration.toYaml.write).toList.take fingerprintLength) ∧
      parse configuration.toYaml.write = .ok configuration ∧
      ∀ other : Configuration, other.toYaml.ReadsBack →
        other.toYaml.write = configuration.toYaml.write → other = configuration := by
  refine ⟨rfl, parse_write readsBack, fun other otherReadsBack same => ?_⟩
  have read := parse_write otherReadsBack
  rw [same, parse_write readsBack] at read
  exact (Except.ok.inj read).symm

/-- This configuration has an empty user name, an empty selector, an ordered mapping and an empty
one, and leaves out the other optional fields. -/
def sampleConfiguration : Configuration where
  tests := some {
    testDirectory := "spec"
    knowledge := some { selectors := .ofList [("ci", [])], maxTokens := 5 } }
  paths := { userName := some "" }
  sharedDefaults := [(.string "b", .integer 1), (.string "a", .null)]
  overrides := .ofList [("ci", [])]

theorem readsBack_sample : sampleConfiguration.toYaml.ReadsBack := by
  have represents : (Node.parse sampleConfiguration.toYaml.write).toOption.join.any
      (represented sampleConfiguration.toYaml Read.depthLimit) = true := by
    decide +kernel
  obtain ⟨document, found, holds⟩ := (Option.any_eq_true _ _).1 represents
  have parsed := Outcome.toOption_eq_some_iff.1 (Option.join_eq_some_iff.1 found)
  exact ⟨document, parsed, holds⟩

/-- The sample is read from its text, and no other configuration has the same text. -/
theorem sample_is_read_from_hashed_text :
    sampleConfiguration.toYaml.ReadsBack ∧
      sampleConfiguration.fingerprint =
        String.ofList
          ((Sha256.ofText sampleConfiguration.toYaml.write).toList.take fingerprintLength) ∧
      parse sampleConfiguration.toYaml.write = .ok sampleConfiguration ∧
      ∀ other : Configuration, other.toYaml.ReadsBack →
        other.toYaml.write = sampleConfiguration.toYaml.write → other = sampleConfiguration :=
  ⟨readsBack_sample, hashed_text_is_read_as_configuration readsBack_sample⟩

end Configuration

end WorkflowBundle
