/-
This file says how the arguments of the command line divide into groups, and shows that reading them
answers the first group that asks for help or for the version, or else collects the options of all
groups.
-/

import Mathlib.Data.List.Forall2
import Mathlib.Data.List.Infix
import WorkflowBundle.CommandLine.Arguments
import WorkflowBundle.Proofs.Text.Search
import WorkflowBundle.Proofs.Text.Trimming

namespace WorkflowBundle.CommandLine

/-- Only the words of settings are followed by a value. -/
def Word.isSetting : Word → Bool
  | .setting _ => true
  | _ => false

/-- A group is one argument, together with the next one where this is its value. -/
structure Group where
  argument : String
  value : Option String
deriving DecidableEq

namespace Group

/-- The word of a group is that of its first argument. -/
def word (group : Group) : Word := Word.ofArgument group.argument

/-- A group is written as its argument and its value. -/
def written (group : Group) : List String := group.argument :: group.value.toList

/-- A group may ask for help or for the version. -/
def request? (group : Group) : Option Request :=
  match group.word with
  | .help => some .help
  | .version => some .version
  | _ => none

/-- The value of a group belongs to the setting that it names. -/
def valueFor? (setting : Setting) (group : Group) : Option String :=
  if group.word = .setting setting then group.value else none

/-- A group may be an argument that names the workflow. -/
def position? (group : Group) : Option String :=
  if group.word = .positional then some group.argument else none

end Group

/-- From the left, a setting takes the next argument as its value, and any other argument stands
alone. -/
def groups : List String → List Group
  | [] => []
  | [argument] => [⟨argument, none⟩]
  | argument :: next :: rest =>
    if (Word.ofArgument argument).isSetting then ⟨argument, some next⟩ :: groups rest
    else ⟨argument, none⟩ :: groups (next :: rest)

/-- The values of a setting are listed in order. -/
def valuesFor (setting : Setting) (parts : List Group) : List String :=
  parts.filterMap (Group.valueFor? setting)

def positions (parts : List Group) : List String :=
  parts.filterMap Group.position?

/-- A variable is bound by a key that is not blank, the first equals sign and the value behind it. The
blanks around the key do not count. -/
def Binds (pair : String) (entry : String × String) : Prop :=
  ∃ key, pair = key ++ "=" ++ entry.2 ∧ '=' ∉ key.toList ∧ Text.isBlankText key = false ∧
    entry.1 = Text.trim key

/-- No group asks for help or for the version. -/
def Silent (parts : List Group) : Prop :=
  ∀ group ∈ parts, group.request? = none

/-- Groups are free of errors when every setting has a value, every variable is bound, every word that
starts with a hyphen is known, and the workflow is named at most once. -/
structure Faultless (parts : List Group) : Prop where
  complete : ∀ group ∈ parts, group.word.isSetting = true → group.value ≠ none
  bound : ∀ pair ∈ valuesFor .assignment parts, ∃ entry, Binds pair entry
  known : ∀ group ∈ parts, group.word ≠ .unknown
  single : (positions parts).length ≤ 1

/-- The switch of a flag. -/
def Options.isEnabled (options : Options) : Flag → Bool
  | .linksOnly => options.linksOnly
  | .check => options.check
  | .json => options.json
  | .verbose => options.verbose

/-- Options collect groups when they have the last value of each setting, all variables and context
files in order, and the flags that are given. -/
structure Collects (options : Options) (parts : List Group) : Prop where
  workflow : options.workflow = (positions parts).getLast?.map Path.mk
  projectRoot : options.projectRoot = (valuesFor .projectRoot parts).getLast?.map Path.mk
  outputFolder : options.outputFolder = (valuesFor .outputFolder parts).getLast?.map Path.mk
  configuration : options.configuration = (valuesFor .configuration parts).getLast?.map Path.mk
  mode : options.mode = (valuesFor .mode parts).getLast?
  bindings : List.Forall₂ Binds (valuesFor .assignment parts) options.bindings
  contextFiles : options.contextFiles = (valuesFor .contextFile parts).map Path.mk
  flags : ∀ flag, options.isEnabled flag = true ↔ ∃ group ∈ parts, group.word = .flag flag

section

variable {pair argument : String} {entry : String × String} {options next : Options}
  {parts rest : List Group} {group : Group}

/-- A pair assigns a variable exactly when it binds it. -/
theorem assignment?_eq_some_iff : Options.assignment? pair = some entry ↔ Binds pair entry := by
  have sign : (['='] : List Char) ≠ [] := List.cons_ne_nil _ _
  rw [Options.assignment?, Option.bind_eq_some_iff, Prod.exists]
  simp only [Text.cut?_eq_some_iff sign, Text.isEmpty_trim, Option.ite_none_left_eq_some,
    Option.some.injEq, List.dropLast_singleton, List.append_nil, List.singleton_infix_iff]
  constructor
  · rintro ⟨key, value, ⟨whole, fresh⟩, written, rfl⟩
    refine ⟨String.ofList key, ?_, by simpa using fresh, by simpa using written, rfl⟩
    apply String.toList_injective
    simpa using whole
  · rintro ⟨key, rfl, fresh, written, named⟩
    refine ⟨key.toList, entry.2.toList, ⟨by simp, fresh⟩, ?_, ?_⟩
    · simpa using written
    · rw [String.ofList_toList, String.ofList_toList, ← named]

theorem written_groups (arguments : List String) :
    (groups arguments).flatMap Group.written = arguments := by
  fun_induction groups arguments with
  | case1 => rfl
  | case2 argument => rfl
  | case3 argument next rest _ inductionHypothesis =>
      simp [Group.written, inductionHypothesis]
  | case4 argument next rest _ inductionHypothesis =>
      simp [Group.written, inductionHypothesis]

/-- A group that asks for nothing changes the options or is refused. -/
def take (options : Options) (group : Group) : Except ArgumentError Options :=
  match group.word, group.value with
  | .flag flag, _ => .ok (options.enable flag)
  | .setting setting, some value => options.assign value setting
  | .setting _, none => .error (.missingValue group.argument)
  | .unknown, _ => .error (.unknownOption group.argument)
  | .positional, _ =>
    if options.workflow.isSome then .error (.unexpectedArgument group.argument)
    else .ok { options with workflow := some ⟨group.argument⟩ }
  | .help, _ | .version, _ => .ok options

/-- Groups are taken one after the other, until one asks for something or is refused. -/
def readGroups (options : Options) : List Group → Except ArgumentError Request
  | [] => .ok (.compile options)
  | group :: rest =>
    match group.request?, take options group with
    | some request, _ => .ok request
    | none, .ok next => readGroups next rest
    | none, .error refusal => .error refusal

/-- Arguments are read group by group. -/
theorem parseFrom_eq_readGroups (options : Options) (arguments : List String) :
    parseFrom options arguments = readGroups options (groups arguments) := by
  fun_induction groups arguments generalizing options with
  | case1 => rfl
  | case2 argument =>
      simp only [parseFrom, readGroups, Group.request?, take, Group.word]
      cases Word.ofArgument argument with
      | positional => cases options.workflow <;> rfl
      | _ => rfl
  | case3 argument next rest setting inductionHypothesis =>
      simp only [parseFrom, readGroups, Group.request?, take, Group.word]
      cases named : Word.ofArgument argument with
      | setting taken =>
          cases assigned : options.assign next taken with
          | ok changed => simp [assigned, inductionHypothesis]
          | error refusal => simp [assigned]
      | _ => simp [named, Word.isSetting] at setting
  | case4 argument next rest single inductionHypothesis =>
      rw [parseFrom, readGroups, Group.request?, take, Group.word]
      cases named : Word.ofArgument argument with
      | setting taken => simp [named, Word.isSetting] at single
      | positional =>
          dsimp only
          cases options.workflow with
          | some path => rfl
          | none => exact inductionHypothesis _
      | flag flag => exact inductionHypothesis _
      | _ => rfl

/-- The values of a setting in two lists of groups come one after the other. -/
theorem valuesFor_append (setting : Setting) (parts rest : List Group) :
    valuesFor setting (parts ++ rest) = valuesFor setting parts ++ valuesFor setting rest :=
  List.filterMap_append

theorem positions_append (parts rest : List Group) :
    positions (parts ++ rest) = positions parts ++ positions rest :=
  List.filterMap_append

theorem Faultless.of_append (faultless : Faultless (parts ++ rest)) : Faultless parts where
  complete group member := faultless.complete group (List.mem_append_left rest member)
  bound pair member := faultless.bound pair <| by
    rw [valuesFor_append]
    exact List.mem_append_left _ member
  known group member := faultless.known group (List.mem_append_left rest member)
  single := by
    have few := faultless.single
    rw [positions_append, List.length_append] at few
    omega

theorem Options.isEnabled_enable (flag other : Flag) :
    (options.enable flag).isEnabled other = true ↔ options.isEnabled other = true ∨ flag = other := by
  cases flag <;> cases other <;> simp [Options.enable, Options.isEnabled]

/-- A step without a request is that of a flag, of a setting with its value, or of the name of the
workflow where there is none. -/
theorem take_eq_ok (silent : group.request? = none) (taken : take options group = .ok next) :
    (∃ flag, group.word = .flag flag ∧ next = options.enable flag) ∨
      (∃ setting value, group.word = .setting setting ∧ group.value = some value ∧
        options.assign value setting = .ok next) ∨
      (group.word = .positional ∧ options.workflow = none ∧
        next = { options with workflow := some ⟨group.argument⟩ }) := by
  rw [take] at taken
  split at taken
  · rename_i flag named
    exact .inl ⟨flag, named, (Except.ok.inj taken).symm⟩
  · rename_i setting value named given
    exact .inr (.inl ⟨setting, value, named, given, taken⟩)
  · cases taken
  · cases taken
  · rename_i named
    split at taken
    · cases taken
    · rename_i unnamed
      exact .inr (.inr ⟨named, by simpa using unnamed, (Except.ok.inj taken).symm⟩)
  · rename_i named
    simp [Group.request?, named] at silent
  · rename_i named
    simp [Group.request?, named] at silent

/-- Assigning a value fails only for a variable that the value does not bind. -/
theorem Options.exists_assign_eq_ok_iff {value : String} {setting : Setting} :
    (∃ next, options.assign value setting = .ok next) ↔
      (setting = .assignment → ∃ entry, Binds value entry) := by
  simp only [← assignment?_eq_some_iff]
  cases setting with
  | assignment => cases bound : Options.assignment? value <;> simp [Options.assign, bound]
  | _ => simp [Options.assign]

/-- The values of a setting go on with that of the last group. -/
theorem valuesFor_concat (setting : Setting) :
    valuesFor setting (parts ++ [group]) =
      valuesFor setting parts ++ (group.valueFor? setting).toList := by
  rw [valuesFor_append, List.append_cancel_left_eq, valuesFor, List.filterMap_cons,
    List.filterMap_nil]
  cases group.valueFor? setting <;> rfl

theorem positions_concat :
    positions (parts ++ [group]) = positions parts ++ group.position?.toList := by
  rw [positions_append, List.append_cancel_left_eq, positions, List.filterMap_cons,
    List.filterMap_nil]
  cases group.position? <;> rfl

/-- The flags of some groups and one more are those of the groups and that of the last one. -/
theorem exists_flag_concat_iff {flag : Flag} :
    (∃ other ∈ parts ++ [group], other.word = .flag flag) ↔
      (∃ other ∈ parts, other.word = .flag flag) ∨ group.word = .flag flag := by
  simp [or_and_right, exists_or]

/-- Options that collect groups collect one more flag when it is switched on. -/
theorem Collects.enable (collects : Collects options parts) {flag : Flag}
    (named : group.word = .flag flag) : Collects (options.enable flag) (parts ++ [group]) := by
  have values (setting : Setting) : valuesFor setting (parts ++ [group]) =
      valuesFor setting parts := by
    simp [valuesFor_concat, Group.valueFor?, named]
  have places : positions (parts ++ [group]) = positions parts := by
    simp [positions_concat, Group.position?, named]
  obtain ⟨linksOnly, check, json, verbose, switched⟩ : ∃ linksOnly check json verbose,
      options.enable flag = { options with linksOnly, check, json, verbose } := by
    cases flag <;> exact ⟨_, _, _, _, rfl⟩
  refine ⟨?_, ?_, ?_, ?_, ?_, ?_, ?_, fun other => ?_⟩
  · rw [switched, places, ← collects.workflow]
  · rw [switched, values, ← collects.projectRoot]
  · rw [switched, values, ← collects.outputFolder]
  · rw [switched, values, ← collects.configuration]
  · rw [switched, values, ← collects.mode]
  · rw [switched, values]
    exact collects.bindings
  · rw [switched, values, ← collects.contextFiles]
  · rw [Options.isEnabled_enable, collects.flags, exists_flag_concat_iff, named, Word.flag.injEq]

theorem Collects.place (collects : Collects options parts) (named : group.word = .positional) :
    Collects { options with workflow := some ⟨group.argument⟩ } (parts ++ [group]) := by
  have values (setting : Setting) : valuesFor setting (parts ++ [group]) =
      valuesFor setting parts := by
    simp [valuesFor_concat, Group.valueFor?, named]
  refine ⟨?_, ?_, ?_, ?_, ?_, ?_, ?_, fun other => ?_⟩
  · simp [positions_concat, Group.position?, named]
  · rw [values, ← collects.projectRoot]
  · rw [values, ← collects.outputFolder]
  · rw [values, ← collects.configuration]
  · rw [values, ← collects.mode]
  · rw [values]
    exact collects.bindings
  · rw [values, ← collects.contextFiles]
  · have same := collects.flags other
    rw [exists_flag_concat_iff, ← same, named]
    cases other <;> simp [Options.isEnabled]

theorem Collects.assign (collects : Collects options parts) {setting : Setting} {value : String}
    (named : group.word = .setting setting) (given : group.value = some value)
    (assigned : options.assign value setting = .ok next) : Collects next (parts ++ [group]) := by
  have values (other : Setting) : valuesFor other (parts ++ [group]) =
      valuesFor other parts ++ if setting = other then [value] else [] := by
    rw [valuesFor_concat, Group.valueFor?, named, given]
    by_cases same : setting = other <;> simp [same]
  have places : positions (parts ++ [group]) = positions parts := by
    simp [positions_concat, Group.position?, named]
  have flags (flag : Flag) : options.isEnabled flag = true ↔
      ∃ other ∈ parts ++ [group], other.word = .flag flag := by
    rw [exists_flag_concat_iff, named, collects.flags]
    simp
  obtain ⟨workflow, projectRoot, outputFolder, configuration, mode, bindings, contextFiles, -⟩ :=
    collects
  cases setting with
  | assignment =>
      rw [Options.assign] at assigned
      split at assigned
      · rename_i entry bound
        obtain rfl := Except.ok.inj assigned
        refine ⟨?_, ?_, ?_, ?_, ?_, ?_, ?_, flags⟩ <;> simp [*]
        exact List.rel_append bindings (.cons (assignment?_eq_some_iff.1 bound) .nil)
      · cases assigned
  | _ =>
      obtain rfl := Except.ok.inj assigned
      refine ⟨?_, ?_, ?_, ?_, ?_, ?_, ?_, flags⟩ <;> simp [*]

/-- A step leads from faultless groups and their options to those with one group more. -/
theorem Collects.take (collects : Collects options parts) (faultless : Faultless parts)
    (silent : group.request? = none) (taken : take options group = .ok next) :
    Faultless (parts ++ [group]) ∧ Collects next (parts ++ [group]) := by
  have known (good : group.word ≠ .unknown) : ∀ other ∈ parts ++ [group], other.word ≠ .unknown :=
    List.forall_mem_append.2 ⟨faultless.known, by simpa using good⟩
  have complete (good : group.word.isSetting = true → group.value ≠ none) :
      ∀ other ∈ parts ++ [group], other.word.isSetting = true → other.value ≠ none :=
    List.forall_mem_append.2 ⟨faultless.complete, by simpa using good⟩
  have bound (good : ∀ pair, group.valueFor? .assignment = some pair → ∃ entry, Binds pair entry) :
      ∀ pair ∈ valuesFor .assignment (parts ++ [group]), ∃ entry, Binds pair entry := by
    rw [valuesFor_concat]
    exact List.forall_mem_append.2 ⟨faultless.bound, by simpa using good⟩
  rcases take_eq_ok silent taken with ⟨flag, named, rfl⟩ |
    ⟨setting, value, named, given, assigned⟩ | ⟨named, unnamed, rfl⟩
  · refine ⟨⟨complete ?_, bound ?_, known ?_, ?_⟩, collects.enable named⟩
    · simp [named, Word.isSetting]
    · simp [Group.valueFor?, named]
    · simp [named]
    · simpa [positions_concat, Group.position?, named] using faultless.single
  · refine ⟨⟨complete ?_, bound ?_, known ?_, ?_⟩, collects.assign named given assigned⟩
    · simp [given]
    · intro pair same
      rw [Group.valueFor?, named, given, Option.ite_none_right_eq_some, Word.setting.injEq,
        Option.some.injEq] at same
      obtain ⟨rfl, rfl⟩ := same
      exact Options.exists_assign_eq_ok_iff.1 ⟨next, assigned⟩ rfl
    · simp [named]
    · simpa [positions_concat, Group.position?, named] using faultless.single
  · have first : positions parts = [] := by simpa [unnamed] using collects.workflow.symm
    refine ⟨⟨complete ?_, bound ?_, known ?_, ?_⟩, collects.place named⟩
    · simp [named, Word.isSetting]
    · simp [Group.valueFor?, named]
    · simp [named]
    · simp [positions_concat, Group.position?, named, first]

/-- A refused step makes groups faulty. -/
theorem Collects.not_faultless (collects : Collects options parts) {refusal : ArgumentError}
    (refused : CommandLine.take options group = .error refusal) :
    ¬ Faultless (parts ++ [group]) := by
  intro faultless
  have here : group ∈ parts ++ [group] := List.mem_append_right _ List.mem_cons_self
  rw [CommandLine.take] at refused
  split at refused
  · cases refused
  · rename_i setting value named given
    have assigned : ∃ next, options.assign value setting = .ok next := by
      rw [Options.exists_assign_eq_ok_iff]
      rintro rfl
      refine faultless.bound value ?_
      simp [valuesFor_concat, Group.valueFor?, named, given]
    obtain ⟨next, assigned⟩ := assigned
    rw [assigned] at refused
    cases refused
  · rename_i setting named missing
    exact faultless.complete group here (by rw [named]; rfl) missing
  · rename_i named
    exact faultless.known group here named
  · rename_i named
    split at refused
    · rename_i placed
      have few := faultless.single
      rw [collects.workflow, Option.isSome_map, List.getLast?_isSome] at placed
      rw [positions_concat, Group.position?, if_pos named] at few
      have some := List.length_pos_iff.2 placed
      simp only [List.length_append, Option.toList_some, List.length_singleton] at few
      omega
    · cases refused
  · cases refused
  · cases refused

/-- Faultless groups that ask for nothing are taken to the last one. -/
theorem Collects.through {before earlier : List Group} (collects : Collects options before)
    (silent : Silent earlier) (faultless : Faultless (before ++ earlier)) (rest : List Group) :
    ∃ next, Collects next (before ++ earlier) ∧
      readGroups options (earlier ++ rest) = readGroups next rest := by
  induction earlier generalizing before options with
  | nil => exact ⟨options, by simpa using collects, rfl⟩
  | cons group earlier inductionHypothesis =>
      rw [List.append_cons] at faultless ⊢
      have quiet : group.request? = none := silent group List.mem_cons_self
      cases taken : CommandLine.take options group with
      | error refusal => exact absurd faultless.of_append (collects.not_faultless taken)
      | ok middle =>
          obtain ⟨-, collected⟩ := collects.take faultless.of_append.of_append quiet taken
          obtain ⟨next, whole, same⟩ := inductionHypothesis collected
            (fun other member => silent other (List.mem_cons_of_mem _ member)) faultless
          refine ⟨next, whole, ?_⟩
          rw [List.cons_append, readGroups, quiet, taken, ← same]

/-- What is read is the request of a group behind faultless ones, or else the options that collect all
groups, which ask for nothing and are faultless. -/
theorem Collects.of_readGroups {before rest : List Group} {request : Request}
    (collects : Collects options before) (faultless : Faultless before)
    (read : readGroups options rest = .ok request) :
    (∃ earlier group after, rest = earlier ++ group :: after ∧ group.request? = some request ∧
        Silent earlier ∧ Faultless (before ++ earlier)) ∨
      ∃ compiled, request = .compile compiled ∧ Silent rest ∧ Faultless (before ++ rest) ∧
        Collects compiled (before ++ rest) := by
  induction rest generalizing before options with
  | nil =>
      rw [readGroups, Except.ok.injEq] at read
      exact .inr ⟨options, read.symm, by simp [Silent], by rwa [List.append_nil],
        by rwa [List.append_nil]⟩
  | cons group rest inductionHypothesis =>
      rw [readGroups] at read
      cases quiet : group.request? with
      | some asked =>
          rw [quiet, Except.ok.injEq] at read
          exact .inl ⟨[], group, rest, rfl, by rw [quiet, read], by simp [Silent],
            by rwa [List.append_nil]⟩
      | none =>
          cases taken : CommandLine.take options group with
          | error refusal => simp [quiet, taken] at read
          | ok middle =>
              rw [quiet, taken] at read
              obtain ⟨sound, collected⟩ := collects.take faultless quiet taken
              rw [List.append_cons]
              rcases inductionHypothesis collected sound read with
                ⟨earlier, other, after, rfl, asked, silent, sound⟩ |
                  ⟨compiled, named, silent, whole⟩
              · exact .inl ⟨group :: earlier, other, after, rfl, asked,
                  List.forall_mem_cons.2 ⟨quiet, silent⟩, by rwa [List.append_cons]⟩
              · exact .inr ⟨compiled, named, List.forall_mem_cons.2 ⟨quiet, silent⟩, whole⟩

theorem collects_nil : Collects {} [] := by
  refine ⟨rfl, rfl, rfl, rfl, rfl, .nil, rfl, fun flag => ?_⟩
  cases flag <;> simp [Options.isEnabled]

/-- Groups determine the options that collect them. -/
theorem Collects.unique {first second : Options} (one : Collects first parts)
    (other : Collects second parts) : first = second := by
  have same : Relator.RightUnique Binds := fun pair first second one other => by
    rw [← assignment?_eq_some_iff] at one other
    exact Option.some.inj (one.symm.trans other)
  have bindings := same.forall₂ one.bindings other.bindings
  have flags (flag : Flag) : first.isEnabled flag = second.isEnabled flag := by
    rw [Bool.eq_iff_iff, one.flags, other.flags]
  have linksOnly := flags .linksOnly
  have check := flags .check
  have json := flags .json
  have verbose := flags .verbose
  have workflow := one.workflow.trans other.workflow.symm
  have projectRoot := one.projectRoot.trans other.projectRoot.symm
  have outputFolder := one.outputFolder.trans other.outputFolder.symm
  have configuration := one.configuration.trans other.configuration.symm
  have mode := one.mode.trans other.mode.symm
  have contextFiles := one.contextFiles.trans other.contextFiles.symm
  cases first
  cases second
  simp_all [Options.isEnabled]

theorem Group.request?_ne_compile (group : Group) : group.request? ≠ some (.compile options) := by
  rw [Group.request?]
  split <;> simp

/-- No request precedes a group that asks for something, and the groups in front of it are
faultless. -/
def Asks (parts : List Group) (request : Request) : Prop :=
  ∃ before group after, parts = before ++ group :: after ∧ group.request? = some request ∧
    Silent before ∧ Faultless before

/-- What is read is what the first asking group asks for, or else the options that collect all
groups. -/
theorem readGroups_eq_ok {request : Request} (read : readGroups {} parts = .ok request) :
    Asks parts request ∨ ∃ compiled, request = .compile compiled ∧ Silent parts ∧ Faultless parts ∧
      Collects compiled parts := by
  have nothing : Faultless [] := ⟨by simp, by simp [valuesFor], by simp, by simp [positions]⟩
  exact collects_nil.of_readGroups nothing read

/-- Faultless groups that ask for nothing are compiled with the options that collect them. -/
theorem exists_readGroups_eq_ok (silent : Silent parts) (faultless : Faultless parts) :
    ∃ compiled, Collects compiled parts ∧ readGroups {} parts = .ok (.compile compiled) := by
  obtain ⟨compiled, collects, same⟩ := collects_nil.through silent faultless []
  exact ⟨compiled, collects, by rwa [List.append_nil] at same⟩

/-- The first group that asks for something is answered when the groups in front of it are
faultless. -/
theorem Asks.readGroups_eq_ok {request : Request} (asks : Asks parts request) :
    readGroups {} parts = .ok request := by
  obtain ⟨before, group, after, rfl, asked, silent, faultless⟩ := asks
  obtain ⟨next, -, same⟩ := collects_nil.through silent faultless (group :: after)
  rw [same, readGroups, asked]

/-- Groups are silent where none of them is the first to ask for something. -/
theorem silent_of_not_asks (faultless : Faultless parts)
    (unasked : ∀ request, ¬ Asks parts request) : Silent parts := by
  induction parts using List.reverseRecOn with
  | nil => simp [Silent]
  | append_singleton parts group inductionHypothesis =>
      have silent : Silent parts := by
        refine inductionHypothesis faultless.of_append fun request asks => ?_
        obtain ⟨before, first, after, rfl, asked⟩ := asks
        exact unasked request ⟨before, first, after ++ [group], by simp, asked⟩
      refine List.forall_mem_append.2 ⟨silent, ?_⟩
      rw [List.forall_mem_singleton, Option.eq_none_iff_forall_ne_some]
      exact fun request asked => unasked request
        ⟨parts, group, [], rfl, asked, silent, faultless.of_append⟩

/-- A group is whole when it has a value exactly where its word takes one. -/
def Group.IsWhole (group : Group) : Prop :=
  group.value.isSome = group.word.isSetting

theorem groups_flatMap_written (whole : ∀ group ∈ parts, group.IsWhole) :
    groups (parts.flatMap Group.written) = parts := by
  induction parts with
  | nil => rfl
  | cons group parts inductionHypothesis =>
      obtain ⟨here, others⟩ := List.forall_mem_cons.1 whole
      obtain ⟨argument, value⟩ := group
      rw [List.flatMap_cons, Group.written]
      cases value with
      | some value =>
          have setting : (Word.ofArgument argument).isSetting = true := here.symm
          simp [groups, setting, inductionHypothesis others]
      | none =>
          have alone : (Word.ofArgument argument).isSetting = false := here.symm
          have rest := inductionHypothesis others
          cases written : parts.flatMap Group.written with
          | nil =>
              rw [written, groups] at rest
              simp [groups, ← rest]
          | cons next others =>
              rw [written] at rest
              simp [groups, alone, rest]

theorem value_eq_none_of_mem_groups {arguments : List String} :
    ∀ group ∈ groups arguments, group.word.isSetting = false → group.value = none := by
  fun_induction groups arguments with
  | case1 => simp
  | case2 argument => simp
  | case3 argument next rest setting inductionHypothesis =>
      refine List.forall_mem_cons.2 ⟨fun alone => ?_, inductionHypothesis⟩
      rw [Group.word, setting] at alone
      cases alone
  | case4 argument next rest single inductionHypothesis =>
      exact List.forall_mem_cons.2 ⟨fun _ => rfl, inductionHypothesis⟩

theorem Faultless.isWhole {arguments : List String} (faultless : Faultless (groups arguments)) :
    ∀ group ∈ groups arguments, group.IsWhole := by
  intro group member
  rw [Group.IsWhole]
  cases setting : group.word.isSetting with
  | false => rw [value_eq_none_of_mem_groups group member setting, Option.isSome_none]
  | true => exact Option.isSome_iff_ne_none.2 (faultless.complete group member setting)

end

section

variable {before after : List Group} {first second : Group} {options : Options}

/-- Two neighbours of which one gives nothing may be exchanged. -/
theorem filterMap_exchange {read : Group → Option String}
    (apart : read first = none ∨ read second = none) :
    (before ++ second :: first :: after).filterMap read =
      (before ++ first :: second :: after).filterMap read := by
  rcases apart with nothing | nothing <;> simp [List.filterMap_cons, nothing]

/-- Neighbours with different words may be exchanged without a change to the values of a setting. -/
theorem valuesFor_exchange (apart : first.word ≠ second.word) (setting : Setting) :
    valuesFor setting (before ++ second :: first :: after) =
      valuesFor setting (before ++ first :: second :: after) := by
  refine filterMap_exchange ?_
  by_cases named : first.word = .setting setting
  · exact .inr (if_neg fun other => apart (named.trans other.symm))
  · exact .inl (if_neg named)

/-- Neighbours with different words may be exchanged without a change to the name of the
workflow. -/
theorem positions_exchange (apart : first.word ≠ second.word) :
    positions (before ++ second :: first :: after) =
      positions (before ++ first :: second :: after) := by
  refine filterMap_exchange ?_
  by_cases named : first.word = .positional
  · exact .inr (if_neg fun other => apart (named.trans other.symm))
  · exact .inl (if_neg named)

theorem mem_exchange_iff {group : Group} :
    group ∈ before ++ second :: first :: after ↔ group ∈ before ++ first :: second :: after :=
  ((List.Perm.swap first second after).append_left before).mem_iff

theorem Faultless.exchange (faultless : Faultless (before ++ first :: second :: after))
    (apart : first.word ≠ second.word) : Faultless (before ++ second :: first :: after) where
  complete group member := faultless.complete group (mem_exchange_iff.1 member)
  bound pair member := faultless.bound pair (valuesFor_exchange apart .assignment ▸ member)
  known group member := faultless.known group (mem_exchange_iff.1 member)
  single := positions_exchange apart ▸ faultless.single

theorem Collects.of_exchange (collects : Collects options (before ++ second :: first :: after))
    (apart : first.word ≠ second.word) :
    Collects options (before ++ first :: second :: after) := by
  obtain ⟨workflow, projectRoot, outputFolder, configuration, mode, bindings, contextFiles, flags⟩ :=
    collects
  simp only [valuesFor_exchange apart, positions_exchange apart, mem_exchange_iff] at *
  exact ⟨workflow, projectRoot, outputFolder, configuration, mode, bindings, contextFiles, flags⟩

/-- Groups with different words are compiled to the same options after an exchange. -/
theorem readGroups_exchange (apart : first.word ≠ second.word)
    (silent : Silent (before ++ first :: second :: after))
    (faultless : Faultless (before ++ first :: second :: after))
    (collects : Collects options (before ++ first :: second :: after)) :
    readGroups {} (before ++ second :: first :: after) = .ok (.compile options) := by
  obtain ⟨other, collected, same⟩ := exists_readGroups_eq_ok
    (fun group member => silent group (mem_exchange_iff.1 member)) (faultless.exchange apart)
  rwa [collects.unique (collected.of_exchange apart)]

end

/-- Arguments are read from left to right as groups. The first group that asks for help or for the
version is answered if the groups in front of it are faultless. Otherwise the arguments are compiled
exactly when all groups are faultless, with the options that collect the groups. Neighbours with
different words may be exchanged. -/
theorem arguments_are_read_as_groups (arguments : List String) :
    (groups arguments).flatMap Group.written = arguments ∧
      (∀ request, Asks (groups arguments) request → parse arguments = .ok request) ∧
      ((∀ request, ¬ Asks (groups arguments) request) →
        ((∃ options, parse arguments = .ok (.compile options)) ↔ Faultless (groups arguments)) ∧
        ∀ request, parse arguments = .ok request →
          ∃ options, request = .compile options ∧ Collects options (groups arguments)) ∧
      ∀ options, parse arguments = .ok (.compile options) →
        ∀ before first second after, groups arguments = before ++ first :: second :: after →
          first.word ≠ second.word →
          parse ((before ++ second :: first :: after).flatMap Group.written) =
            .ok (.compile options) := by
  simp only [parse, parseFrom_eq_readGroups]
  refine ⟨written_groups arguments, fun request asks => asks.readGroups_eq_ok, fun unasked => ?_, ?_⟩
  · have compiled {request : Request} (read : readGroups {} (groups arguments) = .ok request) :=
      (readGroups_eq_ok read).resolve_left (unasked request)
    refine ⟨⟨?_, fun faultless => ?_⟩, fun request read => ?_⟩
    · rintro ⟨options, read⟩
      obtain ⟨-, -, -, faultless, -⟩ := compiled read
      exact faultless
    · obtain ⟨options, -, read⟩ :=
        exists_readGroups_eq_ok (silent_of_not_asks faultless unasked) faultless
      exact ⟨options, read⟩
    · obtain ⟨options, named, -, -, collects⟩ := compiled read
      exact ⟨options, named, collects⟩
  · intro options read before first second after split apart
    have unasked : ¬ Asks (groups arguments) (.compile options) := by
      rintro ⟨_, group, _, -, asked, -⟩
      exact group.request?_ne_compile asked
    obtain ⟨_, named, silent, faultless, collects⟩ := (readGroups_eq_ok read).resolve_left unasked
    obtain rfl := Request.compile.inj named
    have whole := faultless.isWhole
    rw [split] at silent faultless collects whole
    rw [groups_flatMap_written fun group member => whole group (mem_exchange_iff.1 member)]
    exact readGroups_exchange apart silent faultless collects

/-- A value may look like an option, and it may contain equals signs. -/
example : parse ["w", "--var", " key =a=b", "--mode", "--help"] =
    .ok (.compile { workflow := some ⟨"w"⟩, mode := "--help", bindings := [("key", "a=b")] }) := by
  decide +kernel

end WorkflowBundle.CommandLine
