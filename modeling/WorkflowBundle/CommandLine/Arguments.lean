/-
This file reads the arguments of the command line.
-/

import WorkflowBundle.Path
import WorkflowBundle.Text.Blank

namespace WorkflowBundle.CommandLine

/-- Options say which workflow is compiled and how. -/
structure Options where
  workflow : Option Path := none
  projectRoot : Option Path := none
  outputFolder : Option Path := none
  configuration : Option Path := none
  mode : Option String := none
  bindings : List (String × String) := []
  contextFiles : List Path := []
  linksOnly : Bool := false
  check : Bool := false
  json : Bool := false
  verbose : Bool := false
deriving DecidableEq, Repr

/-- A request asks for a compilation, for help or for the version. -/
inductive Request where
  | compile (options : Options)
  | help
  | version
deriving DecidableEq, Repr

/-- Arguments are refused for one of these reasons. -/
inductive ArgumentError where
  | missingValue (option : String)
  | malformedVariable (pair : String)
  | unknownOption (argument : String)
  | unexpectedArgument (argument : String)
deriving DecidableEq, Repr

/-- A refusal is shown with the argument it is about. -/
def ArgumentError.message : ArgumentError → String
  | .missingValue option => s!"{option} requires a value"
  | .malformedVariable pair => s!"Invalid variable '{pair}', expected KEY=VALUE"
  | .unknownOption argument => s!"Unknown option: {argument}"
  | .unexpectedArgument argument => s!"Unexpected argument: {argument}"

/-- These words stand alone and switch something on. -/
inductive Flag where
  | linksOnly
  | check
  | json
  | verbose
deriving DecidableEq, Repr

/-- These words are followed by a value. -/
inductive Setting where
  | projectRoot
  | outputFolder
  | configuration
  | mode
  | assignment
  | contextFile
deriving DecidableEq, Repr

/-- An argument is a word of the command line, or it names the workflow. -/
inductive Word where
  | help
  | version
  | flag (flag : Flag)
  | setting (setting : Setting)
  | unknown
  | positional
deriving DecidableEq, Repr

/-- The words of the command line start with a hyphen. -/
def Word.ofArgument : String → Word
  | "--help" | "-h" => .help
  | "--version" | "-V" => .version
  | "--links-only" => .flag .linksOnly
  | "--check" => .flag .check
  | "--json" => .flag .json
  | "--verbose" | "-v" => .flag .verbose
  | "--project-root" => .setting .projectRoot
  | "--output-folder" => .setting .outputFolder
  | "--config" => .setting .configuration
  | "--mode" => .setting .mode
  | "--var" => .setting .assignment
  | "--context-file" => .setting .contextFile
  | argument => if argument.toList.head? == some '-' then .unknown else .positional

namespace Options

/-- A flag switches its option on. -/
def enable (options : Options) : Flag → Options
  | .linksOnly => { options with linksOnly := true }
  | .check => { options with check := true }
  | .json => { options with json := true }
  | .verbose => { options with verbose := true }

/-- A variable is a name, an equals sign and a value, and blanks around the name do not count. -/
def assignment? (pair : String) : Option (String × String) :=
  (Text.cut? ['='] pair.toList).bind fun (name, value) =>
    let name := Text.trim (String.ofList name)
    if name.isEmpty then none else some (name, String.ofList value)

/-- A setting takes its last value, but variables and context files are collected in order. -/
def assign (options : Options) (value : String) : Setting → Except ArgumentError Options
  | .projectRoot => .ok { options with projectRoot := some ⟨value⟩ }
  | .outputFolder => .ok { options with outputFolder := some ⟨value⟩ }
  | .configuration => .ok { options with configuration := some ⟨value⟩ }
  | .mode => .ok { options with mode := some value }
  | .contextFile => .ok { options with contextFiles := options.contextFiles ++ [⟨value⟩] }
  | .assignment =>
    match assignment? value with
    | some entry => .ok { options with bindings := options.bindings ++ [entry] }
    | none => .error (.malformedVariable value)

end Options

/-- Arguments are read from left to right until one of them is refused or asks for help or for the
version. -/
def parseFrom (options : Options) : List String → Except ArgumentError Request
  | [] => .ok (.compile options)
  | argument :: rest =>
    match Word.ofArgument argument with
    | .help => .ok .help
    | .version => .ok .version
    | .flag flag => parseFrom (options.enable flag) rest
    | .setting setting =>
      match rest with
      | [] => .error (.missingValue argument)
      | value :: others =>
        match options.assign value setting with
        | .ok assigned => parseFrom assigned others
        | .error refusal => .error refusal
    | .unknown => .error (.unknownOption argument)
    | .positional =>
      if options.workflow.isSome then .error (.unexpectedArgument argument)
      else parseFrom { options with workflow := some ⟨argument⟩ } rest

/-- The arguments do not include the name of the program. -/
def parse (arguments : List String) : Except ArgumentError Request :=
  parseFrom {} arguments

end WorkflowBundle.CommandLine
