import ApiPages.Settings.Basic

/-!
# Arguments

The command line names a command and then its options in any order, each at most once. An option
with a value takes it after an equals sign or as the next argument, which then must not look like an
option itself; one without a value has at most one letter for short, and letters may be written
together. Arguments that break a rule are refused as a whole.
-/

namespace ApiPages

/-- The settings that the command line chooses. -/
structure Overrides where
  moduleName : Option String
  minAccess : Option Access
  collapse : Bool
  contents : Bool
  collapsible : Bool
  linkStart : Option String
  linkEnd : Option String
deriving DecidableEq, Repr

/-- The settings with those that the command line chooses. What a file switches on stays on. -/
def Overrides.apply (o : Overrides) (s : Settings) : Settings where
  minAccess := o.minAccess.getD s.minAccess
  collapse := s.collapse || o.collapse
  moduleName := o.moduleName.or s.moduleName
  contents := s.contents || o.contents
  collapsible := s.collapsible || o.collapsible
  linkStart := o.linkStart.getD s.linkStart
  linkEnd := o.linkEnd.getD s.linkEnd

/-- What the command that writes pages is asked for. -/
structure GenerateOptions where
  /-- The path of the inventory. -/
  input : String
  /-- The path of the folder that pages are written to. -/
  output : String
  /-- Whether they go to a folder in it that is named for the module. -/
  includeModule : Bool
  /-- Whether pages have no footer, so that each run writes the same. -/
  reproducible : Bool
  /-- Whether the output folder is removed before pages are written. -/
  clean : Bool
  /-- The path of the settings file, if not the usual one. -/
  config : Option String
  overrides : Overrides
deriving DecidableEq, Repr

/-- What a command line asks for. -/
inductive Command where
  | version
  | help
  | generate (o : GenerateOptions)
  /-- Removes the folder at a path. -/
  | clean (output : String)
deriving DecidableEq, Repr

namespace Command

/-- The folder for pages where none is given. -/
def standardOutput : String :=
  "Documentation/Reference"

/-! ## Options -/

/-- An option with a value. -/
inductive ValueOption where
  | input
  | output
  | moduleName
  | minAccess
  | linkStart
  | linkEnd
  | config
deriving DecidableEq, Repr

/-- The name of the option. -/
def ValueOption.name : ValueOption → String
  | input => "input"
  | output => "output-folder"
  | moduleName => "module-name"
  | minAccess => "min-acl"
  | linkStart => "link-beginning"
  | linkEnd => "link-ending"
  | config => "config"

/-- Whether the option takes a value: a path must not be empty, and an access level must be one. -/
def ValueOption.takes (o : ValueOption) (value : String) : Bool :=
  match o with
  | input | output | config => !value.isEmpty
  | minAccess => (Access.ofWord? value).isSome
  | moduleName | linkStart | linkEnd => true

/-- An option without a value. -/
inductive Flag where
  | includeModule
  | collapse
  | contents
  | collapsible
  | reproducible
  | clean
deriving DecidableEq, Repr

/-- The name of the option. -/
def Flag.name : Flag → String
  | includeModule => "include-module-name"
  | collapse => "collapse"
  | contents => "table-of-contents"
  | collapsible => "collapsible"
  | reproducible => "reproducible-docs"
  | clean => "clean"

/-- The letter of the option, if it has one. -/
def Flag.letter? : Flag → Option Char
  | includeModule => some 'm'
  | reproducible => some 'r'
  | _ => none

/-- The options of a command. -/
structure Accepted where
  values : List ValueOption
  flags : List Flag

/-- The options of the command that writes pages. -/
def generateAccepted : Accepted where
  values := [.input, .output, .moduleName, .minAccess, .linkStart, .linkEnd, .config]
  flags := [.includeModule, .collapse, .contents, .collapsible, .reproducible, .clean]

/-- The options of the command that removes pages. -/
def cleanAccepted : Accepted where
  values := [.output]
  flags := []

/-- The options that are given; `help` when the command line asks for help at that point. -/
structure Given where
  values : List (ValueOption × String)
  flags : List Flag
  help : Bool
deriving DecidableEq, Repr

namespace Given

/-- The value of an option. -/
def value? (g : Given) (o : ValueOption) : Option String :=
  g.values.lookup o

/-- The options with one more value, if it is taken and the first of its option. -/
def addValue? (g : Given) (o : ValueOption) (value : String) : Option Given :=
  if (g.value? o).isSome || !o.takes value then none
  else some { g with values := (o, value) :: g.values }

/-- The options with one more flag, if it is not given yet. -/
def addFlag? (g : Given) (f : Flag) : Option Given :=
  if f ∈ g.flags then none else some { g with flags := f :: g.flags }

end Given

/-- Whether an argument looks like an option. -/
def isOption (argument : String) : Bool :=
  argument.toList.head? = some '-' && argument ≠ "-"

/-- The options with those of an argument of letters. -/
def addLetters? (accepted : Accepted) (g : Given) : List Char → Option Given
  | [] => some g
  | 'h' :: _ => some { g with help := true }
  | letter :: rest =>
    (accepted.flags.find? fun f => f.letter? = some letter).bind fun f =>
      (g.addFlag? f).bind fun g => addLetters? accepted g rest

/-- The name of a long option and the value after its equals sign, if there is one. -/
def splitOption (body : List Char) : String × Option String :=
  let name := String.ofList (body.takeWhile (· != '='))
  match body.dropWhile (· != '=') with
  | _ :: value => (name, some (String.ofList value))
  | [] => (name, none)

/-- The options that arguments give, after those given already. -/
def collect? (accepted : Accepted) (g : Given) : List String → Option Given
  | [] => some g
  | argument :: rest =>
    if g.help then some g
    else
      match argument.toList with
      | ['-', '-'] => if rest.isEmpty then some g else none
      | '-' :: '-' :: body =>
        let (name, value?) := splitOption body
        match accepted.values.find? fun o => o.name = name with
        | some o =>
          match value?, rest with
          | some value, rest => (g.addValue? o value).bind fun g => collect? accepted g rest
          | none, value :: rest =>
            if isOption value then none
            else (g.addValue? o value).bind fun g => collect? accepted g rest
          | none, [] => none
        | none =>
          if value?.isSome then none
          else if name = "help" then some { g with help := true }
          else (accepted.flags.find? fun f => f.name = name).bind fun f =>
            (g.addFlag? f).bind fun g => collect? accepted g rest
      | '-' :: letter :: letters =>
        (addLetters? accepted g (letter :: letters)).bind fun g => collect? accepted g rest
      | _ => none

/-! ## Commands -/

/-- The command that writes pages, with the options given; it needs an input. -/
def ofGiven? (g : Given) : Option Command :=
  if g.help then some .help
  else (g.value? .input).map fun input => .generate
    { input := input
      output := (g.value? .output).getD standardOutput
      includeModule := .includeModule ∈ g.flags
      reproducible := .reproducible ∈ g.flags
      clean := .clean ∈ g.flags
      config := g.value? .config
      overrides :=
        { moduleName := g.value? .moduleName
          minAccess := (g.value? .minAccess).bind Access.ofWord?
          collapse := .collapse ∈ g.flags
          contents := .contents ∈ g.flags
          collapsible := .collapsible ∈ g.flags
          linkStart := g.value? .linkStart
          linkEnd := g.value? .linkEnd } }

/-- Whether there is help on what arguments name: nothing, for help on all, or one command. -/
def isTopic : List String → Bool
  | [] => true
  | [name] => name = "generate" || name = "clean" || name = "help"
  | _ => false

/-- What a command line asks for, if it is not refused. -/
def ofArguments? : List String → Option Command
  | [] => none
  | first :: rest =>
    let start : Given := ⟨[], [], false⟩
    if first = "generate" then (collect? generateAccepted start rest).bind ofGiven?
    else if first = "clean" then
      (collect? cleanAccepted start rest).map fun g =>
        if g.help then .help else .clean ((g.value? .output).getD standardOutput)
    else if first = "--version" ∨ ['-', 'V'].isPrefixOf first.toList then some .version
    else if first = "--help" ∨ ['-', 'h'].isPrefixOf first.toList then some .help
    else if first = "help" ∧ isTopic rest then some .help
    else none

end Command

end ApiPages
