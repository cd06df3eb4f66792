/-!
# Command-line arguments

The program has a subcommand that relocates symbols, one that lists documents, and `help`. Options
may stand before or behind positional arguments; `--json` and `--verbose` may stand before the
subcommand as well. Behind `--` everything is positional.

Arguments are taken from left to right and the first fault is reported. The value of an option or of
a positional argument is looked at when the next known argument begins, or at the end.
-/

namespace DebugSymbols.CommandLine

/-- Why arguments are not followed. The first two are requests rather than faults. -/
inductive UsageError
  | displayHelp
  | displayVersion
  /-- No argument was given at all. -/
  | displayHelpOnMissing
  | missingSubcommand
  | invalidSubcommand
  | missingRequired
  | unknownArgument
  /-- An option or a flag was given twice. -/
  | argumentConflict
  /-- A value is missing or empty. -/
  | invalidValue
  /-- A flag was given a value. -/
  | tooManyValues
deriving DecidableEq, Repr

/-- What an option is for. -/
inductive Key
  | json
  | verbose
  | map
  | output
  | trusted
  | noEntryPoint
  | help
  | version
deriving DecidableEq, Repr

/-- An option: its names, and whether it takes a value. -/
structure OptionSpec where
  key : Key
  long : String
  short : Option Char
  takesValue : Bool
deriving DecidableEq, Repr

/-- What is accepted at a level of the command line. -/
structure LevelSpec where
  options : List OptionSpec
  /-- Whether there is a positional argument, the tree file. -/
  takesFile : Bool
  /-- The subcommands that may follow. -/
  subcommands : List String
deriving DecidableEq, Repr

/-- The options that are accepted everywhere. -/
def commonOptions : List OptionSpec :=
  [⟨.json, "json", none, false⟩, ⟨.verbose, "verbose", some 'v', false⟩,
    ⟨.help, "help", some 'h', false⟩]

/-- The subcommand that relocates symbols. -/
def relocateName : String := "rewrite"

/-- The subcommand that lists documents. -/
def documentsName : String := "documents"

/-- The subcommand that asks for help. -/
def helpName : String := "help"

/-- Before the subcommand. -/
def topLevel : LevelSpec where
  options := commonOptions ++ [⟨.version, "version", some 'V', false⟩]
  takesFile := false
  subcommands := [relocateName, documentsName, helpName]

/-- The option that names the map file. -/
def mapOption : OptionSpec := ⟨.map, "map", some 'm', true⟩

/-- Behind the subcommand that relocates symbols. -/
def relocateLevel : LevelSpec where
  options := commonOptions ++
    [mapOption, ⟨.output, "output", some 'o', true⟩, ⟨.trusted, "trusted", none, false⟩,
      ⟨.noEntryPoint, "no-entry-point", none, false⟩]
  takesFile := true
  subcommands := []

/-- Behind the subcommand that lists documents. -/
def documentsLevel : LevelSpec where
  options := commonOptions ++ [mapOption]
  takesFile := true
  subcommands := []

/-- An argument whose value has not been looked at yet. -/
inductive Pending
  | nothing
  | option (key : Key) (value : Option String)
  | file (path : String)
deriving DecidableEq, Repr

/-- The arguments of a level so far. -/
structure Given where
  options : List (Key × String)
  file : Option String
  pending : Pending
  /-- Whether `--` was seen. -/
  onlyPositional : Bool
  /-- Whether the positional argument was seen. -/
  hasFile : Bool
deriving DecidableEq, Repr

namespace Given

/-- No arguments. -/
def nothing : Given := ⟨[], none, .nothing, false, false⟩

/-- Whether an option was given. -/
def has (given : Given) (key : Key) : Bool := given.options.any fun (other, _) => other == key

/-- The value of an option. -/
def value? (given : Given) (key : Key) : Option String :=
  (given.options.find? fun (other, _) => other == key).map (·.2)

/-- Adds an option that may be given once. -/
def add (given : Given) (key : Key) (value : String) : Except UsageError Given :=
  if given.has key then .error .argumentConflict
  else .ok { given with options := given.options ++ [(key, value)] }

/-- Looks at the value that is pending. -/
def resolve (given : Given) : Except UsageError Given :=
  let rest := { given with pending := .nothing }
  match given.pending with
  | .nothing => .ok rest
  | .option _ none => .error .invalidValue
  | .option key (some value) => do
    let added ← rest.add key value
    if value.isEmpty then .error .invalidValue else .ok added
  | .file path => if path.isEmpty then .error .invalidValue else .ok { rest with file := some path }

/-- Takes a flag. -/
def takeFlag (given : Given) (key : Key) : Except UsageError Given := do
  let given ← given.resolve
  match key with
  | .help => .error .displayHelp
  | .version => .error .displayVersion
  | _ => given.add key ""

/-- Takes an option together with its value. -/
def takeAttached (given : Given) (key : Key) (value : String) : Except UsageError Given := do
  let given ← given.resolve
  { given with pending := .option key (some value) }.resolve

/-- Takes an option whose value comes next. -/
def takeOpen (given : Given) (key : Key) : Except UsageError Given := do
  let given ← given.resolve
  return { given with pending := .option key none }

/-- Takes an argument behind two hyphens: a name, and a value behind `=`. -/
def takeLong (level : LevelSpec) (given : Given) (body : List Char) : Except UsageError Given :=
  let name := String.ofList (body.takeWhile (· != '='))
  let attached := match body.dropWhile (· != '=') with
    | [] => none
    | _ :: value => some (String.ofList value)
  match level.options.find? fun option => option.long == name, attached with
  | none, _ => .error .unknownArgument
  | some option, some value =>
    if option.takesValue then given.takeAttached option.key value else .error .tooManyValues
  | some option, none =>
    if option.takesValue then given.takeOpen option.key else given.takeFlag option.key

/-- Takes letters behind one hyphen: flags, and at the end perhaps an option with its value. -/
def takeShort (level : LevelSpec) (given : Given) : List Char → Except UsageError Given
  | [] => .ok given
  | letter :: rest =>
    match level.options.find? fun option => option.short == some letter with
    | none => .error .unknownArgument
    | some option =>
      if option.takesValue then
        match rest with
        | [] => given.takeOpen option.key
        | '=' :: value => given.takeAttached option.key (String.ofList value)
        | value => given.takeAttached option.key (String.ofList value)
      else do
        let given ← given.takeFlag option.key
        given.takeShort level rest

/-- Takes a positional argument. -/
def takePositional (level : LevelSpec) (given : Given) (argument : String) :
    Except UsageError Given :=
  if level.takesFile && !given.hasFile then do
    let given ← given.resolve
    return { given with pending := .file argument, hasFile := true }
  else if given.onlyPositional && level.subcommands.contains argument then .error .unknownArgument
  else if level.subcommands.isEmpty then .error .unknownArgument
  else .error .invalidSubcommand

end Given

/-- The outcome of the arguments of a level. -/
inductive LevelResult
  | finished (given : Given)
  | subcommand (given : Given) (name : String) (arguments : List String)

/-- Whether an option waits for its value. -/
def Given.awaitsValue (given : Given) : Bool :=
  match given.pending with
  | .option _ none => true
  | _ => false

/-- Gives the option that waits for one its value. -/
def Given.supply (given : Given) (value : String) : Given :=
  match given.pending with
  | .option key none => { given with pending := .option key (some value) }
  | _ => given

/-- Takes the arguments of a level up to the end or to a subcommand. -/
def takeLevel (level : LevelSpec) (given : Given) : List String → Except UsageError LevelResult
  | [] => given.resolve.map .finished
  | argument :: rest => do
    if given.onlyPositional then
      let given ← given.takePositional level argument
      takeLevel level given rest
    else if !given.awaitsValue && level.subcommands.contains argument then
      return .subcommand (← given.resolve) argument rest
    else
      match argument.toList with
      | ['-', '-'] => takeLevel level { given with onlyPositional := true } rest
      | '-' :: '-' :: body =>
        let given ← given.takeLong level body
        takeLevel level given rest
      | '-' :: letter :: letters =>
        let given ← given.takeShort level (letter :: letters)
        takeLevel level given rest
      | _ =>
        if given.awaitsValue then takeLevel level (given.supply argument) rest
        else
          let given ← given.takePositional level argument
          takeLevel level given rest

/-- Options for all subcommands. -/
structure GlobalOptions where
  /-- Whether output is JSON. -/
  json : Bool
  verbose : Bool
deriving DecidableEq, Repr

/-- What the program is to do. -/
inductive Command
  /-- Remap the paths of a tree and write its symbols as XML. -/
  | relocate (file map : String) (output : Option String) (trusted entryPoint : Bool)
  /-- List the documents of a tree. -/
  | documents (file : String) (map : Option String)
deriving DecidableEq, Repr

namespace Command

/-- The files that a command reads, in that order. -/
def inputs : Command → List String
  | relocate file map _ _ _ => [file, map]
  | documents file map => file :: map.toList

/-- The file that a command writes. -/
def output? : Command → Option String
  | relocate _ _ output _ _ => output
  | documents _ _ => none

end Command

/-- A command with its options. -/
structure Invocation where
  options : GlobalOptions
  command : Command
deriving DecidableEq, Repr

/-- Follows `help`: every argument has to be a subcommand of the one before. -/
def takeHelp (level : LevelSpec) : List String → UsageError
  | [] => .displayHelp
  | name :: rest =>
    if level.subcommands.contains name then takeHelp { level with subcommands := [] } rest
    else .invalidSubcommand

/-- The global options of two levels. -/
def globalOptions (top inner : Given) : GlobalOptions :=
  ⟨top.has .json || inner.has .json, top.has .verbose || inner.has .verbose⟩

/-- Follows the arguments of a subcommand. -/
def takeSubcommand (top : Given) (name : String) (arguments : List String) :
    Except UsageError Invocation := do
  if name == helpName then .error (takeHelp topLevel arguments)
  else
    let level := if name == relocateName then relocateLevel else documentsLevel
    match ← takeLevel level .nothing arguments with
    | .subcommand _ _ _ => .error .invalidSubcommand
    | .finished given =>
      let options := globalOptions top given
      match given.file, given.value? .map with
      | none, _ => .error .missingRequired
      | some file, map =>
        if name == relocateName then
          match map with
          | none => .error .missingRequired
          | some map =>
            return ⟨options, .relocate file map (given.value? .output) (given.has .trusted)
              (!given.has .noEntryPoint)⟩
        else return ⟨options, .documents file map⟩

/-- Follows the arguments of the program. -/
def parse (arguments : List String) : Except UsageError Invocation := do
  match ← takeLevel topLevel .nothing arguments with
  | .subcommand given name rest => takeSubcommand given name rest
  | .finished given =>
    if given.options.isEmpty then .error .displayHelpOnMissing else .error .missingSubcommand

end DebugSymbols.CommandLine
