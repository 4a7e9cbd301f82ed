import RouteAtlas.Command.Basic

/-!
# Arguments

Arguments are read from left to right. A value that was read is looked at only when the next option
or path is met, so an argument that is not known at all is reported before a value that does not
do. Behind two dashes there are no options.
-/

set_option autoImplicit false

namespace RouteAtlas

/-- The options. -/
inductive OptionName where
  | verbose
  | help
  | version
  | config
  | cache
  | format
  | output
  deriving DecidableEq, Repr

namespace OptionName

/-- The name behind two dashes. -/
def long : OptionName → String
  | .verbose => "verbose"
  | .help => "help"
  | .version => "version"
  | .config => "config"
  | .cache => "cache"
  | .format => "format"
  | .output => "output"

/-- The letter behind one dash. -/
def short? : OptionName → Option Char
  | .verbose => some 'v'
  | .help => some 'h'
  | .version => some 'V'
  | .config => some 'c'
  | .cache => none
  | .format => some 'f'
  | .output => some 'o'

def takesValue : OptionName → Bool
  | .verbose | .help | .version => false
  | _ => true

/-- Whether the value is a path, which cannot be empty. -/
def isPath : OptionName → Bool
  | .config | .cache | .output => true
  | _ => false

end OptionName

/-- Which arguments a command takes. -/
structure CommandForm where
  options : List OptionName
  hasPath : Bool

/-- What an argument gives a value to. -/
inductive ArgumentSlot where
  | path
  | option (name : OptionName)
  deriving DecidableEq, Repr

/-- The arguments read so far. -/
structure Arguments where
  values : List (ArgumentSlot × String) := []
  /-- What was read last, with its value if that has been met, before it is looked at. -/
  pending : Option (ArgumentSlot × Option String) := none
  /-- Whether the path has been met. -/
  hasPath : Bool := false

namespace Arguments

def give (a : Arguments) (slot : ArgumentSlot) (value : String) : Except UsageError Arguments :=
  let isPath := match slot with
    | .path => true
    | .option name => name.isPath
  if (a.values.lookup slot).isSome then .error .repeatedOption
  else if isPath && value.isEmpty then .error .noValue
  else .ok { a with values := a.values ++ [(slot, value)] }

/-- Looks at what was read last. -/
def settle (a : Arguments) : Except UsageError Arguments :=
  match a.pending with
  | none => .ok a
  | some (_, none) => .error .noValue
  | some (slot, some value) => { a with pending := none }.give slot value

/-- An option without a value. -/
def switch (a : Arguments) (name : OptionName) : Except UsageError Arguments := do
  let a ← a.settle
  match name with
  | .help => throw .helpAsked
  | .version => throw .versionAsked
  | _ => a.give (.option name) ""

/-- An option whose value comes with it. -/
def attach (a : Arguments) (name : OptionName) (value : String) : Except UsageError Arguments := do
  let a ← a.settle
  a.give (.option name) value

/-- An option whose value is still to come. -/
def await (a : Arguments) (name : OptionName) : Except UsageError Arguments := do
  let a ← a.settle
  return { a with pending := some (.option name, none) }

/-- Reads an option by its name, which an equals sign may divide from its value. -/
def readLong (form : CommandForm) (a : Arguments) (text : List Char) :
    Except UsageError Arguments :=
  let name := String.ofList (text.takeWhile (· != '='))
  let value := match text.dropWhile (· != '=') with
    | _ :: rest => some (String.ofList rest)
    | [] => none
  match form.options.find? (·.long == name) with
  | none => .error .unknownArgument
  | some o =>
    match o.takesValue, value with
    | true, some v => a.attach o v
    | true, none => a.await o
    | false, some _ => .error .unwantedValue
    | false, none => a.switch o

/-- Reads options by their letters; what follows the letter of an option with a value is that
value. -/
def readShort (form : CommandForm) : Arguments → List Char → Except UsageError Arguments
  | a, [] => .ok a
  | a, c :: rest =>
    match form.options.find? (·.short? == some c) with
    | none => .error .unknownArgument
    | some o =>
      if o.takesValue then
        match rest with
        | [] => a.await o
        | '=' :: value => a.attach o (String.ofList value)
        | value => a.attach o (String.ofList value)
      else do
        let a ← a.switch o
        readShort form a rest

def readPlain (form : CommandForm) (a : Arguments) (text : String) :
    Except UsageError Arguments := do
  if form.hasPath && !a.hasPath then
    let a ← a.settle
    return { a with pending := some (.path, some text), hasPath := true }
  else throw .unknownArgument

/-- Reads arguments to their end; `onlyPlain` tells that there are no more options. -/
def readFrom (form : CommandForm) : Bool → Arguments → List String → Except UsageError Arguments
  | _, a, [] => a.settle
  | true, a, text :: rest => do
    let a ← a.readPlain form text
    readFrom form true a rest
  | false, a, text :: rest =>
    match text.toList with
    | ['-', '-'] => readFrom form true a rest
    | '-' :: '-' :: option => do
      let a ← a.readLong form option
      readFrom form false a rest
    | '-' :: c :: letters => do
      let a ← readShort form a (c :: letters)
      readFrom form false a rest
    | _ =>
      match a.pending with
      | some (slot, none) => readFrom form false { a with pending := some (slot, some text) } rest
      | _ => do
        let a ← a.readPlain form text
        readFrom form false a rest

def value? (a : Arguments) (name : OptionName) : Option String :=
  a.values.lookup (.option name)

/-- What the arguments say about the project. -/
def project (a : Arguments) : ProjectOptions :=
  { path := ⟨(a.values.lookup .path).getD "."⟩
    config := (a.value? .config).map PathName.mk
    cache := (a.value? .cache).map PathName.mk }

end Arguments

namespace Command

/-- The names of the commands. -/
def names : List String := ["analyze", "validate", "check", "dump", "init", "help"]

/-- Reads the arguments of a command of a name. -/
def ofNamed (name : String) (args : List String) : Except UsageError Command := do
  let project : List OptionName := [.verbose, .help, .config, .cache]
  let read := fun (form : CommandForm) => Arguments.readFrom form false {} args
  if name = "analyze" then
    return .analyze (← read ⟨project, true⟩).project
  else if name = "validate" || name = "check" then
    let a ← read ⟨.format :: project, true⟩
    return .validate a.project ((a.value? .format).getD "pretty")
  else if name = "dump" then
    let a ← read ⟨.format :: project, true⟩
    return .dump a.project ((a.value? .format).getD "text")
  else if name = "init" then
    let a ← read ⟨[.verbose, .help, .output], false⟩
    return .init ⟨(a.value? .output).getD "routescan.yaml"⟩
  else
    -- Help can be asked about one command, and none of them has commands of its own.
    match args with
    | [] => throw .helpAsked
    | [topic] => throw (if names.contains topic then .helpAsked else .unknownCommand)
    | _ => throw .unknownCommand

/-- Reads arguments up to the name of a command and from there on. -/
def ofArgumentsFrom : Bool → Arguments → List String → Except UsageError Command
  | _, a, [] => .error (if a.values.isEmpty then .nothingGiven else .noCommand)
  | true, _, text :: _ =>
    .error (if names.contains text then .unknownArgument else .unknownCommand)
  | false, a, text :: rest =>
    let form : CommandForm := ⟨[.verbose, .help, .version], false⟩
    if names.contains text then ofNamed text rest
    else
      match text.toList with
      | ['-', '-'] => ofArgumentsFrom true a rest
      | '-' :: '-' :: option => do
        let a ← a.readLong form option
        ofArgumentsFrom false a rest
      | '-' :: c :: letters => do
        let a ← Arguments.readShort form a (c :: letters)
        ofArgumentsFrom false a rest
      | _ => .error .unknownCommand

def ofArguments (args : List String) : Except UsageError Command :=
  ofArgumentsFrom false {} args

end Command

end RouteAtlas
