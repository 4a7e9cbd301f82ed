import RouteAtlas.Files.PathName

/-!
# Commands

What the program can be asked to do, and how its arguments are written.
-/

set_option autoImplicit false

namespace RouteAtlas

/-- Which project is analysed, and with what. -/
structure ProjectOptions where
  path : PathName := ⟨"."⟩
  /-- The configuration file, when it is not the one at the root. -/
  config : Option PathName := none
  /-- The file that holds the cache between runs. -/
  cache : Option PathName := none
  deriving DecidableEq, Repr

/-- What the program is asked to do. -/
inductive Command where
  /-- Print the catalog of a project. -/
  | analyze (project : ProjectOptions)
  /-- Print the findings about a project. -/
  | validate (project : ProjectOptions) (format : String)
  /-- Print the graph of a project. -/
  | dump (project : ProjectOptions) (format : String)
  /-- Write a configuration file to start with. -/
  | init (output : PathName)
  deriving DecidableEq, Repr

/-- Why arguments are no command. -/
inductive UsageError where
  /-- Nothing is given. -/
  | nothingGiven
  | helpAsked
  | versionAsked
  | noCommand
  | unknownCommand
  | unknownArgument
  /-- A value is missing or empty. -/
  | noValue
  /-- A value for an option that takes none. -/
  | unwantedValue
  /-- An option that is given twice. -/
  | repeatedOption
  deriving DecidableEq, Repr

end RouteAtlas
