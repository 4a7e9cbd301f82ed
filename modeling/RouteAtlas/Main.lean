import RouteAtlas.Command.Arguments
import RouteAtlas.Command.Run

/-!
# The program

The files that a command may look at are read into a file tree, the command is run on that tree,
and what it changed there is written back.
-/

set_option autoImplicit false

namespace RouteAtlas.Main

/-- How the program is used. -/
def usage : String :=
  Text.join "\n"
    ["Usage: routescan [OPTIONS] <COMMAND>", "", "Commands:",
     "  analyze   Build, validate and print the flattened route metadata",
     "  validate  Build the graph and report diagnostics [aliases: check]",
     "  dump      Print the raw symbol graph",
     "  init      Create a routescan.yaml with the default settings",
     "  help      Print this message or the help of the given subcommand(s)", "", "Options:",
     "  -v, --verbose  Enable debug logging", "  -h, --help     Print help",
     "  -V, --version  Print version", ""]

/-- What is said about arguments that are no command. -/
def usageMessage : UsageError → String
  | .nothingGiven | .helpAsked => usage
  | .versionAsked => "routescan " ++ Report.version ++ "\n"
  | .noCommand => "error: a subcommand is required but one was not provided\n\n" ++ usage
  | .unknownCommand => "error: unrecognized subcommand\n\n" ++ usage
  | .unknownArgument => "error: unexpected argument found\n\n" ++ usage
  | .noValue => "error: a value is required for an argument but none was supplied\n\n" ++ usage
  | .unwantedValue => "error: unexpected value for an option found\n\n" ++ usage
  | .repeatedOption => "error: an argument cannot be used multiple times\n\n" ++ usage

/-- Whether arguments that are no command are an error. -/
def isMistake : UsageError → Bool
  | .helpAsked | .versionAsked => false
  | _ => true

/-- Whether reports are painted, by what the environment says and whether they go to a terminal. -/
def paints (colors force plain : Option String) (isTerminal : Bool) : Bool :=
  if force.any (· != "0") then true
  else if plain.isSome then false
  else colors.all (· != "0") && isTerminal

/-- Whether the contents of a file can matter, by its name. -/
def isRead (name : String) : Bool :=
  Text.endsIn ".go" name || Text.endsIn ".yaml" name || name == "go.mod"

/-- What a place holds on disk, if anything; the contents of a file are read where `contents` says
so. -/
def entryOnDisk (l : Location) (contents : Bool) : IO (Option FileEntry) := do
  let text := (PathName.ofLocation l).text
  try
    let about ← (System.mkFilePath [text]).metadata
    match about.type with
    | .dir => return some .directory
    | .file =>
      let bytes ← if contents then IO.FS.readBinFile text else pure .empty
      return some (.file bytes (about.modified.sec * 1000000000 + about.modified.nsec.toNat))
    | _ => return none
  catch _ => return none

def observe (t : FileTree) (l : Location) (contents : Bool) : IO FileTree := do
  match ← entryOnDisk l contents with
  | some e => return t.set l e
  | none => return t

/-- The tree with what is on disk along a path. -/
def observePath (t : FileTree) (p : PathName) : IO FileTree := do
  let start := if p.isAbsolute then [] else t.workDir
  let (t, _) ← (Text.splitOn p.text '/').foldlM (fun (t, here) piece => do
    let here := if piece = "" || piece = "." then here
      else if piece = ".." then here.dropLast
      else here ++ [piece]
    return (← observe t here true, here)) (t, start)
  return t

/-- The tree with all that is on disk below a directory. -/
partial def observeBelow (t : FileTree) (dir : Location) : IO FileTree := do
  let names ← try (System.mkFilePath [(PathName.ofLocation dir).text]).readDir catch _ => pure #[]
  names.foldlM (fun t entry => do
    let here := dir ++ [entry.fileName]
    match ← entryOnDisk here (isRead entry.fileName) with
    | some .directory => observeBelow (t.set here .directory) here
    | some e => return t.set here e
    | none => return t) t

def observeProject (t : FileTree) (o : ProjectOptions) : IO FileTree := do
  let t ← observePath t o.path
  let t ← (o.config.toList ++ o.cache.toList).foldlM observePath t
  match t.locate o.path with
  | .ok l => if t.isDirectoryAt l then observeBelow t l else return t
  | .error _ => return t

def observeFor (t : FileTree) : Command → IO FileTree
  | .analyze o => observeProject t o
  | .validate o _ => observeProject t o
  | .dump o _ => observeProject t o
  | .init output => observePath t output

/-- Writes to disk what is new in a tree. -/
def writeBack (before after : FileTree) : IO Unit := do
  for (l, e) in after.entries do
    if before.entry? l != some e then
      let text := (PathName.ofLocation l).text
      match e with
      | .directory => IO.FS.createDirAll text
      | .file contents _ => IO.FS.writeBinFile text contents

/-- Runs a command on the files on disk and gives its exit code. -/
def runOnDisk (command : Command) : IO UInt32 := do
  let here : PathName := ⟨(← IO.currentDir).toString⟩
  let workDir := here.components.filterMap fun c =>
    match c with
    | .normal name => some name
    | _ => none
  let tree ← observeFor (.ofWorkDir workDir) command
  let colors := paints (← IO.getEnv "CLICOLOR") (← IO.getEnv "CLICOLOR_FORCE")
    (← IO.getEnv "NO_COLOR") (← (← IO.getStdout).isTty)
  match command.run tree colors with
  | .error e =>
    IO.eprintln ("Error: " ++ e.message)
    return 2
  | .ok outcome =>
    writeBack tree outcome.tree
    IO.print outcome.out
    IO.eprint outcome.err
    return outcome.exitCode.toUInt32

end RouteAtlas.Main

/-- The program. -/
def main (args : List String) : IO UInt32 := do
  match RouteAtlas.Command.ofArguments args with
  | .ok command => RouteAtlas.Main.runOnDisk command
  | .error e =>
    if RouteAtlas.Main.isMistake e then
      IO.eprint (RouteAtlas.Main.usageMessage e)
      return 2
    else
      IO.print (RouteAtlas.Main.usageMessage e)
      return 0
