import RouteAtlas.Files.PathName

/-!
# File trees

Files and directories by their place below the root of the file system. A path is followed piece
by piece: everything but its last piece has to lead to a directory, and a path that ends with a
slash has to lead to one itself.
-/

set_option autoImplicit false

namespace RouteAtlas

/-- Why a file cannot be used in the way asked for. -/
inductive FileError where
  | notFound
  | alreadyExists
  | notDirectory
  | isDirectory
  /-- The contents are not UTF-8. -/
  | notText
  deriving DecidableEq, Repr

def FileError.message : FileError → String
  | .notFound => "No such file or directory (os error 2)"
  | .alreadyExists => "File exists (os error 17)"
  | .notDirectory => "Not a directory (os error 20)"
  | .isDirectory => "Is a directory (os error 21)"
  | .notText => "stream did not contain valid UTF-8"

/-- What a place holds. -/
inductive FileEntry where
  /-- A file, with the time of its last change in nanoseconds from the epoch. -/
  | file (contents : ByteArray) (modified : Int)
  | directory
  deriving BEq

/-- Whether a place holds a file. -/
def FileEntry.isFile : FileEntry → Bool
  | .file _ _ => true
  | .directory => false

/-- A place: the names on the way from the root of the file system. -/
abbrev Location := List String

def PathName.ofLocation (l : Location) : PathName := ⟨"/" ++ Text.join "/" l⟩

/-- The files and directories of a file system, and the directory that relative paths start
from. -/
structure FileTree where
  entries : List (Location × FileEntry)
  workDir : Location

namespace FileTree

/-- The tree that holds nothing but a working directory and the directories above it. -/
def ofWorkDir (workDir : Location) : FileTree where
  entries := (List.range workDir.length).map fun n => (workDir.take (n + 1), .directory)
  workDir := workDir

/-- What a place holds. -/
def entry? (t : FileTree) (l : Location) : Option FileEntry :=
  if l.isEmpty then some .directory else (t.entries.find? (·.1 == l)).map (·.2)

def isDirectoryAt (t : FileTree) (l : Location) : Bool := t.entry? l == some .directory

/-- The place that one piece of a path leads to from a directory. -/
def enter (t : FileTree) (here : Location) (piece : String) : Except FileError Location :=
  match t.entry? here with
  | none => .error .notFound
  | some (.file _ _) => .error .notDirectory
  | some .directory =>
    .ok (if piece = "" || piece = "." then here
      else if piece = ".." then here.dropLast
      else here ++ [piece])

/-- The place of a path. Nothing has to be there yet. -/
def locate (t : FileTree) (p : PathName) : Except FileError Location :=
  if p.text.isEmpty then .error .notFound
  else
    (Text.splitOn p.text '/').foldlM t.enter (if p.isAbsolute then [] else t.workDir)

def lookup (t : FileTree) (p : PathName) : Except FileError FileEntry := do
  match t.entry? (← t.locate p) with
  | some e => .ok e
  | none => .error .notFound

/-- Whether something is at a path. -/
def isThere (t : FileTree) (p : PathName) : Bool :=
  match t.lookup p with
  | .ok _ => true
  | .error _ => false

def isFile (t : FileTree) (p : PathName) : Bool :=
  match t.lookup p with
  | .ok e => e.isFile
  | .error _ => false

def isDirectory (t : FileTree) (p : PathName) : Bool :=
  match t.lookup p with
  | .ok e => !e.isFile
  | .error _ => false

/-- The contents of a file and the time of its last change. -/
def fileAt (t : FileTree) (p : PathName) : Except FileError (ByteArray × Int) := do
  match ← t.lookup p with
  | .file contents modified => .ok (contents, modified)
  | .directory => .error .isDirectory

def textAt (t : FileTree) (p : PathName) : Except FileError String := do
  match String.fromUTF8? (← t.fileAt p).1 with
  | some s => .ok s
  | none => .error .notText

/-- The name under which a place stands in a directory. -/
def nameIn? (dir : Location) (l : Location) : Option String :=
  match l.getLast? with
  | some name => if l.dropLast = dir then some name else none
  | none => none

/-- The names in a directory, with what they stand for. -/
def namesAt (t : FileTree) (dir : Location) : List (String × FileEntry) :=
  t.entries.filterMap fun (l, e) => (nameIn? dir l).map fun name => (name, e)

/-- The names in the directory at a path, with what they stand for. -/
def directoryAt (t : FileTree) (p : PathName) : Except FileError (List (String × FileEntry)) := do
  let l ← t.locate p
  match t.entry? l with
  | some .directory => .ok (t.namesAt l)
  | some (.file _ _) => .error .notDirectory
  | none => .error .notFound

def absolutePath (t : FileTree) (p : PathName) : Except FileError PathName := do
  let l ← t.locate p
  match t.entry? l with
  | some _ => .ok (.ofLocation l)
  | none => .error .notFound

/-- The tree with something else at a place. -/
def set (t : FileTree) (l : Location) (e : FileEntry) : FileTree :=
  { t with entries := t.entries.filter (·.1 != l) ++ [(l, e)] }

/-- The directory part and the last name of a path, trailing slashes aside. -/
def splitLast (p : PathName) : PathName × String :=
  let cs := p.text.toList.reverse.dropWhile (· == '/')
  let name := String.ofList (cs.takeWhile (· != '/')).reverse
  let dir := (cs.dropWhile (· != '/')).reverse
  (⟨if dir.isEmpty then (if p.isAbsolute then "/" else ".") else String.ofList dir⟩, name)

/-- The place where something new is to be put: a name in a directory that is there. `none` when
the path ends in no name. -/
def placeFor (t : FileTree) (p : PathName) : Except FileError (Option Location) :=
  if p.text.isEmpty then .error .notFound
  else do
    let (dir, name) := splitLast p
    let parent ← t.enter (← t.locate dir) "."
    .ok (if name = "" || name = "." || name = ".." then none else some (parent ++ [name]))

def makeDirectory (t : FileTree) (p : PathName) : Except FileError FileTree := do
  match ← t.placeFor p with
  | none => .error .alreadyExists
  | some l =>
    match t.entry? l with
    | some _ => .error .alreadyExists
    | none => .ok (t.set l .directory)

/-- The tree with a directory at a path, and with those above it; `fuel` is more than the number of
names in the path. -/
def makeDirectoriesWithin : Nat → FileTree → PathName → Except FileError FileTree
  | 0, _, _ => .error .notFound
  | fuel + 1, t, p =>
    if p.text.isEmpty then .ok t
    else
      match t.makeDirectory p with
      | .ok t => .ok t
      | .error .notFound =>
        match p.parent? with
        | none => .error .notFound
        | some parent => do
          let t ← makeDirectoriesWithin fuel t parent
          match t.makeDirectory p with
          | .ok t => .ok t
          | .error e => if t.isDirectory p then .ok t else .error e
      | .error e => if t.isDirectory p then .ok t else .error e

/-- The tree with a directory at a path, and with those above it. -/
def makeDirectories (t : FileTree) (p : PathName) : Except FileError FileTree :=
  makeDirectoriesWithin (p.components.length + 1) t p

/-- The tree with a file at a path, new or in place of one that is there. -/
def putFile (t : FileTree) (p : PathName) (contents : ByteArray) (modified : Int) :
    Except FileError FileTree := do
  match ← t.placeFor p with
  | none => .error .isDirectory
  | some l =>
    match t.entry? l with
    | some .directory => .error .isDirectory
    | some (.file _ _) =>
      if Text.endsIn "/" p.text then .error .notDirectory
      else .ok (t.set l (.file contents modified))
    | none =>
      if Text.endsIn "/" p.text then .error .isDirectory
      else .ok (t.set l (.file contents modified))

/-- The tree without what is at a path, be it a file or a directory with all it holds. -/
def remove (t : FileTree) (p : PathName) : Except FileError FileTree := do
  let l ← t.locate p
  match t.entry? l with
  | none => .error .notFound
  | some _ => .ok { t with entries := t.entries.filter fun e => !l.isPrefixOf e.1 }

/-- The tree with another time of change for the file at a path. -/
def setModified (t : FileTree) (p : PathName) (modified : Int) : Except FileError FileTree := do
  let l ← t.locate p
  match t.entry? l with
  | none => .error .notFound
  | some .directory => .ok t
  | some (.file contents _) => .ok (t.set l (.file contents modified))

end FileTree

end RouteAtlas
