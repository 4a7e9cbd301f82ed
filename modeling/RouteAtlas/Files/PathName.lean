import RouteAtlas.Text.Pieces

/-!
# Names of files

A path is a text, but what it names depends on its components only: empty components do not count,
nor does a single dot, except at the start of a relative path. Paths are compared and ordered by
their components, so `a//b` and `a/b` are the same path and `a/b` comes before `a-b`.
-/

set_option autoImplicit false

namespace RouteAtlas

/-- One step of a path. -/
inductive PathComponent where
  /-- The root of the file system. -/
  | root
  /-- The directory where the path starts, written as a leading dot. -/
  | current
  | parent
  | normal (name : String)
  deriving DecidableEq, Repr

namespace PathComponent

def text : PathComponent → String
  | .root => "/"
  | .current => "."
  | .parent => ".."
  | .normal name => name

def rank : PathComponent → Nat
  | .root => 0
  | .current => 1
  | .parent => 2
  | .normal _ => 3

/-- Whether a component comes before another. -/
def lt (a b : PathComponent) : Bool :=
  match a, b with
  | .normal x, .normal y => x < y
  | _, _ => a.rank < b.rank

end PathComponent

/-- The name of a file or a directory. -/
structure PathName where
  text : String
  deriving DecidableEq, Repr, Inhabited

namespace PathName

/-- The component of a piece between slashes, if it counts. -/
def component? (piece : String) : Option PathComponent :=
  if piece = "" || piece = "." then none
  else if piece = ".." then some .parent
  else some (.normal piece)

def components (p : PathName) : List PathComponent :=
  let pieces := Text.splitOn p.text '/'
  let rest := pieces.filterMap component?
  match pieces with
  | "" :: _ :: _ => .root :: rest
  | "." :: _ => .current :: rest
  | _ => rest

def ofComponents : List PathComponent → PathName
  | .root :: rest => ⟨"/" ++ Text.join "/" (rest.map (·.text))⟩
  | cs => ⟨Text.join "/" (cs.map (·.text))⟩

/-- Whether two paths have the same components. -/
def same (p q : PathName) : Bool := p.components == q.components

/-- Whether a list of components comes before another or is the same. -/
def componentsLe : List PathComponent → List PathComponent → Bool
  | [], _ => true
  | _ :: _, [] => false
  | a :: as, b :: bs => if a = b then componentsLe as bs else a.lt b

/-- Whether a path comes before another or is the same. -/
def le (p q : PathName) : Bool := componentsLe p.components q.components

/-- Whether a path starts at the root of the file system. -/
def isAbsolute (p : PathName) : Bool := Text.beginsWith "/" p.text

/-- A path behind another: the second one alone when it is absolute. -/
def join (p : PathName) (q : String) : PathName :=
  if Text.beginsWith "/" q then ⟨q⟩
  else if p.text.isEmpty || Text.endsIn "/" p.text then ⟨p.text ++ q⟩
  else ⟨p.text ++ "/" ++ q⟩

/-- The last component, when it is a name. -/
def fileName? (p : PathName) : Option String :=
  match p.components.getLast? with
  | some (.normal name) => some name
  | _ => none

/-- The path without its last component; the root and the empty path have no parent. -/
def parent? (p : PathName) : Option PathName :=
  match p.components.getLast? with
  | none => none
  | some .root => none
  | some _ => some (ofComponents p.components.dropLast)

/-- What is left of a list of components behind others. -/
def componentsAfter? : List PathComponent → List PathComponent → Option (List PathComponent)
  | [], cs => some cs
  | _ :: _, [] => none
  | b :: base, c :: cs => if b = c then componentsAfter? base cs else none

/-- The components of a path behind those of `base`, when it begins with them. -/
def componentsBelow? (base p : PathName) : Option (List PathComponent) :=
  componentsAfter? base.components p.components

end PathName

end RouteAtlas
