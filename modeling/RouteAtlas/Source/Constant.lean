import RouteAtlas.Source.Declaration
import RouteAtlas.Source.Literal

/-!
# Blocks of constants

In a block of constants a specification without values repeats the type and the counter expression
of the one before it. A counter expression is worth its offset plus the place of the specification
in the block. Where arithmetic is checked, a block in which one of these numbers does not fit a word
ends the reading.
-/

set_option autoImplicit false

namespace RouteAtlas.Source

/-- A specification of constants as written. -/
structure ConstSpec where
  /-- The names, with the commas between them. -/
  names : List String
  type : Option TypeExpr
  /-- The texts of the values. -/
  values : List String
  deriving DecidableEq, Repr

/-- What a specification without values repeats. -/
structure Inherited where
  type : Option TypeExpr := none
  offset : Option Int64 := none
  deriving DecidableEq, Repr

/-- What is repeated behind a specification. Its first value is read also if it has no name. -/
def Inherited.after (i : Inherited) (spec : ConstSpec) : Checked Inherited :=
  match spec.values with
  | [] => pure i
  | v :: _ => do return ⟨spec.type, ← iotaOffset? v⟩

/-- The value of an expression in the given place of its block. -/
def evaluate (index : Nat) (text : String) : Checked String := do
  match ← iotaOffset? text with
  | some offset => iotaValue index offset
  | none => return literalValue text

/-- The value of the name in position `k` of the specification in place `index`. -/
def constValue (index : Nat) (i : Inherited) (spec : ConstSpec) (k : Nat) :
    Checked (Option String) :=
  match spec.values[k]? with
  | some v => some <$> evaluate index v
  | none => i.offset.mapM (iotaValue index)

/-- The constants of a specification, one for each of its names. -/
def specConstants (index : Nat) (i : Inherited) (spec : ConstSpec) (span : Span)
    (doc : DocComment) : Checked (List ConstDecl) :=
  spec.names.zipIdx.mapM fun (name, k) => do
    return { name := name, type := i.type, value := ← constValue index i spec k, doc := doc,
             span := span }

def constantsFrom (index : Nat) (i : Inherited) :
    List (ConstSpec × Span × DocComment) → Checked (List ConstDecl)
  | [] => pure []
  | (spec, span, doc) :: rest => do
    let i ← i.after spec
    let own ← specConstants index i spec span doc
    return own ++ (← constantsFrom (index + 1) i rest)

/-- The constants of a block. -/
def constants (specs : List (ConstSpec × Span × DocComment)) : Checked (List ConstDecl) :=
  constantsFrom 0 {} specs

end RouteAtlas.Source
