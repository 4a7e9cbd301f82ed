import RouteAtlas.Text.Pieces

/-!
# Glob patterns

A pattern describes a set of paths. A star stands for any bytes, slashes included, a question mark
for one byte, a class in brackets for one of its bytes, and braces for one of the alternatives
between them. Two stars that make up a whole path component stand for any number of components.
-/

set_option autoImplicit false

namespace RouteAtlas

/-- A part of a pattern. -/
inductive GlobPart where
  | literal (c : Char)
  /-- One byte. -/
  | anyByte
  /-- Any number of bytes. -/
  | anyBytes
  /-- Any number of components at the start, each with its slash. -/
  | leading
  /-- A slash and anything behind it. -/
  | trailing
  /-- A slash, or components between two slashes. -/
  | between
  /-- One byte of the characters in some ranges, or one byte that is not among them. -/
  | oneOf (negated : Bool) (ranges : List (Char × Char))
  /-- One of several alternatives. -/
  | either (branches : List (List GlobPart))
  deriving Repr, Inhabited

/-- Why a text is no pattern. -/
inductive GlobError where
  | unclosedClass
  | invalidRange (first last : Char)
  | unopenedGroup
  | unclosedGroup
  | danglingEscape
  deriving DecidableEq, Repr

/-- The wording of an error in a pattern. -/
def GlobError.message (pattern : String) (e : GlobError) : String :=
  let cause := match e with
    | .unclosedClass => "unclosed character class; missing ']'"
    | .invalidRange first last =>
      "invalid range; '" ++ first.toString ++ "' > '" ++ last.toString ++ "'"
    | .unopenedGroup =>
      "unopened alternate group; missing '\x7b' (maybe escape '\x7d' with '[\x7d]'?)"
    | .unclosedGroup =>
      "unclosed alternate group; missing '\x7d' (maybe escape '\x7b' with '[\x7b]'?)"
    | .danglingEscape => "dangling '\\'"
  "error parsing glob '" ++ pattern ++ "': " ++ cause

namespace Glob

/-- A pattern that is being read: the parts of the current branch, last first, and for each open
group, innermost first, its finished branches, last first, and the parts before it. -/
structure Draft where
  branch : List GlobPart := []
  groups : List (List (List GlobPart) × List GlobPart) := []

namespace Draft

def push (d : Draft) (part : GlobPart) : Draft := { d with branch := part :: d.branch }

/-- Whether a group is open. -/
def inGroup (d : Draft) : Bool := !d.groups.isEmpty

/-- The draft behind an opening brace. -/
def openGroup (d : Draft) : Draft := ⟨[], ([], d.branch) :: d.groups⟩

/-- The draft behind a closing brace. -/
def closeGroup (d : Draft) : Except GlobError Draft :=
  match d.groups with
  | [] => .error .unopenedGroup
  | (done, outer) :: groups =>
    .ok ⟨.either (d.branch.reverse :: done).reverse :: outer, groups⟩

/-- The draft behind a comma, which divides the branches of a group. -/
def comma (d : Draft) : Draft :=
  match d.groups with
  | [] => d.push (.literal ',')
  | (done, outer) :: groups => ⟨[], (d.branch.reverse :: done, outer) :: groups⟩

/-- The draft behind two stars that make up a component behind other parts. They take the place of
the part before them, the slash. -/
def component (d : Draft) (isLast : Bool) : Draft :=
  match d.branch with
  | .leading :: _ => d
  | .trailing :: _ => d
  | _ :: before => { d with branch := (if isLast then .trailing else .between) :: before }
  | [] => d

/-- The draft behind two stars that do not make up a component. -/
def twoStars (d : Draft) : Draft := (d.push .anyBytes).push .anyBytes

end Draft

/-- The draft behind two stars, and the characters left, given the character before them. -/
def starStar (before : Option Char) (d : Draft) (rest : List Char) : Draft × List Char :=
  if d.branch.isEmpty then
    match rest with
    | [] => (d.push .leading, [])
    | c :: more => if c = '/' then (d.push .leading, more) else (d.twoStars, rest)
  else if before != some '/' &&
      (!d.inGroup || (before != some ',' && before != some '\x7b')) then (d.twoStars, rest)
  else
    match rest with
    | [] => (d.component true, [])
    | c :: more =>
      if (c = ',' || c = '\x7d') && d.inGroup then (d.component true, rest)
      else if c = '/' then (d.component false, more)
      else (d.twoStars, rest)

/-- Reads the ranges of a class up to its closing bracket. `ranges` holds those read so far, last
first; `isFirst` tells that nothing was read yet, and `inRange` that a dash came last. -/
def classFrom (isFirst inRange : Bool) (ranges : List (Char × Char)) :
    List Char → Except GlobError (List (Char × Char) × List Char)
  | [] => .error .unclosedClass
  | c :: rest =>
    if c = ']' && !isFirst then
      .ok ((if inRange then ('-', '-') :: ranges else ranges).reverse, rest)
    else if c = '-' && !isFirst && !inRange then classFrom false true ranges rest
    else if inRange then
      match ranges with
      | (first, _) :: earlier =>
        if c < first then .error (.invalidRange first c)
        else classFrom false false ((first, c) :: earlier) rest
      | [] => classFrom false false [(c, c)] rest
    else classFrom false false ((c, c) :: ranges) rest

/-- Reads a class behind its opening bracket. -/
def readClass (cs : List Char) : Except GlobError (GlobPart × List Char) :=
  let (negated, cs) := match cs with
    | c :: rest => if c = '!' || c = '^' then (true, rest) else (false, cs)
    | [] => (false, cs)
  (classFrom true false [] cs).map fun (ranges, rest) => (.oneOf negated ranges, rest)

/-- Reads a pattern, given the character before it; `fuel` is at least the number of
characters. -/
def readFrom : Nat → Option Char → Draft → List Char → Except GlobError Draft
  | 0, _, d, _ => .ok d
  | _ + 1, _, d, [] => .ok d
  | fuel + 1, before, d, c :: rest =>
    if c = '?' then readFrom fuel (some c) (d.push .anyByte) rest
    else if c = '\x7b' then readFrom fuel (some c) d.openGroup rest
    else if c = '\x7d' then do readFrom fuel (some c) (← d.closeGroup) rest
    else if c = ',' then readFrom fuel (some c) d.comma rest
    else if c = '*' then
      match rest with
      | '*' :: behind =>
        let (d, left) := starStar before d behind
        let last := if left.length < behind.length then '/' else '*'
        readFrom fuel (some last) d left
      | _ => readFrom fuel (some c) (d.push .anyBytes) rest
    else if c = '[' then do
      let (part, left) ← readClass rest
      readFrom fuel (some ']') (d.push part) left
    else if c = '\\' then
      match rest with
      | [] => .error .danglingEscape
      | escaped :: left => readFrom fuel (some escaped) (d.push (.literal escaped)) left
    else readFrom fuel (some c) (d.push (.literal c)) rest

end Glob

/-- A pattern. -/
structure Glob where
  parts : List GlobPart
  deriving Repr, Inhabited

namespace Glob

def read (pattern : String) : Except GlobError Glob :=
  match readFrom (pattern.length + 1) none {} pattern.toList with
  | .error e => .error e
  | .ok d => if d.inGroup then .error .unclosedGroup else .ok ⟨d.branch.reverse⟩

/-- The ranges of bytes that a range of characters gives to a class: the bytes between the last
byte of the first character and the first byte of the last one, and the other bytes of the two one
by one. -/
def byteRanges (range : Char × Char) : List (UInt8 × UInt8) :=
  let first := String.utf8EncodeChar range.1
  let last := String.utf8EncodeChar range.2
  let single := fun (b : UInt8) => (b, b)
  if range.1 = range.2 then first.map single
  else
    match first.getLast?, last.head? with
    | some lo, some hi => first.dropLast.map single ++ [(lo, hi)] ++ last.tail.map single
    | _, _ => []

def inRanges (ranges : List (Char × Char)) (b : UInt8) : Bool :=
  (ranges.flatMap byteRanges).any fun (lo, hi) => lo ≤ b && b ≤ hi

/-- What follows the bytes `lead` in bytes that begin with them. -/
def afterBytes? : List UInt8 → List UInt8 → Option (List UInt8)
  | [], bs => some bs
  | _ :: _, [] => none
  | l :: lead, b :: bs => if l = b then afterBytes? lead bs else none

/-- Whether what follows some first bytes, any number of them, satisfies `k`. -/
def skipping (k : List UInt8 → Bool) : List UInt8 → Bool
  | [] => k []
  | b :: bs => k (b :: bs) || skipping k bs

/-- Whether what follows a slash somewhere satisfies `k`. -/
def behindSlash (k : List UInt8 → Bool) : List UInt8 → Bool
  | [] => false
  | b :: bs => (b = 47 && k bs) || behindSlash k bs

mutual

/-- Whether a part describes nothing at all: a group whose branches are all empty. -/
def isVoid : GlobPart → Bool
  | .either branches => allVoid branches
  | _ => false

/-- Whether the parts of a branch describe nothing at all. -/
def branchVoid : List GlobPart → Bool
  | [] => true
  | part :: rest => isVoid part && branchVoid rest

/-- Whether every branch is empty. -/
def allVoid : List (List GlobPart) → Bool
  | [] => true
  | branch :: rest => branchVoid branch && allVoid rest

end

mutual

/-- Whether some first bytes are described by a part and what follows them satisfies `k`. Empty
branches of a group do not count unless there are no others. -/
def partMatches (k : List UInt8 → Bool) : GlobPart → List UInt8 → Bool
  | .literal c, bs =>
    match afterBytes? (String.utf8EncodeChar c) bs with
    | some rest => k rest
    | none => false
  | .anyByte, bs =>
    match bs with
    | _ :: rest => k rest
    | [] => false
  | .anyBytes, bs => skipping k bs
  | .leading, bs => k bs || behindSlash k bs
  | .trailing, bs =>
    match bs with
    | b :: rest => b = 47 && skipping k rest
    | [] => false
  | .between, bs =>
    match bs with
    | b :: rest => b = 47 && (k rest || behindSlash k rest)
    | [] => false
  | .oneOf negated ranges, bs =>
    match bs with
    | b :: rest => inRanges ranges b != negated && k rest
    | [] => false
  | .either branches, bs => if allVoid branches then k bs else someMatches k branches bs

/-- Whether some first bytes are described by parts one behind the other and what follows them
satisfies `k`. -/
def partsMatch (k : List UInt8 → Bool) : List GlobPart → List UInt8 → Bool
  | [], bs => k bs
  | part :: rest, bs => partMatches (partsMatch k rest) part bs

/-- Whether some first bytes are described by a branch that is not empty and what follows them
satisfies `k`. -/
def someMatches (k : List UInt8 → Bool) : List (List GlobPart) → List UInt8 → Bool
  | [], _ => false
  | branch :: rest, bs => (!branchVoid branch && partsMatch k branch bs) || someMatches k rest bs

end

/-- Whether a pattern describes a path. Two stars alone describe every path. -/
def accepts (g : Glob) (path : String) : Bool :=
  match g.parts with
  | [.leading] => true
  | parts => partsMatch List.isEmpty parts path.toUTF8.toList

end Glob

end RouteAtlas
