import RouteAtlas.Text.Pieces

/-!
# Paths of routes

The path of a route is what its controller puts before it and its own path, segment by segment. A
name in braces inside a segment is a placeholder.
-/

set_option autoImplicit false

namespace RouteAtlas.Route

def segments (path : String) : List String :=
  (Text.splitOn path '/').filter (!·.isEmpty)

/-- Two paths joined, with a slash before every segment and nowhere else. -/
def joinPaths (lead path : String) : String :=
  "/" ++ Text.join "/" (segments lead ++ segments path)

/-- The placeholders in a list of characters. `name` holds the characters since the last opening
brace, last first, for as long as they can be a placeholder. -/
def placeholdersFrom : Option (List Char) → List Char → List (List Char)
  | _, [] => []
  | name, c :: rest =>
    if c = '\x7b' then placeholdersFrom (some []) rest
    else if c = '\x7d' then
      match name with
      | some (d :: ds) => (d :: ds).reverse :: placeholdersFrom none rest
      | _ => placeholdersFrom none rest
    else if c = '/' then placeholdersFrom none rest
    else placeholdersFrom (name.map (c :: ·)) rest

def placeholders (path : String) : List String :=
  (placeholdersFrom none path.toList).map String.ofList

end RouteAtlas.Route
