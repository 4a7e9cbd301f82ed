import RouteAtlas.Cache.Version
import RouteAtlas.Json.Reader
import RouteAtlas.Json.Writer
import RouteAtlas.Metadata.Decode

/-!
# The metadata cache

The metadata of a model is kept together with the version of the file that declares it, and is
used again for as long as that file is unchanged. The entries stand in the order of their
identities, so a cache is determined by what it maps each identity to.
-/

set_option autoImplicit false

namespace RouteAtlas

/-- The metadata of a model and the version of the file it was computed from. -/
structure CacheEntry where
  id : DeclId
  metadata : ModelMetadata
  version : FileVersion
  deriving DecidableEq

namespace CacheEntry

def toJson (e : CacheEntry) : Json :=
  .object [("id", e.id.toJson), ("metadata", e.metadata.toJson), ("version", e.version.toJson)]

/-- Decodes an entry. -/
def ofJson? (j : Json) : Option CacheEntry := do
  let r ← Json.record? ["id", "metadata", "version"] j
  some
    { id := ← r.field? "id" DeclId.ofJson?
      metadata := ← r.field? "metadata" ModelMetadata.ofJson?
      version := ← r.field? "version" FileVersion.ofJson? }

end CacheEntry

/-- How often a cache was of use. -/
structure CacheStats where
  hits : Nat := 0
  misses : Nat := 0
  invalidations : Nat := 0
  deriving DecidableEq, Repr

/-- Metadata by identity, with a count of its uses. -/
structure MetadataCache where
  /-- The entries in the order of their identities. -/
  entries : List CacheEntry := []
  stats : CacheStats := {}
  deriving DecidableEq

namespace MetadataCache

/-- The entries with one more, which replaces the entry of the same identity. -/
def insertEntry (e : CacheEntry) : List CacheEntry → List CacheEntry
  | [] => [e]
  | x :: rest =>
    if x.id = e.id then e :: rest
    else if x.id.le e.id then x :: insertEntry e rest
    else e :: x :: rest

/-- The entry of an identity. -/
def get? (c : MetadataCache) (id : DeclId) : Option CacheEntry :=
  c.entries.find? (·.id == id)

/-- Stores metadata in place of what was stored for the identity. -/
def put (c : MetadataCache) (id : DeclId) (metadata : ModelMetadata) (version : FileVersion) :
    MetadataCache :=
  { c with entries := insertEntry ⟨id, metadata, version⟩ c.entries }

/-- Removes the entry of an identity; only an entry that was there counts. -/
def invalidate (c : MetadataCache) (id : DeclId) : MetadataCache :=
  match c.get? id with
  | none => c
  | some _ =>
    { entries := c.entries.filter (·.id != id)
      stats := { c.stats with invalidations := c.stats.invalidations + 1 } }

/-- The cache after a use that found nothing. -/
def missed (c : MetadataCache) : MetadataCache :=
  { c with stats := { c.stats with misses := c.stats.misses + 1 } }

/-- The cache after a use that found something. -/
def found (c : MetadataCache) : MetadataCache :=
  { c with stats := { c.stats with hits := c.stats.hits + 1 } }

/-- The metadata of an identity if its file is unchanged in the version that was just seen, and
the cache after this use. An entry whose file has changed is removed; nothing is known when no
version was seen. -/
def getFresh (c : MetadataCache) (id : DeclId) (current : Option FileVersion) :
    Option ModelMetadata × MetadataCache :=
  match current with
  | none => (none, c.missed)
  | some version =>
    match c.get? id with
    | none => (none, c.missed)
    | some entry =>
      if entry.version.hasChanged version then (none, (c.invalidate id).missed)
      else (some entry.metadata, c.found)

/-- The number of entries. -/
def size (c : MetadataCache) : Nat := c.entries.length

def render (c : MetadataCache) : String :=
  (Json.array (c.entries.map CacheEntry.toJson)).pretty

/-- The cache of some entries, of which later ones replace earlier ones. -/
def ofEntries (entries : List CacheEntry) : MetadataCache :=
  { entries := entries.foldl (fun acc e => insertEntry e acc) [] }

/-- The cache that a text stores; a text of any other form stores an empty one. -/
def ofText (text : String) : MetadataCache :=
  match Json.read text with
  | .error _ => {}
  | .ok j => ((Json.list? CacheEntry.ofJson? j).map ofEntries).getD {}

/-- The cache that the contents of a file store. -/
def ofBytes (bytes : ByteArray) : MetadataCache :=
  match String.fromUTF8? bytes with
  | some text => ofText text
  | none => {}

end MetadataCache

end RouteAtlas
