import RouteAtlas.Files.Digest
import RouteAtlas.Files.PathName
import RouteAtlas.Json.Decode

/-!
# Versions of files

A version is what was seen of a file when it was read: its name, the time of its last change and
the fingerprint of its contents. Whether a file has changed is decided by its contents alone; the
time never matters.
-/

set_option autoImplicit false

namespace RouteAtlas

/-- The state in which a file was seen. -/
structure FileVersion where
  path : PathName
  /-- Nanoseconds from the epoch to the last change. -/
  modified : Nat
  /-- The fingerprint of the contents. -/
  hash : String
  deriving DecidableEq, Repr

namespace FileVersion

def ofContents (path : PathName) (modified : Nat) (contents : ByteArray) : FileVersion :=
  ⟨path, modified, Digest.hexDigest contents.toList⟩

/-- Whether two versions agree in name, time and contents. -/
def same (a b : FileVersion) : Bool :=
  a.path.same b.path && a.modified == b.modified && a.hash == b.hash

/-- Whether the file is a different one, or has other contents, in the current version. -/
def hasChanged (old current : FileVersion) : Bool :=
  !old.path.same current.path || old.hash != current.hash

def toJson (v : FileVersion) : Json :=
  .object
    [("path", .string v.path.text), ("modified", .nat v.modified), ("hash", .string v.hash)]

/-- Decodes a version. -/
def ofJson? (j : Json) : Option FileVersion := do
  let r ← Json.record? ["path", "modified", "hash"] j
  some
    { path := ⟨← r.field? "path" Json.text?⟩
      modified := ← r.field? "modified" Json.word?
      hash := ← r.field? "hash" Json.text? }

end FileVersion

end RouteAtlas
