import RegistryCache.Error

/-! # What a registry is asked and what it answers

Four calls are all that the cache needs of a registry.  `Call.Answer` gives each the type of its
answer, so a reply always fits the question.  Listings come in pages, and `nextCursor` says which one
follows.
-/

namespace RegistryCache

/-! ## Pages -/

/-- One page of the catalog. -/
structure CatalogPage where
  repositories : List String
  /-- The cursor of the page that follows, unless this is the last one. -/
  next : Option String
  deriving DecidableEq, Repr

/-- The cursor of the page after the one asked for with `current`.  A registry that hands back the
    very cursor that it was given fails the walk. -/
def nextCursor (current next : Option String) (listing : String) :
    Except RegistryError (Option String) :=
  match next with
  | some cursor =>
    if current = some cursor then
      .error ⟨.registry, s!"{listing} pagination did not advance past {cursor}"⟩
    else .ok (some cursor)
  | none => .ok none

/-! ## Manifests -/

/-- A single-platform manifest, in the older of the two families of formats. -/
def dockerManifest : String := "application/vnd.docker.distribution.manifest.v2+json"

/-- A manifest that names one manifest for each platform, in the older family. -/
def dockerManifestList : String := "application/vnd.docker.distribution.manifest.list.v2+json"

/-- A single-platform manifest, in the newer family. -/
def ociManifest : String := "application/vnd.oci.image.manifest.v1+json"

/-- A manifest that names one manifest for each platform, in the newer family. -/
def ociIndex : String := "application/vnd.oci.image.index.v1+json"

/-- What a tag or a digest stands for. -/
structure Descriptor where
  digest : String
  mediaType : String
  deriving DecidableEq, Repr

/-- Whether the manifest names others, one for each platform. -/
def Descriptor.isIndex (d : Descriptor) : Bool :=
  d.mediaType = dockerManifestList ∨ d.mediaType = ociIndex

/-! ## Calls -/

/-- What the cache asks of a registry. -/
inductive Call where
  /-- A page of the catalog, the first one without a cursor. -/
  | catalogPage (cursor : Option String)
  | tagList (repository : String)
  | lookup (repository reference : String)
  /-- That a manifest be deleted, with all the tags on it. -/
  | removal (repository digest : String)
  deriving DecidableEq, Repr

/-- What a successful answer to a call holds. -/
abbrev Call.Answer : Call → Type
  | .catalogPage _ => CatalogPage
  | .tagList _ => List String
  | .lookup _ _ => Descriptor
  | .removal _ _ => Unit

/-- The answer to a call, or the reason why there is none. -/
abbrev Call.Reply (call : Call) : Type := Except RegistryError call.Answer

end RegistryCache
