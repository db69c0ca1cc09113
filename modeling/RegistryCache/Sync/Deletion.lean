import RegistryCache.Sync.Metadata

/-! # Deleting a tag

A registry deletes manifests by digest, so a deletion first looks up what the tag stands for and then
asks for that manifest to be removed.  Only when both have succeeded is the tag dropped from the
cache, and only this tag: others on the same manifest stay until the repository is fetched again.
-/

namespace RegistryCache.Deletion

def imageName (repository tag : String) : String := s!"{repository}:{tag}"

/-- Begins a deletion by looking the tag up. -/
def begin (repository tag : String) (cache : MetadataCache) : Step Unit :=
  ⟨cache, [], [.lookup repository tag], ()⟩

/-- The lookup is answered.  If it succeeded the removal of that very digest begins. -/
def receiveLookup (repository tag : String) (cache : MetadataCache)
    (reply : Except RegistryError Descriptor) : Step (Progress Descriptor Bool) :=
  match reply with
  | .error e =>
    .report cache (.ofCache .error
      s!"Error fetching image reference {imageName repository tag}: {e.message}") (.done false)
  | .ok descriptor =>
    { cache := cache
      notices := if descriptor.isIndex then [.ofCache .verbose
          s!"{imageName repository tag} is a multi-platform index, its platform manifests go with it"]
        else []
      begun := [.removal repository descriptor.digest]
      next := .waiting descriptor }

/-- The removal is answered.  If it succeeded the tag leaves the cache. -/
def receiveRemoval (repository tag : String) (descriptor : Descriptor) (cache : MetadataCache)
    (reply : Except RegistryError Unit) : Step Bool :=
  match reply with
  | .error e =>
    .report cache (.ofCache .error
      s!"Error deleting image {imageName repository tag}: {e.message}") false
  | .ok () =>
    .report { cache with tags := cache.tags.remove repository tag } (.ofCache .success
      s!"Image {imageName repository tag} ({descriptor.digest}) has been successfully deleted.") true

end RegistryCache.Deletion
