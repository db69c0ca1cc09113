import RegistryCache.Cache.Catalog
import RegistryCache.Cache.Tags
import RegistryCache.Cache.Job
import RegistryCache.Policy
import RegistryCache.Log
import RegistryCache.Registry.Basic

/-! # The metadata cache

The whole of what is kept about a registry: its catalog, the tags of its repositories, and when the
two refresh jobs last ran.  Everything that happens to a cache is a `Step`, which gives the cache
after it, what is reported, and which registry calls begin.
-/

namespace RegistryCache

/-- All that is kept about one registry. -/
structure MetadataCache where
  policy : RefreshPolicy
  catalog : Catalog
  tags : TagStore
  catalogJob : Option JobInfo
  tagsJob : Option JobInfo
  deriving DecidableEq, Repr

/-- The state of the cache in figures. -/
structure Statistics where
  catalogReady : Bool
  repositoryCount : Nat
  tagCount : Nat
  topRepositories : List RepositoryCount
  catalogJob : Option JobInfo
  tagsJob : Option JobInfo
  deriving DecidableEq, Repr

namespace MetadataCache

def fresh (policy : RefreshPolicy) : MetadataCache := ⟨policy, .empty, .empty, none, none⟩

/-- The state of the cache in figures, with the `n` largest repositories. -/
def statistics (cache : MetadataCache) (n : Nat) : Statistics where
  catalogReady := cache.catalog.ready
  repositoryCount := cache.catalog.size
  tagCount := cache.tags.total
  topRepositories := cache.tags.top n
  catalogJob := cache.catalogJob
  tagsJob := cache.tagsJob

end MetadataCache

/-! ## Who speaks -/

namespace Notice

def ofCatalogJob (level : Level) (text : String) : Notice := ⟨level, some "RefreshCatalog", text⟩

def ofTagsJob (level : Level) (text : String) : Notice := ⟨level, some "RefreshTags", text⟩

def ofCache (level : Level) (text : String) : Notice := ⟨level, some "registry.cache", text⟩

end Notice

/-! ## Steps -/

/-- What happens to the cache at one instant, and how it goes on. -/
structure Step (α : Type) where
  cache : MetadataCache
  notices : List Notice
  begun : List Call
  next : α

namespace Step

def pure (cache : MetadataCache) (a : α) : Step α := ⟨cache, [], [], a⟩

/-- Something is reported, and nothing else happens. -/
def report (cache : MetadataCache) (n : Notice) (a : α) : Step α := ⟨cache, [n], [], a⟩

/-- One thing after another, at the same instant. -/
def andThen (s : Step α) (f : MetadataCache → α → Step β) : Step β :=
  let t := f s.cache s.next
  ⟨t.cache, s.notices ++ t.notices, s.begun ++ t.begun, t.next⟩

/-- The same step seen as the beginning of something larger. -/
def map (f : α → β) (s : Step α) : Step β := ⟨s.cache, s.notices, s.begun, f s.next⟩

def after (n : Notice) (s : Step α) : Step α := { s with notices := n :: s.notices }

@[simp] theorem cache_pure (cache : MetadataCache) (a : α) : (pure cache a).cache = cache := rfl

@[simp] theorem cache_report (cache : MetadataCache) (n : Notice) (a : α) :
    (report cache n a).cache = cache := rfl

@[simp] theorem cache_map (f : α → β) (s : Step α) : (s.map f).cache = s.cache := rfl

@[simp] theorem cache_after (n : Notice) (s : Step α) : (s.after n).cache = s.cache := rfl

@[simp] theorem cache_andThen (s : Step α) (f : MetadataCache → α → Step β) :
    (s.andThen f).cache = (f s.cache s.next).cache := rfl

@[simp] theorem begun_pure (cache : MetadataCache) (a : α) : (pure cache a).begun = [] := rfl

@[simp] theorem begun_report (cache : MetadataCache) (n : Notice) (a : α) :
    (report cache n a).begun = [] := rfl

@[simp] theorem begun_map (f : α → β) (s : Step α) : (s.map f).begun = s.begun := rfl

@[simp] theorem begun_after (n : Notice) (s : Step α) : (s.after n).begun = s.begun := rfl

@[simp] theorem begun_andThen (s : Step α) (f : MetadataCache → α → Step β) :
    (s.andThen f).begun = s.begun ++ (f s.cache s.next).begun := rfl

@[simp] theorem next_pure (cache : MetadataCache) (a : α) : (pure cache a).next = a := rfl

@[simp] theorem next_report (cache : MetadataCache) (n : Notice) (a : α) :
    (report cache n a).next = a := rfl

@[simp] theorem next_map (f : α → β) (s : Step α) : (s.map f).next = f s.next := rfl

@[simp] theorem next_after (n : Notice) (s : Step α) : (s.after n).next = s.next := rfl

@[simp] theorem next_andThen (s : Step α) (f : MetadataCache → α → Step β) :
    (s.andThen f).next = (f s.cache s.next).next := rfl

end Step

/-- Something in progress waits for a reply, or has come to its end. -/
inductive Progress (α β : Type) where
  | waiting (activity : α)
  | done (outcome : β)
  deriving DecidableEq, Repr

/-- Progress of a part seen as progress of the whole. -/
def Progress.map (f : α → α') (g : β → β') : Progress α β → Progress α' β'
  | .waiting a => .waiting (f a)
  | .done b => .done (g b)

end RegistryCache
