import RegistryCache.Proofs.Interleaving.Effects
import RegistryCache.Proofs.TagStore

/-! # The tags after any history

However many fetches, listings, passes and deletions overlap, the store of tags is told by the replies
that came to them, one after the other: a list replaces the entry of its repository, and a removal
takes its tag out of the entry that the repository has by then.  What fails or is given up tells
nothing.  The main statement is `Interleaving.tags_fold_of_replies`.
-/

namespace RegistryCache

/-! ## What replies tell -/

/-- What is known of the tags of each repository, if anything. -/
abbrev KnownTags := String → Option (List String)

/-- A successful reply that ends a fetch or a deletion. -/
inductive TagReply where
  | listed (repository : String) (tags : List String)
  | removed (repository tag : String)
  deriving DecidableEq, Repr

namespace TagReply

/-- A list is all that is known of its repository; a removal takes out every occurrence of its tag. -/
def apply (known : KnownTags) : TagReply → KnownTags
  | listed repository tags => Function.update known repository (some tags)
  | removed repository tag =>
    Function.update known repository ((known repository).map fun tags => tags.filter (· ≠ tag))

/-- Something is known of a repository after some replies: it was known before, or was listed. -/
theorem isSome_foldl_apply (replies : List TagReply) (known : KnownTags) (repository : String) :
    (replies.foldl apply known repository).isSome = true ↔
      (known repository).isSome = true ∨ ∃ tags, .listed repository tags ∈ replies := by
  induction replies generalizing known with
  | nil => simp
  | cons reply later inductionHypothesis =>
    rw [List.foldl_cons, inductionHypothesis]
    cases reply with
    | listed r tags =>
      by_cases own : repository = r
      · subst own
        simp [apply]
      · simp [apply, own]
    | removed r tag =>
      by_cases own : repository = r
      · subst own
        simp [apply]
      · simp [apply, Function.update_of_ne own]

end TagReply

/-- What an action tells about tags, if it brings a successful reply that ends a fetch or a
    deletion. -/
def Action.tagReply? (action : Action) : Option TagReply :=
  match action.fetched?, action.deleted? with
  | some (repository, tags), _ => some (.listed repository tags)
  | none, some (repository, tag) => some (.removed repository tag)
  | none, none => none

def Event.tagReply? (e : Event) : Option TagReply := e.action?.bind Action.tagReply?

/-- All that events tell about tags, one after the other. -/
def KnownTags.toldBy (events : List Event) : KnownTags :=
  (events.filterMap Event.tagReply?).foldl TagReply.apply fun _ => none

/-! ## The store follows -/

namespace TagStore

theorem get?_insert_eq_update (s : TagStore) (repository : String) (tags : List String) :
    (s.insert repository tags).get? = Function.update s.get? repository (some tags) := by
  funext r
  rw [get?_insert]
  by_cases own : repository = r
  · subst own
    simp
  · have other : ¬ r = repository := fun same => own same.symm
    simp [own, other]

theorem get?_remove_eq_update (s : TagStore) (repository tag : String) :
    (s.remove repository tag).get? = Function.update s.get? repository
      ((s.get? repository).map fun tags => tags.filter (· ≠ tag)) := by
  funext r
  rw [get?_remove]
  by_cases own : repository = r
  · subst own
    simp
  · have other : ¬ r = repository := fun same => own same.symm
    simp [own, other]

end TagStore

/-- An action does to the store what it tells. -/
theorem Action.get?_onTags (action : Action) (store : TagStore) :
    (action.onTags store).get? = action.tagReply?.elim store.get? (TagReply.apply store.get?) := by
  unfold onTags tagReply?
  cases action.fetched? with
  | some found => exact store.get?_insert_eq_update found.1 found.2
  | none =>
    cases action.deleted? with
    | some gone => exact store.get?_remove_eq_update gone.1 gone.2
    | none => rfl

/-- An action that tells nothing leaves the store as it is, entry by entry. -/
theorem Action.onTags_of_silent {action : Action} (silent : action.tagReply? = none)
    (store : TagStore) : action.onTags store = store := by
  unfold tagReply? at silent
  unfold onTags
  cases fetched : action.fetched? with
  | some found => simp [fetched] at silent
  | none =>
    cases deleted : action.deleted? with
    | some gone => simp [fetched, deleted] at silent
    | none => rfl

theorem Action.tagReply?_eq_listed_iff {action : Action} {repository : String}
    {tags : List String} :
    action.tagReply? = some (.listed repository tags) ↔
      action.fetched? = some (repository, tags) := by
  unfold tagReply?
  cases action.fetched? with
  | some found => simp [Prod.ext_iff]
  | none => cases action.deleted? <;> simp

namespace Interleaving

variable {σ σ' : Interleaving} {e : Event} {events : List Event}

/-- A move that brings no successful reply is no step for the tags. -/
theorem Move.tags_of_silent (move : Move σ e σ') (silent : e.tagReply? = none) :
    σ'.cache.tags = σ.cache.tags := by
  rw [move.tags_eq]
  unfold Event.tagReply? at silent
  cases acts : e.action? with
  | none => rfl
  | some action =>
    rw [acts] at silent
    exact Action.onTags_of_silent silent _

theorem Move.get?_tags (move : Move σ e σ') :
    σ'.cache.tags.get? =
      e.tagReply?.elim σ.cache.tags.get? (TagReply.apply σ.cache.tags.get?) := by
  rw [move.tags_eq]
  unfold Event.tagReply?
  cases e.action? with
  | none => rfl
  | some action => exact action.get?_onTags _

/-- What a run leaves known of the tags is what was known before it, and then what its events told. -/
theorem Run.get?_tags (run : Run σ events σ') :
    σ'.cache.tags.get? =
      (events.filterMap Event.tagReply?).foldl TagReply.apply σ.cache.tags.get? := by
  induction run with
  | refl => rfl
  | @step events e _ _ _ move inductionHypothesis =>
    rw [move.get?_tags, inductionHypothesis, List.filterMap_append, List.foldl_append]
    cases told : e.tagReply? with
    | none => simp [told]
    | some reply => simp [told]

theorem Run.contains_iff (run : Run σ events σ') (repository : String) :
    σ'.cache.tags.contains repository = true ↔ σ.cache.tags.contains repository = true ∨
      ∃ e ∈ events, ∃ tags, e.action?.bind Action.fetched? = some (repository, tags) := by
  have listed (e : Event) (tags : List String) :
      e.tagReply? = some (.listed repository tags) ↔
        e.action?.bind Action.fetched? = some (repository, tags) := by
    unfold Event.tagReply?
    cases e.action? with
    | none => simp
    | some action => exact Action.tagReply?_eq_listed_iff
  unfold TagStore.contains
  rw [run.get?_tags, TagReply.isSome_foldl_apply]
  apply or_congr_right
  constructor
  · rintro ⟨tags, told⟩
    obtain ⟨e, member, reply⟩ := List.mem_filterMap.mp told
    exact ⟨e, member, tags, (listed e tags).mp reply⟩
  · rintro ⟨e, member, tags, fetched⟩
    exact ⟨tags, List.mem_filterMap.mpr ⟨e, member, (listed e tags).mpr fetched⟩⟩

/-- The tags over whole runs.  Whatever was done to a cache that knew nothing, by any number of callers
    and loops and in any order, and after each step of it:

    * what is found for a repository, and which entries there are, is what the successful replies told
      in the order in which they arrived, and nothing else;
    * what comes next either brings such a reply, and does what that tells, or leaves the store as it
      is; the latter goes for every reply that is a failure and for everything that is given up;
    * a repository has an entry if and only if a fetch of it has succeeded, and keeps it from then
      on. -/
theorem tags_fold_of_replies {policy : RefreshPolicy} {now : Instant}
    (run : Run (idle (.fresh policy) now) events σ) :
    σ.cache.tags.get? = KnownTags.toldBy events ∧
    (∀ repository tags, ⟨repository, tags⟩ ∈ σ.cache.tags.entries ↔
      KnownTags.toldBy events repository = some tags) ∧
    (∀ e σ₁, Move σ e σ₁ →
      (∀ reply, e.tagReply? = some reply →
        σ₁.cache.tags.get? = reply.apply σ.cache.tags.get?) ∧
      (e.tagReply? = none → σ₁.cache.tags = σ.cache.tags)) ∧
    (∀ p activity error begun outcome σ₁,
      Move σ (.act p (.hears activity (.error error)) begun outcome) σ₁ →
        σ₁.cache.tags = σ.cache.tags) ∧
    (∀ p activity begun outcome σ₁, Move σ (.act p (.quits activity) begun outcome) σ₁ →
      σ₁.cache.tags = σ.cache.tags) ∧
    (∀ repository, σ.cache.tags.contains repository = true ↔
      ∃ e ∈ events, ∃ tags, e.action?.bind Action.fetched? = some (repository, tags)) ∧
    (∀ later σ₁ repository, Run σ later σ₁ → σ.cache.tags.contains repository = true →
      σ₁.cache.tags.contains repository = true) := by
  have told : σ.cache.tags.get? = KnownTags.toldBy events := run.get?_tags
  refine ⟨told, ?_, ?_, ?_, ?_, ?_, ?_⟩
  · intro repository tags
    rw [TagStore.mem_entries_iff, told]
  · intro e σ₁ move
    refine ⟨?_, move.tags_of_silent⟩
    intro reply brings
    rw [move.get?_tags, brings]
    rfl
  · intro p activity error begun outcome σ₁ move
    refine move.tags_of_silent ?_
    cases activity <;> rfl
  · intro p activity begun outcome σ₁ move
    exact move.tags_of_silent rfl
  · intro repository
    rw [run.contains_iff]
    simp [idle, MetadataCache.fresh, TagStore.empty, TagStore.contains, TagStore.get?]
  · intro later σ₁ repository further present
    exact (further.contains_iff repository).mpr (.inl present)

/-- Four callers at once: a repository is fetched and a tag of it deleted, another fetch fails, and
    one is given up.  The list names the tag twice, and the deletion was begun before it arrived. -/
theorem tags_fold_of_replies_overlapping :
    ∃ events σ, Run (idle (.fresh .standard) 0) events σ ∧
      KnownTags.toldBy events "app" = some ["v2"] ∧ KnownTags.toldBy events "web" = none ∧
      σ.cache.tags.get? = KnownTags.toldBy events := by
  have looks : Run (idle (.fresh .standard) 0) _ _ :=
    .single (.begin (i := 1) rfl (.deleteTag "app" "v1"))
  have fetches := looks.step (.begin (i := 0) rfl (.fetchTags "app"))
  have other := fetches.step (.begin (i := 2) rfl (.fetchTags "web"))
  have again := other.step (.begin (i := 3) rfl (.fetchTags "web"))
  have found := again.step
    (.hear (i := 1) rfl false (.ok (⟨"sha256:1", ociManifest⟩ : Descriptor)))
  have brought := found.step (.hear (i := 0) rfl false (.ok (["v1", "v2", "v1"] : List String)))
  have failed := brought.step (.hear (i := 2) rfl false (.error ⟨.timeout, "web"⟩))
  have deleted := failed.step (.hear (i := 1) rfl false (.ok ()))
  have left := deleted.step (.quit (i := 3) rfl)
  exact ⟨_, _, left, rfl, rfl, (tags_fold_of_replies left).1⟩

end Interleaving

end RegistryCache
