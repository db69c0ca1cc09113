import RegistryCache.Proofs.Interleaving.Waiting
import RegistryCache.Proofs.TagStore

/-! # Deletions among fetches

A deletion that succeeds takes its tag out of the cached entry.  From then on only a list that a fetch
brings can put it back, and whoever brings it has either begun the fetch since, or was in the middle of
it when the deletion returned.  The latter does happen: nothing tells a fetch under way that its list
is older than the deletion (`fetch_under_way_undoes_deletion`).  The main statement is
`Interleaving.deleted_tag_returns_only_by_fetch`.
-/

namespace RegistryCache

/-- An action that brings a list of a repository with a tag in it. -/
def Action.Brings (action : Action) (repository tag : String) : Prop :=
  ∃ tags, action.fetched? = some (repository, tags) ∧ tag ∈ tags

namespace Action

variable {store : TagStore} {repository tag : String}

theorem lists_onTags {action : Action} (lists : (action.onTags store).lists repository tag = true) :
    store.lists repository tag = true ∨ action.Brings repository tag := by
  unfold onTags at lists
  cases fetched : action.fetched? with
  | some found =>
    obtain ⟨r, tags⟩ := found
    rw [fetched] at lists
    simp only [TagStore.lists_insert] at lists
    by_cases own : r = repository
    · rw [if_pos own, List.contains_iff_mem] at lists
      exact .inr ⟨tags, own ▸ fetched, lists⟩
    · rw [if_neg own] at lists
      exact .inl lists
  | none =>
    rw [fetched] at lists
    cases deleted : action.deleted? with
    | some gone =>
      rw [deleted] at lists
      exact .inl (TagStore.lists_remove .. |>.mp lists).1
    | none =>
      rw [deleted] at lists
      exact .inl lists

theorem call_of_fetched {activity : Activity} {reply : activity.call.Reply} {tags : List String}
    (fetched : (hears activity reply).fetched? = some (repository, tags)) :
    activity.call = .tagList repository := by
  cases activity with
  | tagFetch | tagListing | tagPass =>
    cases reply with
    | error e => cases fetched
    | ok arrived =>
      cases fetched
      rfl
  | catalogWalk | lookup | removal => cases fetched

end Action

namespace Interleaving

variable {σ σ' σ₁ σ₂ : Interleaving} {events later : List Event} {e : Event} {p q : Party}
  {repository tag : String}

/-- A tag is listed after a move only if it was before, or if a party brings it that has waited for
    the tags of the repository. -/
theorem Move.lists (move : Move σ e σ') (lists : σ'.cache.tags.lists repository tag = true) :
    σ.cache.tags.lists repository tag = true ∨
      ∃ p action begun outcome activity, e = .act p action begun outcome ∧
        action.Brings repository tag ∧ σ.activity? p = some activity ∧
        activity.call = .tagList repository := by
  obtain ⟨p, activity, reply, begun, outcome, stopped, rfl, waiting, _⟩ | ⟨_, same⟩ :=
    move.cache_cases
  · rw [move.tags_eq] at lists
    obtain before | ⟨tags, fetched, member⟩ := Action.lists_onTags lists
    · exact .inl before
    · exact .inr ⟨p, _, begun, outcome, activity, rfl, ⟨tags, fetched, member⟩, waiting,
        Action.call_of_fetched fetched⟩
  · rw [MetadataCache.tags_eq_of_withoutTagsJob same] at lists
    exact .inl lists

/-- Whoever waits at the end of a run has waited since its beginning, or began the call in it. -/
theorem Run.waits {activity : Activity} (run : Run σ events σ')
    (waiting : σ'.activity? q = some activity) :
    σ.activity? q = some activity ∨
      ∃ e ∈ events, e.party? = some q ∧ activity.call ∈ e.begun := by
  induction run with
  | refl => exact .inl waiting
  | step _ move inductionHypothesis =>
    obtain before | ⟨acts, begun⟩ := move.waits waiting
    · obtain always | ⟨e, member, acts, begun⟩ := inductionHypothesis before
      · exact .inl always
      · exact .inr ⟨e, List.mem_append_left _ member, acts, begun⟩
    · exact .inr ⟨_, List.mem_append_right _ (List.mem_singleton.mpr rfl), acts, begun⟩

/-- A tag that was not listed at the beginning of a run, but is at its end, was brought in it. -/
theorem Run.lists (run : Run σ events σ') (absent : σ.cache.tags.lists repository tag = false)
    (lists : σ'.cache.tags.lists repository tag = true) :
    ∃ before p action begun outcome after,
      events = before ++ .act p action begun outcome :: after ∧ action.Brings repository tag ∧
      ((∃ activity, σ.activity? p = some activity ∧ activity.call = .tagList repository) ∨
        ∃ e ∈ before, e.party? = some p ∧ .tagList repository ∈ e.begun) := by
  induction run with
  | refl =>
    rw [absent] at lists
    cases lists
  | @step events e ρ _ run move inductionHypothesis =>
    -- it was listed before the last move, or that move brings it
    obtain earlier | ⟨p, action, begun, outcome, activity, rfl, brings, waiting, call⟩ :=
      move.lists lists
    · obtain ⟨before, p, action, begun, outcome, after, rfl, brings, origin⟩ :=
        inductionHypothesis earlier
      exact ⟨before, p, action, begun, outcome, after ++ [e], by simp, brings, origin⟩
    · refine ⟨events, p, action, begun, outcome, [], rfl, brings, ?_⟩
      obtain always | ⟨e, member, acts, begins⟩ := run.waits waiting
      · exact .inl ⟨activity, always, call⟩
      · exact .inr ⟨e, member, acts, call ▸ begins⟩

theorem Move.deleted {descriptor : Descriptor} {begun : List Call}
    {reply : (Activity.removal repository tag descriptor).call.Reply}
    (move : Move σ (.act p (.hears (.removal repository tag descriptor) reply) begun
      (some (.deleted true))) σ') : σ'.cache.tags.lists repository tag = false := by
  -- the outcome says that the reply was no error
  have succeeded : ∃ answer, reply = .ok answer := by
    cases reply with
    | ok answer => exact ⟨answer, rfl⟩
    | error e => cases move
  obtain ⟨answer, rfl⟩ := succeeded
  rw [move.tags_eq, Bool.eq_false_iff]
  intro lists
  have gone := TagStore.lists_remove .. |>.mp lists
  exact gone.2 ⟨rfl, rfl⟩

/-- A successful deletion among fetches.  After it has returned its tag is not in the cached entry of
    the repository until a fetch of that repository brings it back.  If that fetch was not under way
    already when the deletion returned, it was begun afterwards. -/
theorem deleted_tag_returns_only_by_fetch {descriptor : Descriptor} {begun : List Call}
    {reply : (Activity.removal repository tag descriptor).call.Reply}
    (deletes : Move σ (.act p (.hears (.removal repository tag descriptor) reply) begun
      (some (.deleted true))) σ₁)
    (run : Run σ₁ later σ₂) :
    σ₁.cache.tags.lists repository tag = false ∧
    (σ₂.cache.tags.lists repository tag = true →
      ∃ before q action begun outcome after,
        later = before ++ .act q action begun outcome :: after ∧ action.Brings repository tag ∧
        ((∃ activity, σ₁.activity? q = some activity ∧ activity.call = .tagList repository) ∨
          ∃ e ∈ before, e.party? = some q ∧ .tagList repository ∈ e.begun)) := by
  have absent := deletes.deleted
  refine ⟨absent, ?_⟩
  intro lists
  exact run.lists absent lists

/-- A tag is deleted, and then fetched anew. -/
theorem deleted_tag_returns_only_by_fetch_anew :
    ∃ events σ σ₁ σ₂, Run (idle (.fresh .standard) 0) events σ ∧
      Move σ (.act (.caller 1) (.hears (.removal "app" "v1" ⟨"sha256:1", ociManifest⟩) (.ok ())) []
        (some (.deleted true))) σ₁ ∧
      Run σ₁ [.act (.caller 0) (.begins (.fetchTags "app")) [.tagList "app"] none,
        .act (.caller 0) (.hears (.tagFetch "app") (.ok ["v1"])) []
          (some (.fetched (some ["v1"])))] σ₂ ∧
      σ₁.cache.tags.lists "app" "v1" = false ∧ σ₂.cache.tags.lists "app" "v1" = true := by
  have looks : Run (idle (.fresh .standard) 0) _ _ :=
    .single (.begin (i := 1) rfl (.deleteTag "app" "v1"))
  have found := looks.step
    (.hear (i := 1) rfl false (.ok (⟨"sha256:1", ociManifest⟩ : Descriptor)))
  have deleted := found.step (.hear (i := 1) rfl false (.ok ()))
  have begun := deleted.step (.begin (i := 0) rfl (.fetchTags "app"))
  have brought := begun.step (.hear (i := 0) rfl false (.ok (["v1"] : List String)))
  -- cut the run where the deletion returns
  rw [List.append_assoc] at brought
  obtain ⟨σ₁, until₁, fetches⟩ := brought.split
  obtain ⟨σ, run, deletes⟩ := until₁.last
  have absent := (deleted_tag_returns_only_by_fetch deletes fetches).1
  exact ⟨_, σ, σ₁, _, run, deletes, fetches, absent, rfl⟩

/-- A fetch that is under way when a deletion returns brings its tag back, although no call was begun
    since. -/
theorem fetch_under_way_undoes_deletion :
    ∃ events σ σ₁ σ₂, Run (idle (.fresh .standard) 0) events σ ∧
      Move σ (.act (.caller 1) (.hears (.removal "app" "v1" ⟨"sha256:1", ociManifest⟩) (.ok ())) []
        (some (.deleted true))) σ₁ ∧
      Run σ₁ [.act (.caller 0) (.hears (.tagFetch "app") (.ok ["v1"])) []
        (some (.fetched (some ["v1"])))] σ₂ ∧
      σ₁.cache.tags.lists "app" "v1" = false ∧ σ₂.cache.tags.lists "app" "v1" = true := by
  have fetches : Run (idle (.fresh .standard) 0) _ _ :=
    .single (.begin (i := 0) rfl (.fetchTags "app"))
  have looks := fetches.step (.begin (i := 1) rfl (.deleteTag "app" "v1"))
  have found := looks.step
    (.hear (i := 1) rfl false (.ok (⟨"sha256:1", ociManifest⟩ : Descriptor)))
  have deleted := found.step (.hear (i := 1) rfl false (.ok ()))
  have brought := deleted.step (.hear (i := 0) rfl false (.ok (["v1"] : List String)))
  obtain ⟨σ₁, until₁, brings⟩ := brought.split
  obtain ⟨σ, run, deletes⟩ := until₁.last
  exact ⟨_, σ, σ₁, _, run, deletes, brings, deletes.deleted, rfl⟩

end Interleaving

end RegistryCache
