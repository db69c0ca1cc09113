import RegistryCache.Proofs.Json.Records
import RegistryCache.Proofs.ListingCourse
import RegistryCache.Proofs.Programs.Steps
import RegistryCache.Proofs.Scheduling.LifeCycle
import RegistryCache.Proofs.Texts

/-! # What refresh notes tell

Below the tags of a repository stands a note on how fresh they are.  Which phrases it has
(`RefreshPolicy.announcesOnline_iff`, `RefreshPolicy.namesInterval_iff`) agrees with where the next
listing takes its tags from, and with whether there is a tag loop.  The main statement is
`note_tells_next_view`.
-/

namespace RegistryCache

/-! ## Digits -/

namespace Text

theorem notMem_digits {c : Char} (letter : c.isDigit = false) (n : Nat) :
    c ∉ (toString n).toList := by
  intro member
  rw [(Json.areDigits_toString n).2 c member] at letter
  cases letter

theorem toString_inj {m n : UInt64} : toString m.toNat = toString n.toNat ↔ m = n := by
  constructor
  · intro same
    have spelled := (Json.spells_toString m).2
    rw [same, (Json.spells_toString n).2] at spelled
    exact (UInt64.toNat_inj.mp spelled).symm
  · rintro rfl
    rfl

end Text

/-! ## What a note says -/

namespace RefreshPolicy

/-- A note announces that the tags are fetched whenever somebody lists them. -/
def AnnouncesOnline (note : String) : Prop := Text.Mentions note "online when browsing"

instance (note : String) : Decidable (AnnouncesOnline note) :=
  inferInstanceAs (Decidable (Text.Mentions _ _))

/-- A note names an interval at which the tags are refreshed in the background. -/
def NamesInterval (note : String) (minutes : UInt64) : Prop :=
  Text.Mentions note s!"in the background every {minutes} min"

variable (p : RefreshPolicy) (count : Nat)

/-- What a note says after the interval, if it names one. -/
def onlinePart : String :=
  if p.onlineMax = 0 then "."
  else if count ≤ p.onlineMax.toNat then " and online when browsing."
  else s!". Online refresh is disabled (tag count exceeds {p.onlineMax})."

-- Of all these words `k` stands in "background" only, and `w` in "when browsing", so the two letters show
-- where a phrase can stand.
theorem toList_note (wanted : p.tagsInterval ≠ 0) :
    (p.note count).toList = "Tags for this repo are refreshed in the bac".toList ++ 'k' ::
      ("ground every ".toList ++ ((toString p.tagsInterval.toNat).toList ++ ' ' ::
        ("min".toList ++ (p.onlinePart count).toList))) := by
  have shown : toString p.tagsInterval = toString p.tagsInterval.toNat := rfl
  rw [note, if_neg wanted, onlinePart, ← shown]
  generalize toString p.tagsInterval = digits
  split_ifs <;> simp [toString]

theorem mem_onlinePart_iff :
    'w' ∈ (p.onlinePart count).toList ↔ p.onlineMax ≠ 0 ∧ count ≤ p.onlineMax.toNat := by
  have digits : 'w' ∉ (toString p.onlineMax).toList :=
    Text.notMem_digits (by decide) p.onlineMax.toNat
  rw [onlinePart]
  generalize toString p.onlineMax = limit at digits
  split_ifs with off small
  · simp [off]
  · simp [off, small]
  · simp [toString, off, small, digits]

theorem notMem_onlinePart : 'k' ∉ (p.onlinePart count).toList := by
  have digits : 'k' ∉ (toString p.onlineMax).toList :=
    Text.notMem_digits (by decide) p.onlineMax.toNat
  rw [onlinePart]
  generalize toString p.onlineMax = limit at digits
  split_ifs <;> simp [toString, digits]

theorem announcesOnline_iff (tags : List String) :
    AnnouncesOnline (p.note tags.length) ↔ p.Fetches (some tags) := by
  by_cases wanted : p.tagsInterval = 0
  · have announces : AnnouncesOnline (p.note tags.length) := by
      rw [note, if_pos wanted]
      decide
    simp [announces, Fetches, wanted]
  · have background : p.tagsInterval.toNat ≠ 0 := fun zero => wanted (UInt64.toNat_inj.mp zero)
    have fetches : p.Fetches (some tags) ↔ p.onlineMax ≠ 0 ∧ tags.length ≤ p.onlineMax.toNat := by
      simp [Fetches, background, ← UInt64.toNat_inj, Nat.pos_iff_ne_zero]
    rw [fetches, ← p.mem_onlinePart_iff]
    constructor
    · -- the letter stands in the phrase, and nowhere before the end of the note
      intro announces
      have letter := announces.mem (c := 'w') (by decide)
      have digits : 'w' ∉ (toString p.tagsInterval.toNat).toList := Text.notMem_digits (by decide) _
      rw [p.toList_note _ wanted] at letter
      generalize (toString p.tagsInterval.toNat).toList = shown at letter digits
      simpa [digits] using letter
    · intro online
      obtain ⟨on, small⟩ := (p.mem_onlinePart_iff _).mp online
      have within : "online when browsing".toList <:+: (p.onlinePart tags.length).toList := by
        rw [onlinePart, if_neg on, if_pos small]
        decide
      refine within.trans ?_
      rw [p.toList_note _ wanted]
      simp only [← List.cons_append, ← List.append_assoc]
      exact (List.suffix_append _ _).isInfix

theorem namesInterval_iff {minutes : UInt64} :
    NamesInterval (p.note count) minutes ↔ p.tagsInterval ≠ 0 ∧ minutes = p.tagsInterval := by
  have phrase : s!"in the background every {minutes} min".toList = "in the bac".toList ++ 'k' ::
      ("ground every ".toList ++ ((toString minutes.toNat).toList ++ ' ' :: "min".toList)) := by
    have shown : toString minutes = toString minutes.toNat := rfl
    rw [← shown]
    generalize toString minutes = digits
    simp [toString]
  by_cases wanted : p.tagsInterval = 0
  · have silent : ¬ NamesInterval (p.note count) minutes := by
      intro names
      have letter := names.mem (c := 'k') (by rw [phrase]; simp)
      rw [note, if_pos wanted] at letter
      exact absurd letter (by decide)
    simp [silent, wanted]
  · have blank (n : UInt64) : ' ' ∉ (toString n.toNat).toList := Text.notMem_digits (by decide) _
    have later : 'k' ∉ "ground every ".toList ++ ((toString p.tagsInterval.toNat).toList ++ ' ' ::
        ("min".toList ++ (p.onlinePart count).toList)) := by
      have digits : 'k' ∉ (toString p.tagsInterval.toNat).toList := Text.notMem_digits (by decide) _
      have ending := p.notMem_onlinePart count
      generalize (toString p.tagsInterval.toNat).toList = shown at digits
      simp [digits, ending]
    rw [NamesInterval, Text.Mentions, phrase, p.toList_note _ wanted,
      Text.infix_around_iff (by decide) later, List.prefix_append_right_inj,
      Text.prefix_of_word_iff (blank _) (blank _), String.toList_inj, Text.toString_inj]
    simp only [List.prefix_append, and_true, ne_eq, wanted, not_false_eq_true, true_and]
    exact and_iff_right (by decide)

end RefreshPolicy

open RefreshPolicy (AnnouncesOnline NamesInterval)

/-! ## The next view -/

/-- The next listing of a repository does what a note says: it asks the registry if the note announces
    that, and shows the tags that are cached otherwise. -/
structure MetadataCache.ViewedBy (cache : MetadataCache) (note repository : String)
    (tags : List String) : Prop where
  asks : ∀ now, ((Operation.listTags repository).begin cache now).begun =
    if AnnouncesOnline note then [.tagList repository] else []
  shows : ¬ AnnouncesOnline note → ∀ now,
    ((Operation.listTags repository).begin cache now).next = .done (.listing ⟨tags, true⟩)

theorem MetadataCache.viewedBy_note {cache : MetadataCache} {repository : String} {tags : List String}
    (known : cache.tags.get? repository = some tags) :
    cache.ViewedBy (cache.policy.note tags.length) repository tags := by
  have announces := cache.policy.announcesOnline_iff tags
  rw [← known] at announces
  by_cases fetches : cache.policy.Fetches (cache.tags.get? repository)
  · have said := announces.mpr fetches
    exact ⟨fun now => by rw [TagListing.begin_of_fetches fetches, if_pos said], absurd said⟩
  · have silent := mt announces.mp fetches
    refine ⟨fun now => ?_, fun _ now => ?_⟩
    · rw [TagListing.begin_of_not_fetches fetches, if_neg silent]
    · rw [TagListing.begin_of_not_fetches fetches, known]
      rfl

/-- A listing ends that shows tags of a repository as those that are known. -/
inductive Event.Shows (repository : String) (tags : List String) : Event → Prop
  | served (i : Nat) (begun : List Call) :
      Shows repository tags (.act (.caller i) (.begins (.listTags repository)) begun
        (some (.listing ⟨tags, true⟩)))
  | arrived (i : Nat) (reply : (Activity.tagListing repository).call.Reply) (begun : List Call) :
      Shows repository tags (.act (.caller i) (.hears (.tagListing repository) reply) begun
        (some (.listing ⟨tags, true⟩)))

namespace Interleaving

variable {σ σ' : Interleaving} {e : Event} {repository : String} {tags : List String}

theorem Move.cached_of_shows (move : Move σ e σ') (shows : e.Shows repository tags) :
    σ'.cache.tags.get? repository = some tags := by
  cases shows with
  | served i begun =>
    obtain ⟨still, fetched, served⟩ := move.begins_listing
    by_cases fetches : σ.cache.policy.Fetches (σ.cache.tags.get? repository)
    · cases (fetched fetches).2.1
    · rw [still]
      exact TagListing.eq_some_of_ofCached (by simpa using (served fetches).2.1.symm)
  | arrived i reply begun =>
    generalize outcome : some (Outcome.listing ⟨tags, true⟩) = shown at move
    cases move with
    | hear waiting stopped =>
      have course := TagListing.Course.waits.hear (i := i) (σ := σ) stopped reply
      exact course.cached (List.mem_append_right _ (List.mem_singleton.mpr rfl)) outcome.symm

end Interleaving

/-! ## Loading for a command -/

namespace World

variable (c : RegistryClient)

/-- A listing that is fetched is one call for the tags. -/
theorem settles_listTags_of_fetches {bound : Nat} (room : 0 < bound) {repository : String}
    {w : World Session} (fetches : w.cache.policy.Fetches (w.cache.tags.get? repository))
    {reply : Except RegistryError (List String)} {session : Session}
    (ran : (c.tagList repository).run w.registry = (reply, session)) :
    Settles (w.perform c.registry bound (.listTags repository) none)
      (.listing (.ofFetch reply.toOption)) w.now (TagFetch.receive repository w.cache reply).cache
      session := by
  have ends : ((Activity.tagListing repository).receive w.cache w.now false reply).next =
      .done (.listing (.ofFetch reply.toOption)) := by
    cases reply <;> rfl
  exact settles_of_single c room (TagListing.begin_of_fetches fetches w.now) ran ends

theorem settles_listTags_of_not_fetches (bound : Nat) {repository : String} {w : World Session}
    (served : ¬ w.cache.policy.Fetches (w.cache.tags.get? repository)) :
    Settles (w.perform c.registry bound (.listTags repository) none)
      (.listing (.ofCached (w.cache.tags.get? repository))) w.now w.cache w.registry := by
  rw [perform, TagListing.begin_of_not_fetches served, follow_done c]
  exact ⟨rfl, rfl, rfl, .refl _⟩

end World

/-- What a fetch shows as known is cached by then. -/
theorem TagFetch.known_of_ready {cache : MetadataCache} {repository : String}
    {reply : Except RegistryError (List String)}
    (ready : (TagListing.ofFetch reply.toOption).ready = true) :
    (TagFetch.receive repository cache reply).cache.tags.get? repository =
      some (TagListing.ofFetch reply.toOption).tags := by
  cases reply with
  | error e => cases ready
  | ok tags => exact (cache.stores_insert repository tags).own

theorem TagListing.known_of_ready {cached : Option (List String)}
    (ready : (ofCached cached).ready = true) : cached = some (ofCached cached).tags :=
  eq_some_of_ofCached (by rw [← ready])

namespace Run

variable (client : RegistryClient) (repository : String)

/-- Tags that are loaded and shown as known are those of the cache by then. -/
theorem attains_loadTags_known (s : RunState) :
    Attains (loadTags client repository) s fun l s' =>
      s'.world.cache.policy = s.world.cache.policy ∧
      (l.ready = true → s'.world.cache.tags.get? repository = some l.tags) := by
  have room := events_pos s.world.registry.transport
  rcases ran : (client.tagList repository).run s.world.registry with ⟨reply, session⟩
  refine (attains_get s).bind ?_
  rintro a s' ⟨rfl, rfl⟩
  generalize s.world.cache.tags.contains repository = contained
  cases contained with
  | true =>
    by_cases fetches : s.world.cache.policy.Fetches (s.world.cache.tags.get? repository)
    · refine (attains_perform (World.settles_listTags_of_fetches client room fetches ran)).bind ?_
      rintro o s' ⟨rfl, cache, -⟩
      refine .pure ⟨?_, fun ready => by rw [cache, TagFetch.known_of_ready ready]⟩
      rw [cache, TagFetch.cache_receive]
    · refine (attains_perform (World.settles_listTags_of_not_fetches client _ fetches)).bind ?_
      rintro o s' ⟨rfl, cache, -⟩
      exact .pure (by rw [cache]; exact ⟨rfl, TagListing.known_of_ready⟩)
  | false =>
    have settles := World.settles_fetchTags client room repository s.world
    rw [ran] at settles
    refine (attains_perform settles).bind ?_
    rintro o s' ⟨rfl, cache, -⟩
    cases reply with
    | error e => exact .pure ⟨by rw [cache], nofun⟩
    | ok tags =>
      refine .pure ⟨by rw [cache], fun _ => ?_⟩
      rw [cache]
      exact (s.world.cache.stores_insert repository tags).own

end Run

/-! ## The tag loop -/

theorem Scheduler.tagsAfter_ne_absent (s : Scheduler) {policy : RefreshPolicy}
    (wanted : policy.tagsPause? ≠ none) (result : CatalogRefresh) :
    s.tagsAfter policy (.done (.ok result)) ≠ .absent := by
  obtain ⟨pause, wanted⟩ := Option.ne_none_iff_exists'.mp wanted
  simp only [tagsAfter, startTags]
  split
  case h_1 => simp
  case h_2 other => exact fun absent => other pause absent wanted

/-- A refresh that succeeds starts the tag loop if it is wanted. -/
theorem Progresses.wanted {j : Nat} {σ : Interleaving} {s s' : Scheduler} {c c' : Chronicle}
    {e : Event} (progresses : Progresses j σ s c e s' c') (lives : s.Lives σ.cache c)
    (wanted : σ.cache.policy.tagsPause? ≠ none)
    (earlier : (∃ r ∈ c.refreshes, r.Succeeded) → s.tagLoop ≠ .absent)
    (succeeded : ∃ r ∈ c'.refreshes, r.Succeeded) : s'.tagLoop ≠ .absent := by
  cases progresses with
  | rests | stops | leaves => exact earlier succeeded
  | passes _ _ lands | tags _ _ _ _ lands => exact lands.ne_absent
  | ends => simp
  | refreshes due going arrival =>
    -- the refresh that begins has not succeeded yet
    refine earlier ?_
    simpa [Refresh.Succeeded, Round.opened, or_and_right, exists_or] using succeeded
  | @page walk _ waiting _ reply walked =>
    obtain ⟨done, r, equal, -, -⟩ := lives.reading waiting
    obtain ⟨other, member, t, result, ended⟩ := succeeded
    simp only [equal, List.modifyLast_concat, List.mem_append, List.mem_singleton] at member
    obtain member | rfl := member
    · have present := earlier ⟨other, by simp [equal, member], t, result, ended⟩
      obtain same | ⟨absent, -⟩ := s.tagsAfter_cases σ.cache.policy walked
      · exact same ▸ present
      · exact absurd absent present
    · -- the refresh succeeds right now
      cases walked with
      | waiting walk => cases ended
      | done outcome =>
        cases ended
        exact s.tagsAfter_ne_absent wanted result

namespace Interleaving

theorem Trace.tagLoop_iff {σ σ' : Interleaving} {stages : List Stage} {j : Nat} {s : Scheduler}
    (trace : Trace σ stages σ') (fresh : σ.schedulers j = some .start)
    (present : σ'.schedulers j = some s) :
    s.tagLoop ≠ .absent ↔
      σ.cache.policy.tagsPause? ≠ none ∧ ∃ r ∈ (Chronicle.of j stages).refreshes, r.Succeeded := by
  constructor
  · intro started
    obtain ⟨_, there, lives⟩ := trace.lives fresh
    rw [present] at there
    cases there
    exact trace.policy ▸ lives.started started
  · rintro ⟨wanted, succeeded⟩
    induction trace generalizing s with
    | refl => simp [Chronicle.empty] at succeeded
    | @step stages e σ₁ σ₂ trace move inductionHypothesis =>
      obtain ⟨before, there, lives⟩ := trace.lives fresh
      obtain ⟨s', c', there', rounds, progresses⟩ := move.progresses there (.of j stages)
      rw [present] at there'
      cases there'
      rw [Chronicle.of_snoc, rounds] at succeeded
      exact progresses.wanted lives (trace.policy.symm ▸ wanted) (inductionHypothesis there) succeeded

end Interleaving

/-! ## All that a note tells -/

open Interleaving (Stage Trace)

theorem RefreshPolicy.tagsPause?_eq_some_iff {p : RefreshPolicy} {pause : Duration} :
    p.tagsPause? = some pause ↔ p.tagsInterval ≠ 0 ∧ pause = .ofMinutes p.tagsInterval := by
  have positive : 0 < p.tagsInterval ↔ p.tagsInterval ≠ 0 := by
    simp [UInt64.lt_iff_toNat_lt, ← UInt64.toNat_inj, Nat.pos_iff_ne_zero]
  rw [tagsPause?, interval?, Option.ite_none_right_eq_some, positive, Option.some_inj, eq_comm (a := pause)]

/-- The note below so many tags of a repository tells what happens next.  After they were listed, or
    loaded for a command, and while they stay the entry of their repository, the next listing asks the
    registry just if the note announces that it is refreshed online, and shows them as they are
    otherwise.  The note names an interval just if a scheduler runs its tag loop as soon as a refresh of
    the catalog has succeeded, and then the interval is the pause of that loop. -/
theorem note_tells_next_view (p : RefreshPolicy) (repository : String) (tags : List String) :
    let note := p.note tags.length
    (∀ {σ σ' : Interleaving} {stages : List Stage} {stage : Stage}, Trace σ stages σ' →
      σ.cache.policy = p → stage ∈ stages → stage.event.Shows repository tags →
      σ'.cache.tags.get? repository = stage.after.cache.tags.get? repository →
      σ'.cache.ViewedBy note repository tags) ∧
    (∀ (client : RegistryClient) (s : RunState), s.world.cache.policy = p →
      ∃ listing s', (Run.loadTags client repository).run s = (.ok listing, s') ∧
        (listing = ⟨tags, true⟩ → ∀ cache : MetadataCache, cache.policy = p →
          cache.tags.get? repository = s'.world.cache.tags.get? repository →
          cache.ViewedBy note repository tags)) ∧
    (∀ {σ σ' : Interleaving} {stages : List Stage} {j : Nat} {s : Scheduler}, Trace σ stages σ' →
      σ.cache.policy = p → σ.schedulers j = some .start → σ'.schedulers j = some s →
      (s.tagLoop ≠ .absent ↔ (∃ r ∈ (Chronicle.of j stages).refreshes, r.Succeeded) ∧
        ∃ minutes, NamesInterval note minutes)) ∧
    ∀ minutes, NamesInterval note minutes → p.tagsPause? = some (.ofMinutes minutes) := by
  intro note
  refine ⟨?_, ?_, ?_, ?_⟩
  · rintro σ σ' stages stage trace rfl member shows kept
    have known := (trace.move_of_mem member).cached_of_shows shows
    have viewed := MetadataCache.viewedBy_note (kept.trans known)
    rwa [trace.policy] at viewed
  · rintro client s rfl
    obtain ⟨listing, s', ran, -, ready⟩ := Run.attains_loadTags_known client repository s
    refine ⟨listing, s', ran, ?_⟩
    rintro rfl cache policy kept
    have viewed := MetadataCache.viewedBy_note (kept.trans (ready rfl))
    rwa [policy] at viewed
  · rintro σ σ' stages j s trace rfl fresh present
    have named : (∃ minutes, NamesInterval note minutes) ↔ σ.cache.policy.tagsPause? ≠ none := by
      simp [note, RefreshPolicy.namesInterval_iff, Option.ne_none_iff_exists',
        RefreshPolicy.tagsPause?_eq_some_iff]
    rw [trace.tagLoop_iff fresh present, named, and_comm]
  · intro minutes names
    obtain ⟨wanted, rfl⟩ := p.namesInterval_iff _ |>.mp names
    exact RefreshPolicy.tagsPause?_eq_some_iff.mpr ⟨wanted, rfl⟩

/-- Two tags of `app` are as many as are fetched on every listing, and their note says so; three of `web`
    are more.  Both notes name the pause of the tag loop, which the first page of the catalog starts. -/
theorem note_tells_next_view_at_limit :
    let p : RefreshPolicy := ⟨10, 60, 2⟩
    let store := (TagStore.empty.insert "app" ["v1"]).insert "web" ["v1", "v2", "v3"]
    let σ := Interleaving.idle { MetadataCache.fresh p with tags := store } 0
    (∃ stages σ', Trace σ stages σ' ∧ AnnouncesOnline (p.note 2) ∧
      σ'.cache.ViewedBy (p.note 2) "app" ["v1", "v2"]) ∧
    (∃ stages σ', Trace σ stages σ' ∧ ¬ AnnouncesOnline (p.note 3) ∧
      σ'.cache.ViewedBy (p.note 3) "web" ["v1", "v2", "v3"]) ∧
    ∃ stages σ' s, Trace (σ.put 0 .start) stages σ' ∧ σ'.schedulers 0 = some s ∧
      NamesInterval (p.note 2) 60 ∧ s.tagLoop ≠ .absent := by
  intro p store σ
  obtain ⟨views, -, loops, -⟩ := note_tells_next_view p "app" ["v1", "v2"]
  obtain ⟨views', -, -, -⟩ := note_tells_next_view p "web" ["v1", "v2", "v3"]
  refine ⟨?_, ?_, ?_⟩
  · have asked := (Trace.refl (σ := σ)).step (.begin (i := 0) rfl (.listTags "app"))
    have fetched := asked.step (.hear (i := 0) rfl false (.ok ["v1", "v2"]))
    have online := (p.announcesOnline_iff ["v1", "v2"]).mpr (by decide)
    exact ⟨_, _, fetched, online, views fetched rfl (List.mem_append_right _ List.mem_cons_self)
      (.arrived 0 (.ok ["v1", "v2"]) []) rfl⟩
  · have served := (Trace.refl (σ := σ)).step (.begin (i := 0) rfl (.listTags "web"))
    have cached := mt (p.announcesOnline_iff ["v1", "v2", "v3"]).mp (by decide)
    exact ⟨_, _, served, cached, views' served rfl List.mem_cons_self (.served 0 []) rfl⟩
  · have asks := (Trace.refl (σ := σ.put 0 .start)).step (.loop (j := 0) rfl (.runCatalog fun _ => 10))
    have page : Scheduler.Turn ⟨false, .walking ⟨0, none, []⟩ 10, .absent⟩ σ.cache 0 _ _ _ :=
      .page rfl rfl (fun _ => 10) (.ok ⟨["app", "web"], none⟩)
    have read := asks.step (.loop (j := 0) rfl page)
    have named : NamesInterval (p.note 2) 60 := (p.namesInterval_iff 2).mpr ⟨by decide, rfl⟩
    refine ⟨_, _, _, read, rfl, named, (loops (j := 0) read rfl rfl rfl).mpr ⟨?_, 60, named⟩⟩
    exact ⟨_, List.mem_singleton.mpr rfl, _, _, rfl⟩

end RegistryCache
