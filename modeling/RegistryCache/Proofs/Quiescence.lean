import RegistryCache.Proofs.Interleaving.Worlds

/-! # Quiescence

A stop request may come at any moment.  From there on three turns bring both loops of a scheduler to
their end without any time passing, in whatever order everybody else moves in between, and nothing
begins or changes any more by them.  The main statement is `Interleaving.loops_quiesce`.
-/

namespace RegistryCache

/-! ## Runs -/

def Event.Does (e : Event) (p : Party) (action : Action) : Prop :=
  e.party? = some p ∧ e.action? = some action

namespace Interleaving

/-- The loops of a scheduler were started, and stand so. -/
def Stands (σ : Interleaving) (j : Nat) (P : Scheduler → Prop) : Prop :=
  ∃ s, σ.schedulers j = some s ∧ P s

variable {σ σ' : Interleaving} {e : Event} {events : List Event} {j : Nat} {P Q : Scheduler → Prop}

theorem Stands.imp (stands : σ.Stands j P) (weaker : ∀ s, P s → Q s) : σ.Stands j Q := by
  obtain ⟨s, present, holds⟩ := stands
  exact ⟨s, present, weaker s holds⟩

theorem Stands.and (first : σ.Stands j P) (second : σ.Stands j Q) :
    σ.Stands j fun s => P s ∧ Q s := by
  obtain ⟨s, present, holds⟩ := first
  obtain ⟨s', present', holds'⟩ := second
  rw [present] at present'
  cases present'
  exact ⟨s, present, holds, holds'⟩

/-- What a stop request and every turn of the loops keep, every move keeps. -/
theorem Move.stands (move : Move σ e σ') (stands : σ.Stands j P)
    (stops : ∀ s, P s → P s.stop)
    (turns : ∀ s role action step, s.Turn σ.cache σ.now role action step → P s → P step.next) :
    σ'.Stands j P := by
  obtain ⟨s, present, holds⟩ := stands
  obtain ⟨still, _⟩ | ⟨asked, _⟩ | ⟨role, action, step, _, turn, rfl⟩ :=
    move.scheduler_cases present
  · exact ⟨s, still, holds⟩
  · exact ⟨s.stop, asked, stops s holds⟩
  · exact ⟨step.next, by simp [advance, put], turns s role action step turn holds⟩

theorem Run.stopped (run : Run σ events σ') (asked : σ.Stands j (·.stopped = true)) :
    σ'.Stands j (·.stopped = true) :=
  run.keeps asked fun move stands => move.stands stands (fun _ _ => rfl)
    fun _ _ _ _ turn asked => by rw [turn.frame.1, asked]

theorem Run.finished (run : Run σ events σ') (finished : σ.Stands j Scheduler.Over) :
    σ'.Stands j Scheduler.Over :=
  run.keeps finished fun move stands => move.stands stands (fun _ finished => finished)
    fun _ _ _ _ turn finished => by rw [(turn.idle finished).2.2]; exact finished

/-- What one turn of stopped loops brings about and no later turn undoes holds after every run with
    such a turn. -/
theorem Run.brings_stopped {role : Role} {action : Action} (run : Run σ events σ')
    (asked : σ.Stands j (·.stopped = true)) (happens : ∃ e ∈ events, e.Does (.loop role j) action)
    (stops : ∀ s, P s → P s.stop)
    (caused : ∀ (s : Scheduler) cache now (step : Step Scheduler), s.stopped = true →
      s.Turn cache now role action step → P step.next)
    (kept : ∀ (s : Scheduler) cache now role action (step : Step Scheduler), s.stopped = true →
      s.Turn cache now role action step → P s → P step.next) :
    σ'.Stands j P := by
  refine run.brings (P := (·.Stands j P)) happens ?_ ?_
  · intro before ρ e ρ' run move cause
    obtain ⟨s, present, stopped⟩ := run.stopped asked
    obtain ⟨_, others⟩ | ⟨_, others⟩ | ⟨role', action', step, rfl, turn, rfl⟩ :=
      move.scheduler_cases present
    · exact absurd cause.1 (others role)
    · exact absurd cause.1 (others role)
    · obtain ⟨party, act⟩ := cause
      cases party
      cases act
      exact ⟨step.next, by simp [advance, put], caused s _ _ step stopped turn⟩
  · intro before ρ e ρ' run move holds
    -- the turn that keeps it is one of stopped loops, so both facts go through the move together
    have both := (run.stopped asked).and holds
    exact (move.stands both (fun s both => ⟨rfl, stops s both.2⟩)
      fun s role action step turn both =>
        ⟨by rw [turn.frame.1, both.1], kept s _ _ role action step both.1 turn both.2⟩).imp
      fun _ both => both.2

theorem Run.leaving (run : Run σ events σ') (asked : σ.Stands j (·.stopped = true))
    (runs : ∃ e ∈ events, e.Does (.loop .catalog j) .runs) : σ'.Stands j Scheduler.Leaving := by
  refine run.brings_stopped asked runs (fun _ left => left) ?_ ?_
  · intro s cache now step stopped turn
    cases turn with
    | runCatalog latency => exact (Scheduler.leaving_settleCatalog latency cache now stopped).1
  · intro s cache now role action step stopped turn left
    exact turn.leaving stopped left

theorem Run.tagsOver (run : Run σ events σ') (asked : σ.Stands j (·.stopped = true))
    (runs : ∃ e ∈ events, e.Does (.loop .tags j) .runs) : σ'.Stands j (·.tagLoop.Over) := by
  refine run.brings_stopped asked runs (fun _ finished => finished) ?_ ?_
  · intro s cache now step stopped turn
    cases turn with
    | runTags latency => exact (Scheduler.over_settleTags latency cache now stopped).1
  · intro s cache now role action step stopped turn finished
    exact turn.tagsOver stopped finished

/-- Stopped loops that have both run, and then looked for each other, are over. -/
theorem Run.ends {first second : List Event} {ρ : Interleaving} (earlier : Run σ first ρ)
    (later : Run ρ second σ') (ordered : σ.Ordered) (asked : σ.Stands j (·.stopped = true))
    (catalogRuns : ∃ e ∈ first, e.Does (.loop .catalog j) .runs)
    (tagsRun : ∃ e ∈ first, e.Does (.loop .tags j) .runs)
    (joins : ∃ e ∈ second, e.Does (.loop .catalog j) .joins) : σ'.Stands j Scheduler.Over := by
  have orderly := earlier.keeps ordered Move.ordered
  have widen (before : List Event) {p : Party} {action : Action}
      (happens : ∃ e ∈ first, e.Does p action) : ∃ e ∈ first ++ before, e.Does p action := by
    obtain ⟨e, member, does⟩ := happens
    exact ⟨e, List.mem_append_left _ member, does⟩
  refine later.brings (P := (·.Stands j Scheduler.Over)) joins ?_ ?_
  · intro before τ e τ' run move cause
    -- both have left since the stop request, and nothing has brought them back
    have whole := earlier.trans run
    obtain ⟨s, present, left, finished⟩ := (whole.leaving asked (widen before catalogRuns)).and
      (whole.tagsOver asked (widen before tagsRun))
    obtain ⟨_, others⟩ | ⟨_, others⟩ | ⟨role, action, step, rfl, turn, rfl⟩ :=
      move.scheduler_cases present
    · exact absurd cause.1 (others .catalog)
    · exact absurd cause.1 (others .catalog)
    · obtain ⟨party, act⟩ := cause
      cases party
      cases act
      cases turn with
      | join =>
        have there := (run.keeps orderly Move.ordered) j s present
        exact ⟨_, by simp [advance, put], Scheduler.over_settleJoin _ there left finished⟩
  · intro before τ e τ' run move finished
    exact (Run.single move).finished finished

theorem take_turn {s : Scheduler} {role : Role} {action : Action} {step : Step Scheduler}
    (present : σ.schedulers j = some s) (turn : s.Turn σ.cache σ.now role action step) :
    ∃ σ', Move σ (.act (.loop role j) action step.begun none) σ' ∧
      σ'.schedulers j = some step.next ∧ σ'.now = σ.now :=
  ⟨_, .loop present turn, by simp [advance, put], rfl⟩

/-- Stopped loops can always end at once: one turn of each, and a look of the one for the other. -/
theorem ends_at_once {s : Scheduler} (ordered : σ.Ordered) (present : σ.schedulers j = some s)
    (asked : s.stopped = true) :
    ∃ turns σ', Run σ turns σ' ∧
      (∀ e ∈ turns, ∃ role action begun, e = .act (.loop role j) action begun none) ∧
      σ'.now = σ.now ∧ σ'.Stands j Scheduler.Over := by
  have latency : Call → Nat := fun _ => 0
  obtain ⟨σ₁, first, present₁, now₁⟩ := take_turn present (.runCatalog latency)
  obtain ⟨σ₂, second, present₂, now₂⟩ := take_turn present₁ (.runTags latency)
  obtain ⟨σ₃, third, _, now₃⟩ := take_turn present₂ .join
  have both := Run.step (.single first) second
  refine ⟨_, σ₃, .step both third, ?_, by rw [now₃, now₂, now₁], ?_⟩
  · intro e member
    simp only [List.cons_append, List.nil_append, List.mem_cons, List.not_mem_nil,
      or_false] at member
    obtain rfl | rfl | rfl := member
    · exact ⟨.catalog, .runs, _, rfl⟩
    · exact ⟨.tags, .runs, _, rfl⟩
    · exact ⟨.catalog, .joins, _, rfl⟩
  · exact both.ends (.single third) ordered ⟨s, present, asked⟩
      ⟨_, List.mem_cons_self, rfl, rfl⟩
      ⟨_, List.mem_append_right _ List.mem_cons_self, rfl, rfl⟩
      ⟨_, List.mem_cons_self, rfl, rfl⟩

/-- Stopped loops, from the stop request on: no turn begins a call or touches the catalog, its job or
    the tags, and the tags job only if a pass over an empty catalog was just about to begin. -/
theorem silent_after_stop {role : Role} {later : List Event} {σ₁ σ₂ : Interleaving}
    (asked : σ.Stands j (·.stopped = true)) (run : Run σ later σ₁) (move : Move σ₁ e σ₂)
    (acts : e.party? = some (.loop role j)) :
    e.begun = [] ∧ σ₂.cache.withoutTagsJob = σ₁.cache.withoutTagsJob ∧
      (σ₂.cache = σ₁.cache ∨ role = .tags ∧ σ₁.Stands j (·.tagLoop = .spawned) ∧
        σ₁.cache.catalog.repositories = []) := by
  obtain ⟨s, present, stopped⟩ := run.stopped asked
  obtain ⟨_, others⟩ | ⟨_, others⟩ | ⟨role', action, step, rfl, turn, rfl⟩ :=
    move.scheduler_cases present
  · exact absurd acts (others role)
  · exact absurd acts (others role)
  · cases acts
    obtain ⟨begun, kept, written⟩ := turn.silent stopped
    refine ⟨begun, kept, ?_⟩
    obtain untouched | ⟨tags, spawned, empty⟩ := written
    · exact .inl untouched
    · exact .inr ⟨tags, ⟨s, present, spawned⟩, empty⟩

/-- Loops that are over, from then on: their turns change nothing at all. -/
theorem nothing_after_end {role : Role} {later : List Event} {σ₁ σ₂ : Interleaving}
    (finished : σ.Stands j Scheduler.Over) (run : Run σ later σ₁) (move : Move σ₁ e σ₂)
    (acts : e.party? = some (.loop role j)) : e.begun = [] ∧ σ₂ = σ₁ := by
  obtain ⟨s, present, ended⟩ := run.finished finished
  obtain ⟨_, others⟩ | ⟨_, others⟩ | ⟨role', action, step, rfl, turn, rfl⟩ :=
    move.scheduler_cases present
  · exact absurd acts (others role)
  · exact absurd acts (others role)
  · obtain ⟨begun, cache, next⟩ := turn.idle ended
    -- putting the loops where they stand already is no change
    have placed : Function.update σ₁.schedulers j (some s) = σ₁.schedulers := by
      rw [← present]
      exact Function.update_eq_self j _
    refine ⟨begun, ?_⟩
    rw [advance, put, cache, next, placed]

end Interleaving

namespace World

variable {ρ : Type} {w : World ρ} {a : Option Activity} {j : Nat}

/-- Loops that are over hand out their result, and are over still when they are let go of. -/
theorem takeResult_of_over (last : w.schedulers.length = j + 1)
    (finished : (w.interleaving a).Stands j Scheduler.Over) :
    ∃ result, w.takeResult.2 = .finished result ∧
      (({ w.takeResult.1.mapLast Scheduler.stop with held := false } : World ρ).interleaving
        a).Stands j Scheduler.Over := by
  have released : w.Becomes a { w.takeResult.1.mapLast Scheduler.stop with held := false } a :=
    (becomes_takeResult.trans becomes_stop).trans (.of_eq rfl rfl)
  obtain ⟨_, run, _⟩ := released
  have ⟨s, present, ⟨result, ended⟩, _⟩ := finished
  have given : w.ended? = some result := by
    have there : w.schedulers.getLast? = some s := by
      rw [List.getLast?_eq_getElem?, last]
      exact present
    rw [ended?, there, Option.bind_some, ended]
    rfl
  refine ⟨if w.awaited then .ok () else result, by rw [takeResult, given], ?_⟩
  exact run.finished finished

theorem stands_mapLast_stop (last : w.schedulers.length = j + 1) :
    ((w.mapLast Scheduler.stop).interleaving a).Stands j (·.stopped = true) ∧
      (w.mapLast Scheduler.stop).schedulers.length = j + 1 := by
  cases there : w.schedulers.getLast? with
  | none =>
    rw [List.getLast?_eq_none_iff.mp there] at last
    cases last
  | some s =>
    obtain ⟨before, equal⟩ := List.getLast?_eq_some_iff.mp there
    have asked : (w.mapLast Scheduler.stop).schedulers = before ++ [s.stop] := by
      simp [mapLast, equal]
    have length : before.length = j := by simpa [equal] using last
    exact ⟨⟨s.stop, by simp [interleaving, asked, ← length], rfl⟩, by simp [asked, length]⟩

/-- With the catalog loop the tag loop has ended. -/
theorem stands_over_of_ended (ordered : (w.interleaving a).Ordered)
    (last : w.schedulers.length = j + 1) (ended : w.ended?.isSome = true) :
    (w.interleaving a).Stands j Scheduler.Over := by
  obtain ⟨result, ended⟩ := Option.isSome_iff_exists.mp ended
  obtain ⟨s, there, ended⟩ := Option.bind_eq_some_iff.mp ended
  rw [List.getLast?_eq_getElem?, last] at there
  have finished : s.catalogLoop.Over := by
    cases loop : s.catalogLoop with
    | ended result => exact ⟨result, rfl⟩
    | _ => simp [loop, CatalogLoop.result?] at ended
  exact ⟨s, there, finished, (ordered j s there).last finished⟩

/-- Loops that are asked to stop and settle have ended. -/
theorem stands_over_settle (reg : Registry ρ) (ordered : (w.interleaving a).Ordered)
    (last : w.schedulers.length = j + 1) :
    (((w.mapLast Scheduler.stop).settle reg).interleaving a).Stands j Scheduler.Over := by
  obtain ⟨asked, _⟩ := stands_mapLast_stop (a := a) last
  obtain ⟨⟨_, run, _⟩, settled⟩ := becomes_settle reg ((becomes_stop (a := a)).ordered ordered)
  obtain ⟨s, there, stopped⟩ := run.stopped asked
  exact ⟨s, there, settled s (List.mem_of_getElem? there) stopped⟩

/-- Whoever shuts the loops down that were started last, in whatever state they are, gets their result
    at the same instant, and both have ended. -/
theorem shutdown_finishes (reg : Registry ρ) (ordered : (w.interleaving a).Ordered)
    (held : w.held = true) (last : w.schedulers.length = j + 1) :
    ∃ result, (w.shutdown reg).2 = .finished result ∧ (w.shutdown reg).1.now = w.now ∧
      ((w.shutdown reg).1.interleaving a).Stands j Scheduler.Over := by
  -- the loops are over already, or are asked to stop and settle
  obtain ⟨v, now, length, finished, equal⟩ : ∃ v : World ρ, v.now = w.now ∧
      v.schedulers.length = j + 1 ∧ (v.interleaving a).Stands j Scheduler.Over ∧
      w.shutdown reg =
        ({ v.takeResult.1.mapLast Scheduler.stop with held := false }, v.takeResult.2) := by
    by_cases ended : w.ended?.isSome
    · exact ⟨w, rfl, last, stands_over_of_ended ordered last ended, by simp [shutdown, held, ended]⟩
    · obtain ⟨now, same⟩ := settle_frame reg (w.mapLast Scheduler.stop)
      have length := same.trans (stands_mapLast_stop (a := a) last).2
      exact ⟨_, now, length, stands_over_settle reg ordered last, by simp [shutdown, held, ended]⟩
  obtain ⟨result, handed, stands⟩ := takeResult_of_over length finished
  have untimed : v.takeResult.1.now = v.now := by
    unfold takeResult
    split <;> rfl
  rw [equal]
  exact ⟨result, handed, untimed.trans now, stands⟩

end World

namespace Interleaving

variable {σ σ' : Interleaving} {e : Event} {events : List Event} {j : Nat} {P Q : Scheduler → Prop}

/-- Quiescence.  Whatever else goes on over a cache, and wherever a stop request finds the loops of a
    scheduler:

    * in every state the catalog loop is over only when the tag loop is, so whoever waits for the one
      has waited for both;
    * once they are asked to stop, three turns bring both to their end and no time passes; there is no
      order of moves in which both loops run, and look for each other, and one of them goes on;
    * meanwhile they begin no call and change neither catalog, tags nor catalog job, and the tags job
      only where a pass over an empty catalog was just about to begin;
    * from their end on, none of their turns begins a call or changes anything;
    * whoever shuts them down gets their result at the same instant, and then both have ended. -/
theorem loops_quiesce {cache : MetadataCache} {now : Instant} {s : Scheduler}
    (run : Run (.idle cache now) events σ) (present : σ.schedulers j = some s) :
    (s.catalogLoop.Over → s.tagLoop.Over) ∧
    (s.stopped = true →
      (∃ turns σ', Run σ turns σ' ∧
        (∀ e ∈ turns, ∃ role action begun, e = .act (.loop role j) action begun none) ∧
        σ'.now = σ.now ∧ σ'.Stands j Scheduler.Over) ∧
      (∀ first second σ₁ σ₂, Run σ first σ₁ → Run σ₁ second σ₂ →
        (∃ e ∈ first, e.Does (.loop .catalog j) .runs) →
        (∃ e ∈ first, e.Does (.loop .tags j) .runs) →
        (∃ e ∈ second, e.Does (.loop .catalog j) .joins) → σ₂.Stands j Scheduler.Over) ∧
      (∀ later σ₁ e σ₂ role, Run σ later σ₁ → Move σ₁ e σ₂ → e.party? = some (.loop role j) →
        e.begun = [] ∧ σ₂.cache.withoutTagsJob = σ₁.cache.withoutTagsJob ∧
          (σ₂.cache = σ₁.cache ∨ role = .tags ∧ σ₁.Stands j (·.tagLoop = .spawned) ∧
            σ₁.cache.catalog.repositories = []))) ∧
    (s.Over → ∀ later σ₁ e σ₂ role, Run σ later σ₁ → Move σ₁ e σ₂ →
      e.party? = some (.loop role j) → e.begun = [] ∧ σ₂ = σ₁) ∧
    (∀ {ρ : Type} (reg : Registry ρ) (w : World ρ) (a : Option Activity), w.interleaving a = σ →
      w.held = true → w.schedulers.length = j + 1 →
      ∃ result, (w.shutdown reg).2 = .finished result ∧ (w.shutdown reg).1.now = σ.now ∧
        ((w.shutdown reg).1.interleaving a).Stands j Scheduler.Over) := by
  have ordered := run.ordered
  refine ⟨(ordered j s present).last, ?_, ?_, ?_⟩
  · intro asked
    refine ⟨ends_at_once ordered present asked, ?_, ?_⟩
    · intro first second σ₁ σ₂ earlier later catalogRuns tagsRun joins
      exact earlier.ends later ordered ⟨s, present, asked⟩ catalogRuns tagsRun joins
    · intro later σ₁ e σ₂ role run move acts
      exact silent_after_stop ⟨s, present, asked⟩ run move acts
  · intro finished later σ₁ e σ₂ role run move acts
    exact nothing_after_end ⟨s, present, finished⟩ run move acts
  · intro ρ reg w a same held last
    subst same
    exact World.shutdown_finishes reg ordered held last

/-- A registry with one repository, whose tags it takes its time to tell. -/
def slowTags : Registry Unit where
  latency _ call := match call with
    | .tagList _ => 1000
    | _ => 0
  answer registry call := match call with
    | .catalogPage _ => (.ok ⟨["app"], none⟩, registry, [])
    | .tagList _ => (.ok ["v1"], registry, [])
    | .lookup .. => (.error ⟨.notFound, "no such tag"⟩, registry, [])
    | .removal .. => (.error ⟨.notFound, "no such manifest"⟩, registry, [])

/-- A catalog loop that reads no more, and a pass that waits for tags, are shut down; or they are asked
    to stop, and end by themselves. -/
theorem loops_quiesce_mid_pass :
    ∃ (w : World Unit) (events : List Event),
      Run (.idle (.fresh ⟨0, 60, 100⟩) 0) events (w.interleaving none) ∧
      w.schedulers[0]?.map (·.tagLoop) = some (.passing ⟨⟨0, 1, 0, 0⟩, "app", []⟩ 1000) ∧
      (∃ result, (w.shutdown slowTags).2 = .finished result) ∧
      ∃ turns σ, Run ((w.interleaving none).put 0 ⟨true, .lingering,
        .passing ⟨⟨0, 1, 0, 0⟩, "app", []⟩ 1000⟩) turns σ ∧ σ.now = w.now ∧
        σ.Stands 0 Scheduler.Over := by
  obtain ⟨events, run, _⟩ := World.exists_run slowTags 10 ⟨0, 60, 100⟩ () [.start, .pass 500]
  let w := [World.Command.start, .pass 500].foldl (World.execute slowTags 10)
    (World.fresh ⟨0, 60, 100⟩ ())
  let passing : TagLoop := .passing ⟨⟨0, 1, 0, 0⟩, "app", []⟩ 1000
  have present : (w.interleaving none).schedulers 0 = some ⟨false, .lingering, passing⟩ := rfl
  obtain ⟨_, _, _, shutdown⟩ := loops_quiesce run present
  obtain ⟨result, handed, _⟩ := shutdown slowTags w none rfl rfl rfl
  have asked : Run _ _ ((w.interleaving none).put 0 ⟨true, .lingering, passing⟩) :=
    run.step (.stop present)
  have stands : ((w.interleaving none).put 0 ⟨true, .lingering, passing⟩).schedulers 0 =
      some ⟨true, .lingering, passing⟩ := by simp [put]
  obtain ⟨_, stops, _⟩ := loops_quiesce asked stands
  obtain ⟨⟨turns, σ, ends, _, now, finished⟩, _⟩ := stops rfl
  exact ⟨w, events, run, rfl, ⟨result, handed⟩, turns, σ, ends, now, finished⟩

end Interleaving

end RegistryCache
