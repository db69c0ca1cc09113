import RegistryCache.Proofs.Interleaving.Stopping
import RegistryCache.Sync.World

/-! # Worlds as interleavings

A `World` is what runs.  Its loops move only while its foreground waits, and in a fixed order.  All
that is done with a world is nevertheless a run of the interleaving of its foreground with its loops,
and the calls on its record are those that the events of the run began.  So what holds of every run
holds of every world.  The main statement is `World.exists_run`.
-/

namespace RegistryCache

/-- Whoever waits for something stands where that is waited for, and is not over. -/
theorem Scheduler.nextEvent?_spec {s : Scheduler} {due : Instant} {e : Event}
    (next : s.nextEvent? = some (due, e)) :
    ¬ s.Over ∧ (∀ walk, e = .page walk → s.catalogLoop = .walking walk due) ∧
      (∀ pass, e = .tags pass → s.tagLoop = .passing pass due) := by
  have either : s.catalogEvent? = some (due, e) ∨ s.tagEvent? = some (due, e) := by
    unfold nextEvent? at next
    split at next
    · rename_i catalog tags
      split at next
      · exact .inl (catalog.trans next)
      · exact .inr (tags.trans next)
    · rename_i catalog tags
      exact .inl (catalog.trans next)
    · exact .inr next
  obtain catalog | tags := either
  · unfold catalogEvent? at catalog
    split at catalog <;> cases catalog <;> simp_all [Over, CatalogLoop.Over]
  · unfold tagEvent? at tags
    split at tags <;> cases tags <;> simp_all [Over, TagLoop.Over]

namespace World

variable {ρ : Type} (reg : Registry ρ) {w w' w'' : World ρ} {a b c : Option Activity}

/-- The foreground of a world, waiting in `foreground`, among its loops. -/
def interleaving (w : World ρ) (foreground : Option Activity) : Interleaving where
  now := w.now
  cache := w.cache
  callers := Function.update (fun _ => none) 0 foreground
  schedulers := fun j => w.schedulers[j]?

def begun (w : World ρ) : List Call := w.calls.toList.map Prod.snd

/-- One world becomes another, while its foreground goes from one activity to another: by a run whose
    events begin the calls that are put on record. -/
def Becomes (w : World ρ) (a : Option Activity) (w' : World ρ) (b : Option Activity) : Prop :=
  ∃ events, Interleaving.Run (w.interleaving a) events (w'.interleaving b) ∧
    w'.begun = w.begun ++ events.flatMap Event.begun

namespace Becomes

theorem of_eq (same : w'.interleaving b = w.interleaving a) (calls : w'.begun = w.begun) :
    w.Becomes a w' b :=
  ⟨[], same ▸ .refl, by simpa using calls⟩

theorem of_move {e : Event} (move : Interleaving.Move (w.interleaving a) e (w'.interleaving b))
    (calls : w'.begun = w.begun ++ e.begun) : w.Becomes a w' b :=
  ⟨[e], .single move, by simpa using calls⟩

theorem refl : w.Becomes a w a := of_eq rfl rfl

theorem trans (first : w.Becomes a w' b) (second : w'.Becomes b w'' c) : w.Becomes a w'' c := by
  obtain ⟨earlier, run, calls⟩ := first
  obtain ⟨later, run', calls'⟩ := second
  exact ⟨earlier ++ later, run.trans run', by
    rw [calls', calls, List.flatMap_append, List.append_assoc]⟩

theorem ordered (becomes : w.Becomes a w' b) (before : (w.interleaving a).Ordered) :
    (w'.interleaving b).Ordered := by
  obtain ⟨_, run, _⟩ := becomes
  exact run.keeps before Interleaving.Move.ordered

end Becomes

/-! ## Turns -/

@[simp] theorem begun_record (w : World ρ) (step : Step α) :
    (w.record step).begun = w.begun ++ step.begun := by
  simp [begun, record, Function.comp_def]

theorem record_andThen (w : World ρ) (step : Step α) (f : MetadataCache → α → Step β) :
    w.record (step.andThen f) = (w.record step).record (f step.cache step.next) := by
  have joined {γ : Type} (xs : Array γ) (earlier later : List γ) :
      xs ++ (earlier ++ later) = xs ++ earlier ++ later := Array.ext' (by simp)
  simp [record, Step.andThen, joined]

/-- A turn of loops is recorded, and they stand where it leads. -/
def take (w : World ρ) (j : Nat) (step : Step Scheduler) : World ρ :=
  { w.record step with schedulers := w.schedulers.set j step.next }

theorem take_andThen (w : World ρ) (j : Nat) (step : Step Scheduler)
    (f : MetadataCache → Scheduler → Step Scheduler) :
    w.take j (step.andThen f) = (w.take j step).take j (f step.cache step.next) := by
  simp only [take, record_andThen, Step.next_andThen, List.set_set]
  rfl

theorem getElem?_set_eq_update (schedulers : List Scheduler) {j : Nat}
    (inside : j < schedulers.length) (s : Scheduler) :
    (fun k => (schedulers.set j s)[k]?) = Function.update (schedulers[·]?) j (some s) := by
  funext k
  by_cases same : k = j
  · subst same
    simp [inside]
  · have other : ¬ j = k := fun equal => same equal.symm
    simp [Function.update_of_ne same, other]

theorem getElem?_append_eq_update (schedulers : List Scheduler) (s : Scheduler) :
    (fun k => (schedulers ++ [s])[k]?) =
      Function.update (schedulers[·]?) schedulers.length (some s) := by
  funext k
  by_cases same : k = schedulers.length
  · subst same
    simp
  · rw [Function.update_of_ne same]
    by_cases before : k < schedulers.length
    · exact List.getElem?_append_left before
    · have beyond : (schedulers ++ [s]).length ≤ k := by
        rw [List.length_append, List.length_singleton]
        omega
      rw [List.getElem?_eq_none beyond, List.getElem?_eq_none (by omega)]

theorem interleaving_take {j : Nat} (inside : j < w.schedulers.length) (step : Step Scheduler) :
    (w.take j step).interleaving a = (w.interleaving a).advance j step := by
  simp only [interleaving, take, getElem?_set_eq_update _ inside]
  rfl

theorem becomes_turn {j : Nat} {s : Scheduler} {role : Role} {action : Action}
    {step : Step Scheduler} (present : w.schedulers[j]? = some s)
    (turn : s.Turn w.cache w.now role action step) : w.Becomes a (w.take j step) a := by
  obtain ⟨inside, _⟩ := List.getElem?_eq_some_iff.mp present
  have move : Interleaving.Move (w.interleaving a) (.act (.loop role j) action step.begun none)
      ((w.take j step).interleaving a) := by
    rw [interleaving_take inside]
    exact .loop present turn
  exact .of_move move (begun_record w step)

/-- What loops do by themselves at one instant is three turns. -/
theorem becomes_settle_one {j : Nat} {s : Scheduler} (present : w.schedulers[j]? = some s)
    (latency : Call → Nat) : w.Becomes a (w.take j (s.settle latency w.cache w.now)) a := by
  obtain ⟨inside, _⟩ := List.getElem?_eq_some_iff.mp present
  rw [Scheduler.settle, take_andThen, take_andThen]
  have read : w.Becomes a (w.take j (s.settleCatalog latency w.cache w.now)) a :=
    becomes_turn present (.runCatalog latency)
  refine read.trans ?_
  have passed := becomes_turn (a := a) (w := w.take j (s.settleCatalog latency w.cache w.now))
    (j := j) (List.getElem?_set_self inside) (.runTags latency)
  refine passed.trans (becomes_turn (j := j) (List.getElem?_set_self ?_) .join)
  simpa [take] using inside

/-! ## Settling -/

/-- Loops that were asked to stop have ended. -/
def Settled (w : World ρ) : Prop := ∀ s ∈ w.schedulers, s.stopped = true → s.Over

/-- One more scheduler settles, after those before it. -/
def settleNext (reg : Registry ρ) (w : World ρ) (s : Scheduler) : World ρ :=
  let step := s.settle (reg.latency w.registry) w.cache w.now
  { w.record step with schedulers := w.schedulers ++ [step.next] }

/-- A world with further schedulers, which have yet to settle. -/
def followedBy (w : World ρ) (rest : List Scheduler) : World ρ :=
  { w with schedulers := w.schedulers ++ rest }

theorem becomes_settleNext (s : Scheduler) (rest : List Scheduler) :
    (w.followedBy (s :: rest)).Becomes a ((w.settleNext reg s).followedBy rest) a := by
  have settled := becomes_settle_one (a := a) (w := w.followedBy (s :: rest))
    (j := w.schedulers.length) (s := s) (by simp [followedBy]) (reg.latency w.registry)
  have same : (w.followedBy (s :: rest)).take w.schedulers.length
      (s.settle (reg.latency w.registry) w.cache w.now) =
        (w.settleNext reg s).followedBy rest := by
    simp [take, followedBy, settleNext, record]
  exact same ▸ settled

theorem settled_settleNext {s : Scheduler} {rest : List Scheduler} (settled : w.Settled)
    (ordered : ((w.followedBy (s :: rest)).interleaving a).Ordered) :
    (w.settleNext reg s).Settled := by
  intro t member asked
  have sorted : s.Ordered w.cache :=
    ordered w.schedulers.length s (by simp [interleaving, followedBy])
  rcases List.mem_append.mp member with earlier | latest
  · exact settled t earlier asked
  · cases List.mem_singleton.mp latest
    rw [Scheduler.settle_stopped] at asked
    exact Scheduler.over_settle _ _ _ sorted asked

theorem settle_rest (rest : List Scheduler) (settled : w.Settled)
    (ordered : ((w.followedBy rest).interleaving a).Ordered) :
    (w.followedBy rest).Becomes a (rest.foldl (settleNext reg) w) a ∧
      (rest.foldl (settleNext reg) w).Settled := by
  induction rest generalizing w with
  | nil =>
    refine ⟨?_, settled⟩
    simpa [followedBy] using Becomes.refl (w := w)
  | cons s rest inductionHypothesis =>
    have first := becomes_settleNext reg (w := w) (a := a) s rest
    obtain ⟨later, finished⟩ := inductionHypothesis (settled_settleNext reg settled ordered)
      (first.ordered ordered)
    exact ⟨first.trans later, finished⟩

/-- Settling is a run, and after it the loops that were asked to stop have ended. -/
theorem becomes_settle (ordered : (w.interleaving a).Ordered) :
    w.Becomes a (w.settle reg) a ∧ (w.settle reg).Settled :=
  settle_rest reg (w := { w with schedulers := [] }) w.schedulers
    (by intro s member; cases member) ordered

/-- Settling takes no time, and no loops come or go by it. -/
theorem settle_frame (reg : Registry ρ) (w : World ρ) :
    (w.settle reg).now = w.now ∧ (w.settle reg).schedulers.length = w.schedulers.length := by
  have rest (schedulers : List Scheduler) (w : World ρ) :
      (schedulers.foldl (settleNext reg) w).now = w.now ∧
        (schedulers.foldl (settleNext reg) w).schedulers.length =
          w.schedulers.length + schedulers.length := by
    induction schedulers generalizing w with
    | nil => exact ⟨rfl, rfl⟩
    | cons s later inductionHypothesis =>
      obtain ⟨now, length⟩ := inductionHypothesis (w.settleNext reg s)
      refine ⟨now, length.trans ?_⟩
      simp [settleNext]
      omega
  obtain ⟨now, length⟩ := rest w.schedulers { w with schedulers := [] }
  exact ⟨now, length.trans (Nat.zero_add _)⟩

/-! ## What happens as time passes -/

theorem becomes_elapse {later : Instant} (after : w.now ≤ later) :
    w.Becomes a { w with now := later } a := by
  have move : Interleaving.Move (w.interleaving a) (.elapse (later - w.now))
      (({ w with now := later } : World ρ).interleaving a) := by
    have reached : w.now + (later - w.now) = later := Nat.add_sub_cancel' after
    have elapsed := Interleaving.Move.elapse (w.interleaving a) (later - w.now)
    simpa [interleaving, reached] using elapsed
  exact .of_move move (List.append_nil _).symm

theorem becomes_ask (call : Call) : w.Becomes a (w.ask reg call).2 a := .of_eq rfl rfl

/-- Choosing the earliest of some candidates is choosing one of them. -/
theorem mem_of_foldl_earliest {chosen : Instant × Nat × Scheduler × Scheduler.Event}
    (candidates : List (Instant × Nat × Scheduler × Scheduler.Event))
    (best : Option (Instant × Nat × Scheduler × Scheduler.Event))
    (found : candidates.foldl (fun best candidate => match best with
      | none => some candidate
      | some b => if candidate.1 < b.1 then some candidate else some b) best = some chosen) :
    chosen ∈ candidates ∨ best = some chosen := by
  induction candidates generalizing best with
  | nil => exact .inr found
  | cons candidate rest inductionHypothesis =>
    obtain member | last := inductionHypothesis _ found
    · exact .inl (List.mem_cons_of_mem _ member)
    · cases best with
      | none =>
        cases last
        exact .inl List.mem_cons_self
      | some b =>
        dsimp only at last
        split at last
        · cases last
          exact .inl List.mem_cons_self
        · exact .inr last

/-- What happens next is something that one of the loops waits for. -/
theorem nextEvent?_spec {due : Instant} {i : Nat} {s : Scheduler} {e : Scheduler.Event}
    (next : w.nextEvent? = some (due, i, s, e)) :
    w.schedulers[i]? = some s ∧ s.nextEvent? = some (due, e) := by
  obtain member | impossible := mem_of_foldl_earliest _ none next
  · obtain ⟨⟨t, k⟩, member, event⟩ := List.mem_filterMap.mp member
    obtain ⟨⟨time, event'⟩, waits, equal⟩ := Option.map_eq_some_iff.mp event
    cases equal
    exact ⟨List.mk_mem_zipIdx_iff_getElem?.mp member, waits⟩
  · cases impossible

theorem becomes_happen {due : Instant} {i : Nat} {s : Scheduler} {e : Scheduler.Event}
    (ordered : (w.interleaving a).Ordered) (settled : w.Settled)
    (present : w.schedulers[i]? = some s) (next : s.nextEvent? = some (due, e)) :
    w.Becomes a (w.happen reg i s e) a ∧ (w.happen reg i s e).Settled := by
  obtain ⟨open', walks, passes⟩ := s.nextEvent?_spec next
  -- stopped loops have ended and wait for nothing
  have going : s.stopped = false := by
    rw [Bool.eq_false_iff]
    intro asked
    exact open' (settled s (List.mem_of_getElem? present) asked)
  cases e with
  | wake => exact becomes_settle reg ordered
  | page walk =>
    have heard := (becomes_ask reg walk.call).trans
      (becomes_turn (w := (w.ask reg walk.call).2) (a := a) present
        (.page (walks walk rfl) going (reg.latency (w.ask reg walk.call).2.registry)
          (w.ask reg walk.call).1))
    obtain ⟨later, finished⟩ := becomes_settle reg (heard.ordered ordered)
    exact ⟨heard.trans later, finished⟩
  | tags pass =>
    have heard := (becomes_ask reg pass.call).trans
      (becomes_turn (w := (w.ask reg pass.call).2) (a := a) present
        (.tags (passes pass rfl) going (reg.latency (w.ask reg pass.call).2.registry)
          (w.ask reg pass.call).1))
    obtain ⟨later, finished⟩ := becomes_settle reg (heard.ordered ordered)
    exact ⟨heard.trans later, finished⟩

theorem becomes_advance {deadline : Instant} {enough : World ρ → Bool} {events : Nat}
    (ordered : (w.interleaving a).Ordered) (settled : w.Settled) :
    w.Becomes a (w.advance reg deadline enough events) a := by
  induction events generalizing w with
  | zero => exact becomes_elapse (Nat.le_max_left _ _)
  | succ events inductionHypothesis =>
    unfold advance
    split
    · exact .refl
    · split
      · rename_i due i s e next
        split
        · -- the clock jumps to the event, it happens, and the rest follows from there
          obtain ⟨present, waits⟩ := nextEvent?_spec next
          have elapsed : w.Becomes a { w with now := max w.now due } a :=
            becomes_elapse (Nat.le_max_left _ _)
          obtain ⟨happened, settled'⟩ := becomes_happen reg
            (w := { w with now := max w.now due }) (elapsed.ordered ordered) settled present waits
          have before := elapsed.trans happened
          exact before.trans (inductionHypothesis (before.ordered ordered) settled')
        · exact becomes_elapse (Nat.le_max_left _ _)
      · exact becomes_elapse (Nat.le_max_left _ _)

theorem becomes_settle_advance {deadline : Instant} {enough : World ρ → Bool} {events : Nat}
    (ordered : (w.interleaving a).Ordered) :
    w.Becomes a ((w.settle reg).advance reg deadline enough events) a := by
  obtain ⟨first, settled⟩ := becomes_settle reg ordered
  exact first.trans (becomes_advance reg (first.ordered ordered) settled)

theorem becomes_pass {events ms : Nat} {enough : World ρ → Bool}
    (ordered : (w.interleaving a).Ordered) : w.Becomes a (w.pass reg events ms enough) a := by
  unfold pass
  split
  · exact .refl
  · exact becomes_settle_advance reg ordered

/-! ## Starting and stopping -/

theorem becomes_stop : w.Becomes a (w.mapLast Scheduler.stop) a := by
  unfold mapLast
  cases last : w.schedulers.getLast? with
  | none =>
    rw [List.getLast?_eq_none_iff] at last
    exact .of_eq (by simp [interleaving, last]) rfl
  | some s =>
    obtain ⟨before, equal⟩ := List.getLast?_eq_some_iff.mp last
    have present : (w.interleaving a).schedulers before.length = some s := by
      simp [interleaving, equal]
    have inside : before.length < w.schedulers.length := by simp [equal]
    have replaced : w.schedulers.dropLast ++ [s.stop] = w.schedulers.set before.length s.stop := by
      simp [equal]
    have move := Interleaving.Move.stop present
    refine .of_move (e := .stop before.length) ?_ (List.append_nil _).symm
    simp only [interleaving, replaced, getElem?_set_eq_update _ inside]
    exact move

theorem becomes_release : w.Becomes a w.release a := by
  unfold release
  split
  · exact becomes_stop.trans (.of_eq rfl rfl)
  · exact .refl

theorem becomes_start : w.Becomes a w.start a := by
  have started (w : World ρ) : w.Becomes a
      { w with schedulers := w.schedulers ++ [.start], held := true, awaited := false } a := by
    have free : (w.interleaving a).schedulers w.schedulers.length = none := by
      simp [interleaving]
    have move := Interleaving.Move.start free
    refine .of_move (e := .start w.schedulers.length) ?_ (List.append_nil _).symm
    simp only [interleaving, getElem?_append_eq_update]
    exact move
  exact becomes_release.trans (started w.release)

theorem becomes_takeResult : w.Becomes a w.takeResult.1 a := by
  unfold takeResult
  split <;> exact .of_eq rfl rfl

theorem becomes_wait {events ms : Nat} (ordered : (w.interleaving a).Ordered) :
    w.Becomes a (w.wait reg events ms).1 a := by
  unfold wait
  split
  · exact .refl
  · split
    · exact becomes_takeResult
    · exact (becomes_pass reg ordered).trans becomes_takeResult

theorem becomes_shutdown (ordered : (w.interleaving a).Ordered) :
    w.Becomes a (w.shutdown reg).1 a := by
  have released (w : World ρ) : w.Becomes a { w.mapLast Scheduler.stop with held := false } a :=
    becomes_stop.trans (.of_eq rfl rfl)
  unfold shutdown
  split
  · exact .refl
  · by_cases ended : w.ended?.isSome
    · rw [if_pos ended]
      exact becomes_takeResult.trans (released _)
    · rw [if_neg ended]
      have asked := becomes_stop (w := w) (a := a)
      obtain ⟨settled, _⟩ := becomes_settle reg (asked.ordered ordered)
      exact ((asked.trans settled).trans becomes_takeResult).trans (released _)

/-! ## The foreground -/

theorem becomes_quit (activity : Activity) :
    w.Becomes (some activity) (w.record (activity.cancel w.cache)) none := by
  have waiting : (w.interleaving (some activity)).callers 0 = some activity := by
    simp [interleaving]
  have left : (w.record (activity.cancel w.cache)).interleaving none =
      (w.interleaving (some activity)).dismiss 0 (activity.cancel w.cache) := by
    simp [interleaving, Interleaving.dismiss, record]
  have move := Interleaving.Move.quit waiting
  exact .of_move (left ▸ move) (begun_record w _)

theorem becomes_hear {activity : Activity} (reply : activity.call.Reply) :
    w.Becomes (some activity) (w.record (activity.receive w.cache w.now false reply))
      (activity.receive w.cache w.now false reply).next.activity? := by
  have waiting : (w.interleaving (some activity)).callers 0 = some activity := by
    simp [interleaving]
  have served : (w.record (activity.receive w.cache w.now false reply)).interleaving
      (activity.receive w.cache w.now false reply).next.activity? =
        (w.interleaving (some activity)).serve 0 (activity.receive w.cache w.now false reply) := by
    simp [interleaving, Interleaving.serve, record]
  have move := Interleaving.Move.hear waiting false reply
  exact .of_move (served ▸ move) (begun_record w _)

theorem becomes_begin (operation : Operation) :
    w.Becomes none (w.record (operation.begin w.cache w.now))
      (operation.begin w.cache w.now).next.activity? := by
  have free : (w.interleaving none).callers 0 = none := by
    simp [interleaving]
  have served : (w.record (operation.begin w.cache w.now)).interleaving
      (operation.begin w.cache w.now).next.activity? =
        (w.interleaving none).serve 0 (operation.begin w.cache w.now) := by
    simp [interleaving, Interleaving.serve, record]
  have move := Interleaving.Move.begin free operation
  exact .of_move (served ▸ move) (begun_record w _)

/-- A foreground that is left waiting is as good as given up. -/
theorem becomes_abandon (activity : Activity) : w.Becomes (some activity) w none := by
  refine (becomes_quit activity).trans (.of_eq ?_ ?_)
  · simp [interleaving, record, activity.cache_cancel]
  · cases activity <;> simp [Activity.cancel, TagPass.cancel, PassTally.cancel]

theorem becomes_follow {stopAt : Option Instant} {events : Nat}
    {going : Progress Activity Outcome} (ordered : (w.interleaving going.activity?).Ordered) :
    w.Becomes going.activity? (follow reg stopAt events going w).1 none := by
  induction events generalizing w going with
  | zero =>
    cases going with
    | done outcome => exact .refl
    | waiting activity => exact becomes_abandon activity
  | succ events inductionHypothesis =>
    cases going with
    | done outcome => exact .refl
    | waiting activity =>
      unfold follow
      dsimp only
      split
      · -- the stop request comes before the reply
        exact (becomes_settle_advance reg ordered).trans (becomes_quit activity)
      · let due := w.now + reg.latency w.registry activity.call
        let waited := w.pass reg events (due - w.now) fun _ => false
        have passed : w.Becomes (some activity) waited (some activity) := becomes_pass reg ordered
        have asked := passed.trans (becomes_ask reg activity.call)
        have heard := asked.trans (becomes_hear (waited.ask reg activity.call).1)
        exact heard.trans (inductionHypothesis (heard.ordered ordered))

theorem becomes_perform {events : Nat} {operation : Operation} {stopAt : Option Instant}
    (ordered : (w.interleaving none).Ordered) :
    w.Becomes none (w.perform reg events operation stopAt).1 none := by
  have begun := becomes_begin (w := w) operation
  exact begun.trans (becomes_follow reg (begun.ordered ordered))

/-! ## Whole programs -/

inductive Command where
  | perform (operation : Operation) (stopAt : Option Instant)
  | pass (ms : Nat)
  | start
  | wait (ms : Nat)
  | release
  | shutdown

/-- Does it, with at most so many events. -/
def execute (reg : Registry ρ) (events : Nat) (w : World ρ) : Command → World ρ
  | .perform operation stopAt => (w.perform reg events operation stopAt).1
  | .pass ms => w.pass reg events ms fun _ => false
  | .start => w.start
  | .wait ms => (w.wait reg events ms).1
  | .release => w.release
  | .shutdown => (w.shutdown reg).1

theorem becomes_execute {events : Nat} {command : Command}
    (ordered : (w.interleaving none).Ordered) :
    w.Becomes none (w.execute reg events command) none := by
  cases command with
  | perform operation stopAt => exact becomes_perform reg ordered
  | pass ms => exact becomes_pass reg ordered
  | start => exact becomes_start
  | wait ms => exact becomes_wait reg ordered
  | release => exact becomes_release
  | shutdown => exact becomes_shutdown reg ordered

/-- Whatever a program does with a cache that knew nothing is a run of the interleaving, and the calls
    on record are those that the events of the run began. -/
theorem exists_run (reg : Registry ρ) (bound : Nat) (policy : RefreshPolicy) (registry : ρ)
    (commands : List Command) :
    ∃ events, Interleaving.Run (.idle (.fresh policy) 0) events
        ((commands.foldl (execute reg bound) (fresh policy registry)).interleaving none) ∧
      (commands.foldl (execute reg bound) (fresh policy registry)).begun =
        events.flatMap Event.begun := by
  have start : (fresh policy registry).interleaving none = .idle (.fresh policy) 0 := by
    simp [interleaving, fresh, Interleaving.idle]
  have all (w : World ρ) (ordered : (w.interleaving none).Ordered) :
      w.Becomes none (commands.foldl (execute reg bound) w) none := by
    induction commands generalizing w with
    | nil => exact .refl
    | cons command later inductionHypothesis =>
      have first : w.Becomes none (w.execute reg bound command) none :=
        becomes_execute reg ordered
      exact first.trans (inductionHypothesis _ (first.ordered ordered))
  obtain ⟨events, run, calls⟩ := all (fresh policy registry) (start ▸ Interleaving.Run.refl.ordered)
  rw [start] at run
  exact ⟨events, run, calls⟩

end World

end RegistryCache
