import Mathlib.Data.List.Induction
import Mathlib.Logic.Function.Basic
import RegistryCache.Sync.Operation
import RegistryCache.Sync.Scheduler

/-! # Interleavings

Any number of callers and of loops may be at work on one cache at the same time.  An `Interleaving`
is the cache with all of them.  A `Move` is what one of them does at one instant, from one registry
call to the next, and a `Run` is any order of moves.  Nothing is assumed of the registry: replies
arrive at any time, in any order, and say anything.  Callers give up whenever they like, and stop
requests come at any moment, so what holds of every run holds of every program over the cache.
-/

namespace RegistryCache

/-! ## Who is at work -/

/-- The two loops of a scheduler. -/
inductive Role where
  | catalog
  | tags
  deriving DecidableEq, Repr

/-- Somebody who is at work on the cache. -/
inductive Party where
  | caller (i : Nat)
  | loop (role : Role) (j : Nat)
  deriving DecidableEq, Repr

/-- What a party does at one instant. -/
inductive Action where
  | begins (operation : Operation)
  | hears (activity : Activity) (reply : activity.call.Reply)
  | quits (activity : Activity)
  /-- A loop runs as far as it gets without a reply. -/
  | runs
  /-- The catalog loop looks whether the tag loop has ended. -/
  | joins

namespace Action

/-- The catalog page that an action brings, with the cursor it was asked for. -/
def page? : Action → Option (Option String × CatalogPage)
  | hears (.catalogWalk walk) (.ok page) => some (walk.cursor, page)
  | _ => none

/-- The tags that an action brings, with the repository they are of. -/
def fetched? : Action → Option (String × List String)
  | hears (.tagFetch repository) (.ok tags) => some (repository, tags)
  | hears (.tagListing repository) (.ok tags) => some (repository, tags)
  | hears (.tagPass pass) (.ok tags) => some (pass.current, tags)
  | _ => none

/-- The repository and the tag whose deletion an action completes. -/
def deleted? : Action → Option (String × String)
  | hears (.removal repository tag _) (.ok _) => some (repository, tag)
  | _ => none

end Action

/-! ## One scheduler -/

namespace Scheduler

/-- What a loop waits in, if it waits for a reply. -/
def activity? (s : Scheduler) : Role → Option Activity
  | .catalog => match s.catalogLoop with
    | .walking walk _ => some (.catalogWalk walk)
    | _ => none
  | .tags => match s.tagLoop with
    | .passing pass _ => some (.tagPass pass)
    | _ => none

/-- What the loops of a scheduler may do next.  A loop that was asked to stop heeds that before any
    reply, so only a loop that may go on hears one. -/
inductive Turn (s : Scheduler) (cache : MetadataCache) (now : Instant) :
    Role → Action → Step Scheduler → Prop where
  | runCatalog (latency : Call → Nat) :
      Turn s cache now .catalog .runs (s.settleCatalog latency cache now)
  | join : Turn s cache now .catalog .joins (s.settleJoin cache)
  | runTags (latency : Call → Nat) : Turn s cache now .tags .runs (s.settleTags latency cache now)
  | page {walk : CatalogWalk} {due : Instant} (waiting : s.catalogLoop = .walking walk due)
      (going : s.stopped = false) (latency : Call → Nat)
      (reply : (Activity.catalogWalk walk).call.Reply) :
      Turn s cache now .catalog (.hears (.catalogWalk walk) reply)
        (s.receivePage walk latency cache now reply)
  | tags {pass : TagPass} {due : Instant} (waiting : s.tagLoop = .passing pass due)
      (going : s.stopped = false) (latency : Call → Nat)
      (reply : (Activity.tagPass pass).call.Reply) :
      Turn s cache now .tags (.hears (.tagPass pass) reply)
        (s.receiveTags pass latency cache now reply)

end Scheduler

/-! ## All of them -/

/-- What happens at one instant. -/
inductive Event where
  | elapse (ms : Nat)
  | start (j : Nat)
  /-- Loops are asked to stop, or let go of. -/
  | stop (j : Nat)
  /-- A party does something, begins calls by it, and may come to an end with it. -/
  | act (party : Party) (action : Action) (begun : List Call) (outcome : Option Outcome)

namespace Event

def party? : Event → Option Party
  | act party _ _ _ => some party
  | _ => none

def action? : Event → Option Action
  | act _ action _ _ => some action
  | _ => none

def begun : Event → List Call
  | act _ _ begun _ => begun
  | _ => []

def outcome? : Event → Option Outcome
  | act _ _ _ outcome => outcome
  | _ => none

end Event

/-- A cache with everybody who is at work on it. -/
structure Interleaving where
  now : Instant
  cache : MetadataCache
  callers : Nat → Option Activity
  schedulers : Nat → Option Scheduler

def Progress.activity? : Progress α β → Option α
  | .waiting a => some a
  | .done _ => none

def Progress.outcome? : Progress α β → Option β
  | .waiting _ => none
  | .done b => some b

namespace Interleaving

def idle (cache : MetadataCache) (now : Instant) : Interleaving :=
  ⟨now, cache, fun _ => none, fun _ => none⟩

def activity? (σ : Interleaving) : Party → Option Activity
  | .caller i => σ.callers i
  | .loop role j => (σ.schedulers j).bind (·.activity? role)

/-- A step of a caller's operation is taken. -/
def serve (σ : Interleaving) (i : Nat) (step : Step (Progress Activity Outcome)) : Interleaving :=
  { σ with
    cache := step.cache
    callers := Function.update σ.callers i step.next.activity? }

def dismiss (σ : Interleaving) (i : Nat) (step : Step (Option Outcome)) : Interleaving :=
  { σ with
    cache := step.cache
    callers := Function.update σ.callers i none }

def put (σ : Interleaving) (j : Nat) (s : Scheduler) : Interleaving :=
  { σ with schedulers := Function.update σ.schedulers j (some s) }

def advance (σ : Interleaving) (j : Nat) (step : Step Scheduler) : Interleaving :=
  { σ.put j step.next with cache := step.cache }

/-- What may happen next. -/
inductive Move : Interleaving → Event → Interleaving → Prop where
  | elapse (σ : Interleaving) (ms : Nat) : Move σ (.elapse ms) { σ with now := σ.now + ms }
  | start {σ : Interleaving} {j : Nat} (free : σ.schedulers j = none) :
      Move σ (.start j) (σ.put j .start)
  | stop {σ : Interleaving} {j : Nat} {s : Scheduler} (present : σ.schedulers j = some s) :
      Move σ (.stop j) (σ.put j s.stop)
  | begin {σ : Interleaving} {i : Nat} (free : σ.callers i = none) (operation : Operation) :
      Move σ
        (.act (.caller i) (.begins operation) (operation.begin σ.cache σ.now).begun
          (operation.begin σ.cache σ.now).next.outcome?)
        (σ.serve i (operation.begin σ.cache σ.now))
  | hear {σ : Interleaving} {i : Nat} {activity : Activity} (waiting : σ.callers i = some activity)
      (stopped : Bool) (reply : activity.call.Reply) :
      Move σ
        (.act (.caller i) (.hears activity reply)
          (activity.receive σ.cache σ.now stopped reply).begun
          (activity.receive σ.cache σ.now stopped reply).next.outcome?)
        (σ.serve i (activity.receive σ.cache σ.now stopped reply))
  | quit {σ : Interleaving} {i : Nat} {activity : Activity}
      (waiting : σ.callers i = some activity) :
      Move σ
        (.act (.caller i) (.quits activity) (activity.cancel σ.cache).begun
          (activity.cancel σ.cache).next)
        (σ.dismiss i (activity.cancel σ.cache))
  | loop {σ : Interleaving} {j : Nat} {s : Scheduler} {role : Role} {action : Action}
      {step : Step Scheduler} (present : σ.schedulers j = some s)
      (turn : s.Turn σ.cache σ.now role action step) :
      Move σ (.act (.loop role j) action step.begun none) (σ.advance j step)

/-- Any number of moves, one after the other. -/
inductive Run (σ : Interleaving) : List Event → Interleaving → Prop where
  | refl : Run σ [] σ
  | step {events : List Event} {e : Event} {σ₁ σ₂ : Interleaving} (run : Run σ events σ₁)
      (move : Move σ₁ e σ₂) : Run σ (events ++ [e]) σ₂

namespace Run

variable {σ σ₁ σ₂ : Interleaving} {events later : List Event} {e : Event}

theorem single (move : Move σ e σ₁) : Run σ [e] σ₁ := by
  have run : Run σ ([] ++ [e]) σ₁ := .step .refl move
  exact run

theorem trans (first : Run σ events σ₁) (second : Run σ₁ later σ₂) : Run σ (events ++ later) σ₂ := by
  induction second with
  | refl => simpa using first
  | step _ move inductionHypothesis =>
    rw [← List.append_assoc]
    exact .step inductionHypothesis move

theorem last (run : Run σ (events ++ [e]) σ₂) : ∃ σ₁, Run σ events σ₁ ∧ Move σ₁ e σ₂ := by
  generalize whole : events ++ [e] = all at run
  cases run with
  | refl => simp at whole
  | step run move =>
    obtain ⟨rfl, rfl⟩ := List.append_singleton_inj.mp whole
    exact ⟨_, run, move⟩

theorem split (run : Run σ (events ++ later) σ₂) :
    ∃ σ₁, Run σ events σ₁ ∧ Run σ₁ later σ₂ := by
  induction later using List.reverseRecOn generalizing σ₂ with
  | nil => exact ⟨σ₂, by simpa using run, .refl⟩
  | append_singleton later e inductionHypothesis =>
    rw [← List.append_assoc] at run
    -- the last event is cut off, and put back behind the cut
    obtain ⟨ρ, run, move⟩ := run.last
    obtain ⟨σ₁, first, second⟩ := inductionHypothesis run
    exact ⟨σ₁, first, .step second move⟩

/-- What holds at the beginning and is kept by every move holds at the end. -/
theorem keeps {P : Interleaving → Prop} (run : Run σ events σ₁) (base : P σ)
    (kept : ∀ {ρ e ρ'}, Move ρ e ρ' → P ρ → P ρ') : P σ₁ := by
  induction run with
  | refl => exact base
  | step _ move inductionHypothesis => exact kept move inductionHypothesis

/-- What one event brings about and no move undoes holds after every run with such an event. -/
theorem brings {P : Interleaving → Prop} {Q : Event → Prop} (run : Run σ events σ₁)
    (happens : ∃ e ∈ events, Q e)
    (caused : ∀ {before ρ e ρ'}, Run σ before ρ → Move ρ e ρ' → Q e → P ρ')
    (kept : ∀ {before ρ e ρ'}, Run σ before ρ → Move ρ e ρ' → P ρ → P ρ') : P σ₁ := by
  induction run with
  | refl =>
    obtain ⟨e, member, _⟩ := happens
    cases member
  | step run move inductionHypothesis =>
    obtain ⟨e, member, cause⟩ := happens
    -- the event lies before the last move, or is the last move
    rcases List.mem_append.mp member with earlier | latest
    · exact kept run move (inductionHypothesis ⟨e, earlier, cause⟩)
    · cases List.mem_singleton.mp latest
      exact caused run move cause

end Run

end Interleaving

end RegistryCache
