import RegistryCache.Sync.Operation
import RegistryCache.Sync.Scheduler

/-! # Running against a registry

A `World` is a cache with the loops that were started on it, a registry, and a clock.  The clock
stands still while something happens and jumps to the next instant at which something does.  One
operation at a time is run in the foreground (`perform`); loops move only while the foreground waits,
for a reply or for time to pass.  At one and the same instant the foreground comes first.

A registry may answer for ever with yet another page, so what runs is bounded by a number of events.
-/

namespace RegistryCache

/-- A registry with a state: how long a call takes, and what it is answered when it is. -/
structure Registry (σ : Type) where
  latency : σ → Call → Nat
  answer : σ → (call : Call) → call.Reply × σ × List Notice

/-- A cache, the loops on it, its registry and the clock. -/
structure World (σ : Type) where
  now : Instant
  registry : σ
  cache : MetadataCache
  /-- The loops that were started, in order. -/
  schedulers : List Scheduler
  /-- Whether somebody still holds the flag of the last of them. -/
  held : Bool
  /-- Whether the result of the last of them was already taken. -/
  awaited : Bool
  notices : Array Notice
  /-- The calls begun so far, and when. -/
  calls : Array (Instant × Call)

namespace World

/-- A cache that knows nothing, at the start of the clock. -/
def fresh (policy : RefreshPolicy) (registry : σ) : World σ :=
  ⟨0, registry, .fresh policy, [], false, false, #[], #[]⟩

/-- Takes over what happened in a step. -/
def record (w : World σ) (s : Step α) : World σ :=
  { w with
    cache := s.cache
    notices := w.notices ++ s.notices
    calls := w.calls ++ s.begun.map fun call => (w.now, call) }

/-- Has the registry answer a call. -/
def ask (reg : Registry σ) (w : World σ) (call : Call) : call.Reply × World σ :=
  let (reply, registry, notices) := reg.answer w.registry call
  (reply, { w with registry := registry, notices := w.notices ++ notices })

/-! ## Loops -/

/-- Lets the loops run as far as they get at this instant. -/
def settle (reg : Registry σ) (w : World σ) : World σ :=
  w.schedulers.foldl (fun w s =>
    let step := s.settle (reg.latency w.registry) w.cache w.now
    let w := w.record step
    { w with schedulers := w.schedulers ++ [step.next] }) { w with schedulers := [] }

/-- The first thing that any of the loops waits for: when, which loops, and what. -/
def nextEvent? (w : World σ) : Option (Instant × Nat × Scheduler × Scheduler.Event) :=
  (w.schedulers.zipIdx.filterMap fun (s, i) => s.nextEvent?.map fun (due, e) => (due, i, s, e)).foldl
    (fun best candidate => match best with
      | none => some candidate
      | some b => if candidate.1 < b.1 then some candidate else some b) none

/-- Lets one thing happen that a loop waited for, and everything that follows at that instant. -/
def happen (reg : Registry σ) (w : World σ) (i : Nat) (s : Scheduler) (e : Scheduler.Event) :
    World σ :=
  match e with
  | .wake => w.settle reg
  | .page walk =>
    let (reply, w) := w.ask reg walk.call
    let step := s.receivePage walk (reg.latency w.registry) w.cache w.now reply
    let w := w.record step
    { w with schedulers := w.schedulers.set i step.next }.settle reg
  | .tags pass =>
    let (reply, w) := w.ask reg pass.call
    let step := s.receiveTags pass (reg.latency w.registry) w.cache w.now reply
    let w := w.record step
    { w with schedulers := w.schedulers.set i step.next }.settle reg

/-- Lets time pass up to a deadline, or until `enough` holds, with at most so many events. -/
def advance (reg : Registry σ) (deadline : Instant) (enough : World σ → Bool) :
    Nat → World σ → World σ
  | 0, w => { w with now := max w.now deadline }
  | events + 1, w =>
    if enough w then w
    else match w.nextEvent? with
      | some (due, i, s, e) =>
        if due < deadline then
          advance reg deadline enough events ({ w with now := max w.now due }.happen reg i s e)
        else { w with now := max w.now deadline }
      | none => { w with now := max w.now deadline }

/-- Lets a length of time pass; none of it leaves the loops where they are. -/
def pass (reg : Registry σ) (events : Nat) (ms : Nat) (enough : World σ → Bool) (w : World σ) :
    World σ :=
  if ms = 0 then w else (w.settle reg).advance reg (w.now + ms) enough events

/-! ## Starting and stopping loops -/

/-- Changes the state of the loops that were started last. -/
def mapLast (f : Scheduler → Scheduler) (w : World σ) : World σ :=
  { w with schedulers := match w.schedulers.getLast? with
      | some s => w.schedulers.dropLast ++ [f s]
      | none => [] }

/-- Lets go of the loops that were started last: they will stop. -/
def release (w : World σ) : World σ :=
  if w.held then { w.mapLast Scheduler.stop with held := false } else w

/-- Starts loops on the cache.  They run when time is next let pass. -/
def start (w : World σ) : World σ :=
  let w := w.release
  { w with schedulers := w.schedulers ++ [.start], held := true, awaited := false }

/-- How the loops that were started last have ended, if they have. -/
def ended? (w : World σ) : Option (Except RegistryError Unit) :=
  w.schedulers.getLast?.bind fun s => s.catalogLoop.result?

/-- What somebody who waits for the loops learns. -/
inductive Waited where
  | nothing
  | running
  | finished (result : Except RegistryError Unit)

/-- Takes the result of loops that have ended; it is handed out once. -/
def takeResult (w : World σ) : World σ × Waited :=
  match w.ended? with
  | some result => ({ w with awaited := true }, .finished (if w.awaited then .ok () else result))
  | none => (w, .running)

/-- Waits for the loops, but no longer than so long. -/
def wait (reg : Registry σ) (events : Nat) (ms : Nat) (w : World σ) : World σ × Waited :=
  if !w.held then (w, .nothing)
  else if w.ended?.isSome then w.takeResult
  else (w.pass reg events ms fun w => w.ended?.isSome).takeResult

/-- Stops the loops and waits until they have ended. -/
def shutdown (reg : Registry σ) (w : World σ) : World σ × Waited :=
  if !w.held then (w, .nothing)
  else
    let (w, waited) := if w.ended?.isSome then w.takeResult
      else ((w.mapLast Scheduler.stop).settle reg).takeResult
    ({ w.mapLast Scheduler.stop with held := false }, waited)

/-! ## Operations -/

/-- Runs an activity to its end, with at most so many replies.  A stop request reaches a pass at
    `stopAt`, unless a reply comes first. -/
def follow (reg : Registry σ) (stopAt : Option Instant) :
    Nat → Progress Activity Outcome → World σ → World σ × Option Outcome
  | _, .done outcome, w => (w, some outcome)
  | 0, .waiting _, w => (w, none)
  | events + 1, .waiting activity, w =>
    let due := w.now + reg.latency w.registry activity.call
    match stopAt.filter (· < due) with
    | some stop =>
      let w := (w.settle reg).advance reg (max stop w.now) (fun _ => false) events
      let step := activity.cancel w.cache
      (w.record step, step.next)
    | none =>
      let w := w.pass reg events (due - w.now) fun _ => false
      let (reply, w) := w.ask reg activity.call
      let step := activity.receive w.cache w.now false reply
      follow reg stopAt events step.next (w.record step)

/-- Begins an operation and runs it to its end, unless that takes more than so many replies. -/
def perform (reg : Registry σ) (events : Nat) (operation : Operation) (stopAt : Option Instant)
    (w : World σ) : World σ × Option Outcome :=
  let step := operation.begin w.cache w.now
  follow reg stopAt events step.next (w.record step)

end World

end RegistryCache
