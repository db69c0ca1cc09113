import Mathlib.Data.List.Pairwise
import RegistryCache.Sync.StopSignal

/-! # Stop signals

A stop signal is read in two ways.  Whether to stop is asked of the value of a channel and of whether its
holder is still there, at once (`WatchPackage.isShutdown`); a pause waits for the same in polls, and races
the wait against a timer (`WatchPackage.sleep`).  The package that provides the channels is a parameter,
and all that is used of it is what it documents (`WatchPackage.AsDocumented`).  The main statement is
`WatchPackage.readings_agree`.
-/

namespace RegistryCache

open StopSignal (Change)

/-! ## Channels -/

/-- A channel as its holder has left it. -/
structure Watch where
  value : Bool
  held : Bool
  /-- How many values were sent over it. -/
  sent : Nat

namespace Watch

/-- The flag that is made of a channel. -/
def flag (w : Watch) : StopSignal := .watched w.value w.held

def apply (w : Watch) : Change → Watch
  | .send value => if w.held then { w with value := value, sent := w.sent + 1 } else w
  | .drop => { w with held := false }

def after (w : Watch) (changes : List Change) : Watch := changes.foldl apply w

theorem flag_apply (w : Watch) (change : Change) : (w.apply change).flag = w.flag.apply change := by
  obtain ⟨value, held, sent⟩ := w
  cases change <;> cases held <;> rfl

theorem flag_after (w : Watch) (changes : List Change) :
    (w.after changes).flag = changes.foldl StopSignal.apply w.flag := by
  induction changes generalizing w with
  | nil => rfl
  | cons change later inductionHypothesis =>
    rw [List.foldl_cons, ← flag_apply]
    exact inductionHypothesis (w.apply change)

theorem isStopped_flag (w : Watch) : w.flag.isStopped = false ↔ w.value = false ∧ w.held = true := by
  simp [flag, StopSignal.isStopped]

theorem sent_apply (w : Watch) (change : Change) :
    w.sent ≤ (w.apply change).sent ∧
      ((w.apply change).value ≠ w.value → w.sent < (w.apply change).sent) := by
  cases change with
  | send value =>
    rw [apply]
    split <;> simp
  | drop => simp [apply]

/-- The value changes only if one is sent. -/
theorem sent_after (w : Watch) (changes : List Change) :
    w.sent ≤ (w.after changes).sent ∧
      ((w.after changes).value ≠ w.value → w.sent < (w.after changes).sent) := by
  induction changes generalizing w with
  | nil => exact ⟨Nat.le_refl _, absurd rfl⟩
  | cons change later inductionHypothesis =>
    obtain ⟨first, changed⟩ := w.sent_apply change
    obtain ⟨rest, changes⟩ := inductionHypothesis (w.apply change)
    refine ⟨Nat.le_trans first rest, fun differs => ?_⟩
    by_cases same : (w.apply change).value = w.value
    · exact Nat.lt_of_le_of_lt first (changes (same ▸ differs))
    · exact Nat.lt_of_lt_of_le (changed same) rest

end Watch

/-! ## Looks -/

/-- Somebody looks at a channel again.  Of all that was sent since the look before, the latest is seen. -/
structure Look where
  instant : Instant
  changes : List Change

/-- The first look that finds the flag asking to stop. -/
def StopSignal.stopping? (signal : StopSignal) : List Look → Option Instant
  | [] => none
  | look :: later =>
    let signal := look.changes.foldl apply signal
    if signal.isStopped then some look.instant else signal.stopping? later

namespace StopSignal

theorem stopping?_mem {signal : StopSignal} {looks : List Look} {t : Instant}
    (stops : signal.stopping? looks = some t) : ∃ look ∈ looks, look.instant = t := by
  induction looks generalizing signal with
  | nil => cases stops
  | cons look later inductionHypothesis =>
    simp only [stopping?] at stops
    split at stops
    · exact ⟨look, List.mem_cons_self, Option.some_inj.mp stops⟩
    · obtain ⟨other, member, same⟩ := inductionHypothesis stops
      exact ⟨other, List.mem_cons_of_mem look member, same⟩

theorem le_of_stopping? {signal : StopSignal} {look : Look} {later : List Look} {t : Instant}
    (ordered : ((look :: later).map Look.instant).Pairwise (· ≤ ·))
    (stops : signal.stopping? (look :: later) = some t) : look.instant ≤ t := by
  obtain ⟨other, member, rfl⟩ := stopping?_mem stops
  obtain rfl | member := List.mem_cons.mp member
  · exact Nat.le_refl _
  · exact (List.pairwise_cons.mp ordered).1 _ (List.mem_map_of_mem member)

theorem stopping?_never (looks : List Look) : never.stopping? looks = none := by
  have still (changes : List Change) : changes.foldl apply never = never := by
    induction changes with
    | nil => rfl
    | cons change later inductionHypothesis => cases change <;> exact inductionHypothesis
  induction looks with
  | nil => rfl
  | cons look later inductionHypothesis =>
    rw [stopping?, still]
    exact inductionHypothesis

/-! ## Pauses -/

/-- The looks of a pause, which sees every change. -/
def looksOf (schedule : List (Instant × Change)) : List Look :=
  schedule.map fun (due, change) => ⟨due, [change]⟩

theorem pause_of_isStopped {signal : StopSignal} (stopped : signal.isStopped = true)
    (now deadline : Instant) (schedule : List (Instant × Change)) :
    signal.pause now deadline schedule = ⟨true, now, signal, schedule⟩ := by
  cases schedule with
  | nil => rw [pause, if_pos stopped]
  | cons change later => rw [pause, if_pos stopped]

theorem pause_of_going {signal : StopSignal} (going : signal.isStopped = false) {now : Instant}
    (deadline : Instant) {schedule : List (Instant × Change)}
    (ordered : (now :: (looksOf schedule).map Look.instant).Pairwise (· ≤ ·)) :
    let p := signal.pause now deadline schedule
    (∀ t < deadline, signal.stopping? (looksOf schedule) = some t → (p.stopped, p.finish) = (true, t)) ∧
    ((∀ t, signal.stopping? (looksOf schedule) = some t → deadline ≤ t) →
      (p.stopped, p.finish) = (false, deadline)) := by
  induction schedule generalizing signal now with
  | nil => simp [pause, going, looksOf, stopping?]
  | cons entry later inductionHypothesis =>
    obtain ⟨due, change⟩ := entry
    obtain ⟨began, rest⟩ := List.pairwise_cons.mp ordered
    have begun : max now due = due := Nat.max_eq_right (began _ List.mem_cons_self)
    have notBefore {t : Instant}
        (stops : signal.stopping? (⟨due, [change]⟩ :: looksOf later) = some t) : due ≤ t :=
      le_of_stopping? rest stops
    have looks : looksOf ((due, change) :: later) = ⟨due, [change]⟩ :: looksOf later := rfl
    simp only [looks, pause, going, Bool.false_eq_true, if_false, begun]
    split
    case isFalse late =>
      refine ⟨fun t early stops => ?_, fun _ => rfl⟩
      exact absurd (Nat.lt_of_le_of_lt (notBefore stops) early) late
    case isTrue ahead =>
      rw [stopping?, List.foldl_cons, List.foldl_nil] at notBefore ⊢
      dsimp only at notBefore ⊢
      cases stopped : (signal.apply change).isStopped with
      | true => simp [pause_of_isStopped stopped, ahead]
      | false =>
        simp only [Bool.false_eq_true, if_false]
        exact inductionHypothesis stopped rest

end StopSignal

/-! ## The package -/

/-- What a package provides of such channels.  A receiver and a wait may remember what they have seen. -/
structure WatchPackage where
  Receiver : Type
  Waiting : Type
  borrow : Receiver → Watch → Bool
  hasChanged : Receiver → Watch → Except Unit Bool
  /-- Begins a wait for the value `true`, which does nothing until it is polled. -/
  waitFor : Receiver → Waiting
  /-- Polls a wait; nothing is left of it when it is over. -/
  poll : Waiting → Watch → Option Waiting

namespace WatchPackage

variable (pkg : WatchPackage)

/-- What is documented of a package. -/
structure AsDocumented : Prop where
  /-- A receiver sees the latest value. -/
  latest : ∀ r w, pkg.borrow r w = w.value
  /-- Asking for something new fails when the holder is gone, and only then. -/
  reports : ∀ r w, (pkg.hasChanged r w).isOk = w.held
  /-- A wait is over at once if the value is there, even if it was seen before. -/
  begins : ∀ r w, w.value = true → pkg.poll (pkg.waitFor r) w = none
  /-- A wait that went on looks at the latest value again as soon as others were sent. -/
  looksAgain : ∀ {x x' w} changes, pkg.poll x w = some x' → w.sent < (w.after changes).sent →
    (w.after changes).value = true → pkg.poll x' (w.after changes) = none
  /-- A wait is over when the holder is gone. -/
  closes : ∀ x w, w.held = false → pkg.poll x w = none
  /-- Nothing else ends it. -/
  goesOn : ∀ x w, w.held = true → w.value = false → (pkg.poll x w).isSome

/-- Channels that count what is sent.  A wait that went on has seen all that was sent until then, and does
    not look at the value before there is more. -/
def counting : WatchPackage where
  Receiver := Nat
  Waiting := Option Nat
  borrow _ w := w.value
  hasChanged seen w := if w.held then .ok (seen != w.sent) else .error ()
  waitFor _ := none
  poll seen w := if (seen ≠ some w.sent ∧ w.value) ∨ !w.held then none else some (some w.sent)

theorem counting_asDocumented : counting.AsDocumented where
  latest _ _ := rfl
  reports r w := by
    simp only [counting]
    cases w.held <;> rfl
  begins r w value := by simp [counting, value]
  looksAgain {x x' w} changes wentOn more value := by
    obtain rfl : some w.sent = x' := by
      simp only [counting] at wentOn
      split at wentOn
      · cases wentOn
      · exact Option.some_inj.mp wentOn
    simp [counting, value, Nat.ne_of_lt more]
  closes x w gone := by simp [counting, gone]
  goesOn x w held value := by simp [counting, held, value]

/-! ## The signal -/

/-- Whether a signal asks to stop.  A signal without a receiver never does. -/
def isShutdown : Option pkg.Receiver → Watch → Bool
  | some r, w => pkg.borrow r w || !(pkg.hasChanged r w).isOk
  | none, _ => false

/-- The look at which a wait is over. -/
def resume (x : pkg.Waiting) (w : Watch) : List Look → Option Instant
  | [] => none
  | look :: later =>
    match pkg.poll x (w.after look.changes) with
    | none => some look.instant
    | some x => resume x (w.after look.changes) later

/-- Waits until a signal asks to stop, and looks at the channel now and from then on. -/
def wait (signal : Option pkg.Receiver) (now : Instant) (w : Watch) (looks : List Look) :
    Option Instant :=
  signal.bind fun r => pkg.resume (pkg.waitFor r) w (⟨now, []⟩ :: looks)

/-- Races a wait against a timer.  Whenever something wakes the two, the wait is polled first. -/
def race (deadline : Instant) (x : pkg.Waiting) (w : Watch) : List Look → Bool × Instant
  | [] => ((pkg.poll x w).isNone, deadline)
  | look :: later =>
    if deadline < look.instant then ((pkg.poll x w).isNone, deadline)
    else match pkg.poll x (w.after look.changes) with
      | none => (true, look.instant)
      | some x =>
        if look.instant = deadline then (false, deadline)
        else race deadline x (w.after look.changes) later

/-- Sleeps to a deadline, or until a signal asks to stop. -/
def sleep (signal : Option pkg.Receiver) (now deadline : Instant) (w : Watch) (looks : List Look) :
    Bool × Instant :=
  match signal with
  | some r => pkg.race deadline (pkg.waitFor r) w (⟨now, []⟩ :: looks)
  | none => (false, deadline)

/-- The flag that a loop with a signal sees. -/
def flag (signal : Option pkg.Receiver) (w : Watch) : StopSignal :=
  if signal.isSome then w.flag else .never

/-! ## What polls tell -/

/-- Whatever happens to a channel next, a wait is over just if the channel then asks to stop. -/
def Tells (x : pkg.Waiting) (w : Watch) : Prop :=
  ∀ changes, (pkg.poll x (w.after changes)).isNone = (w.after changes).flag.isStopped

section
variable {pkg} (documented : pkg.AsDocumented)
include documented

theorem isNone_poll {x : pkg.Waiting} {w : Watch}
    (latest : w.held = true → w.value = true → pkg.poll x w = none) :
    (pkg.poll x w).isNone = w.flag.isStopped := by
  cases held : w.held with
  | false => simp [documented.closes x w held, Watch.flag, StopSignal.isStopped, held]
  | true =>
    cases value : w.value with
    | true => simp [latest held value, Watch.flag, StopSignal.isStopped, value]
    | false =>
      simp [documented.goesOn x w held value, Watch.flag, StopSignal.isStopped, value, held]

theorem tells_waitFor (r : pkg.Receiver) (w : Watch) : pkg.Tells (pkg.waitFor r) w :=
  fun changes => isNone_poll documented fun _ value => documented.begins r (w.after changes) value

/-- A wait that goes on tells as well as before: the value was `false` when it was polled, so if it is
    `true` later it was sent since. -/
theorem Tells.next {x x' : pkg.Waiting} {w : Watch} {changes : List Change} (tells : pkg.Tells x w)
    (goesOn : pkg.poll x (w.after changes) = some x') : pkg.Tells x' (w.after changes) := by
  intro more
  have going := tells changes
  rw [goesOn, Option.isNone_some, eq_comm, Watch.isStopped_flag] at going
  refine isNone_poll documented fun _ value => ?_
  refine documented.looksAgain more goesOn (((w.after changes).sent_after more).2 ?_) value
  rw [value, going.1]
  exact Bool.noConfusion

theorem Tells.resume {x : pkg.Waiting} {w : Watch} (tells : pkg.Tells x w) (looks : List Look) :
    pkg.resume x w looks = w.flag.stopping? looks := by
  induction looks generalizing x w with
  | nil => rfl
  | cons look later inductionHypothesis =>
    have told := tells look.changes
    simp only [WatchPackage.resume, StopSignal.stopping?, ← Watch.flag_after, ← told]
    cases polled : pkg.poll x (w.after look.changes) with
    | none => rfl
    | some x' => exact inductionHypothesis (tells.next documented polled)

/-- A race does not depend on what the wait has seen before. -/
theorem Tells.race_eq {x y : pkg.Waiting} {w : Watch} (tells : pkg.Tells x w) (likewise : pkg.Tells y w)
    (looks : List Look) (deadline : Instant) :
    pkg.race deadline x w looks = pkg.race deadline y w looks := by
  have alike : (pkg.poll x w).isNone = (pkg.poll y w).isNone := (tells []).trans (likewise []).symm
  induction looks generalizing x y w with
  | nil => rw [WatchPackage.race, WatchPackage.race, alike]
  | cons look later inductionHypothesis =>
    have same := (tells look.changes).trans (likewise look.changes).symm
    rw [WatchPackage.race, WatchPackage.race, alike]
    cases polled : pkg.poll x (w.after look.changes) with
    | none =>
      rw [polled, Option.isNone_none, eq_comm, Option.isNone_iff_eq_none] at same
      rw [same]
    | some x' =>
      rw [polled, Option.isNone_some, eq_comm, Option.isNone_eq_false_iff] at same
      obtain ⟨y', polled'⟩ := Option.isSome_iff_exists.mp same
      have further := tells.next documented polled
      have further' := likewise.next documented polled'
      simp only [polled', inductionHypothesis further further' ((further []).trans (further' []).symm)]

/-- A race that is on is won by the wait at the first look before the deadline that finds the flag asking
    to stop, and by the timer if there is none up to the deadline.  At the deadline itself either may come
    first. -/
theorem Tells.race {x : pkg.Waiting} {w : Watch} (tells : pkg.Tells x w)
    (going : w.flag.isStopped = false) {looks : List Look}
    (ordered : (looks.map Look.instant).Pairwise (· ≤ ·)) (deadline : Instant) :
    let result := pkg.race deadline x w looks
    (∀ t < deadline, w.flag.stopping? looks = some t → result = (true, t)) ∧
    (w.flag.stopping? looks = some deadline → result.2 = deadline) ∧
    ((∀ t, w.flag.stopping? looks = some t → deadline < t) → result = (false, deadline)) := by
  have waits : (pkg.poll x w).isNone = false := (tells []).trans going
  induction looks generalizing x w with
  | nil => exact ⟨nofun, nofun, fun _ => by rw [WatchPackage.race, waits]⟩
  | cons look later inductionHypothesis =>
    have notBefore {t : Instant} (stops : w.flag.stopping? (look :: later) = some t) :
        look.instant ≤ t := StopSignal.le_of_stopping? ordered stops
    have told := tells look.changes
    rw [WatchPackage.race]
    split
    case isTrue late =>
      refine ⟨fun t early stops => ?_, fun _ => rfl, fun _ => by rw [waits]⟩
      exact absurd (notBefore stops) (Nat.not_le.mpr (Nat.lt_trans early late))
    case isFalse ahead =>
      simp only [StopSignal.stopping?, ← Watch.flag_after, ← told] at notBefore ⊢
      cases polled : pkg.poll x (w.after look.changes) with
      | none => simp [ahead]
      | some x' =>
        have further := tells.next documented polled
        have goingOn : (w.after look.changes).flag.isStopped = false := by rw [← told, polled]; rfl
        rw [polled] at notBefore
        simp only [Option.isNone_some, Bool.false_eq_true, if_false] at notBefore ⊢
        split
        case isTrue timedOut =>
          refine ⟨fun t early stops => ?_, fun _ => rfl, fun _ => rfl⟩
          exact absurd (timedOut ▸ notBefore stops) (Nat.not_le.mpr early)
        case isFalse =>
          have rest := (List.pairwise_cons.mp ordered).2
          exact inductionHypothesis further goingOn rest ((further []).trans goingOn)

/-! ## Signals -/

theorem isShutdown_eq (signal : Option pkg.Receiver) (w : Watch) :
    pkg.isShutdown signal w = (pkg.flag signal w).isStopped := by
  cases signal with
  | none => rfl
  | some r =>
    rw [isShutdown, documented.latest, documented.reports]
    rfl

theorem wait_eq (signal : Option pkg.Receiver) (now : Instant) (w : Watch) (looks : List Look) :
    pkg.wait signal now w looks = (pkg.flag signal w).stopping? (⟨now, []⟩ :: looks) := by
  cases signal with
  | none => exact (StopSignal.stopping?_never _).symm
  | some r => exact (tells_waitFor documented r w).resume documented _

variable {signal : Option pkg.Receiver} {w : Watch} {now deadline : Instant} {looks : List Look}

theorem sleep_of_isStopped (stopped : (pkg.flag signal w).isStopped = true) (ahead : now < deadline) :
    pkg.sleep signal now deadline w looks = (true, now) := by
  cases signal with
  | none => cases stopped
  | some r =>
    have finished : (pkg.poll (pkg.waitFor r) (w.after [])).isNone = true :=
      (tells_waitFor documented r w []).trans stopped
    rw [sleep, race, if_neg (Nat.not_lt.mpr (Nat.le_of_lt ahead)), Option.isNone_iff_eq_none.mp finished]

theorem sleep_of_going (going : (pkg.flag signal w).isStopped = false) (ahead : now < deadline)
    (ordered : (now :: looks.map Look.instant).Pairwise (· ≤ ·)) :
    let slept := pkg.sleep signal now deadline w looks
    (∀ t < deadline, (pkg.flag signal w).stopping? looks = some t → slept = (true, t)) ∧
    ((pkg.flag signal w).stopping? looks = some deadline → slept.2 = deadline) ∧
    ((∀ t, (pkg.flag signal w).stopping? looks = some t → deadline < t) → slept = (false, deadline)) := by
  cases signal with
  | none =>
    rw [show pkg.flag none w = .never from rfl, StopSignal.stopping?_never]
    exact ⟨nofun, nofun, fun _ => rfl⟩
  | some r =>
    have tells := tells_waitFor documented r w
    have waits : (pkg.poll (pkg.waitFor r) (w.after [])).isNone = false := (tells []).trans going
    obtain ⟨x, polled⟩ := Option.isSome_iff_exists.mp (Option.isNone_eq_false_iff.mp waits)
    have races : pkg.sleep (some r) now deadline w looks = pkg.race deadline x w looks := by
      rw [sleep, race, if_neg (Nat.not_lt.mpr (Nat.le_of_lt ahead)), polled]
      exact if_neg (Nat.ne_of_lt ahead)
    rw [races]
    exact (tells.next documented polled).race documented going (List.pairwise_cons.mp ordered).2 deadline

/-- A sleep that is not interrupted now, nor by a change at this instant, is not over at this instant. -/
theorem ne_of_sleep (going : (pkg.flag signal w).isStopped = false) (ahead : now < deadline)
    (ordered : (now :: looks.map Look.instant).Pairwise (· ≤ ·))
    (never : (pkg.flag signal w).stopping? looks ≠ some now) :
    pkg.sleep signal now deadline w looks ≠ (true, now) := by
  obtain ⟨stops, undecided, ends⟩ := sleep_of_going documented going ahead ordered
  intro woken
  rw [woken] at stops undecided ends
  have found : ∀ t, (pkg.flag signal w).stopping? looks = some t → deadline < t := by
    intro t found
    rcases Nat.lt_trichotomy t deadline with early | rfl | late
    · cases stops t early found
      exact absurd found never
    · exact absurd (undecided found) (Nat.ne_of_lt ahead)
    · exact late
  cases ends found

theorem sleep_eq {other : Option pkg.Receiver} (same : other.isSome = signal.isSome) :
    pkg.sleep other now deadline w looks = pkg.sleep signal now deadline w looks := by
  cases other with
  | none =>
    cases signal with
    | none => rfl
    | some r => cases same
  | some r' =>
    cases signal with
    | none => cases same
    | some r =>
      exact (tells_waitFor documented r' w).race_eq documented (tells_waitFor documented r w) _ deadline

/-- A pause takes no notice of changes at its deadline; apart from them it is a sleep that sees every
    change. -/
theorem sleep_eq_pause {schedule : List (Instant × Change)} (ahead : now < deadline)
    (ordered : (now :: (StopSignal.looksOf schedule).map Look.instant).Pairwise (· ≤ ·))
    (apart : ∀ entry ∈ schedule, entry.1 ≠ deadline) :
    let p := (pkg.flag signal w).pause now deadline schedule
    pkg.sleep signal now deadline w (StopSignal.looksOf schedule) = (p.stopped, p.finish) := by
  cases stopped : (pkg.flag signal w).isStopped with
  | true => rw [StopSignal.pause_of_isStopped stopped, sleep_of_isStopped documented stopped ahead]
  | false =>
    obtain ⟨stops, -, ends⟩ := sleep_of_going documented stopped ahead ordered
    obtain ⟨stops', ends'⟩ := StopSignal.pause_of_going stopped deadline ordered
    by_cases early : ∃ t < deadline, (pkg.flag signal w).stopping? (StopSignal.looksOf schedule) = some t
    · obtain ⟨t, before, found⟩ := early
      exact (stops t before found).trans (stops' t before found).symm
    · have late : ∀ t, (pkg.flag signal w).stopping? (StopSignal.looksOf schedule) = some t → deadline < t := by
        intro t found
        obtain ⟨look, member, rfl⟩ := StopSignal.stopping?_mem found
        obtain ⟨entry, scheduled, rfl⟩ := List.mem_map.mp member
        have other := apart entry scheduled
        have still := Nat.not_lt.mp fun before => early ⟨_, before, found⟩
        exact Nat.lt_of_le_of_ne still other.symm
      exact (ends late).trans (ends' fun t found => Nat.le_of_lt (late t found)).symm

/-- All ways to read a signal agree, at any point in the life of its channel and whatever happens to the
    channel next:

    * it asks to stop just if the flag of the loops does;
    * if it asks to stop, a wait is over and a sleep interrupted at once, and only then, unless the channel
      changes at the same instant;
    * otherwise a sleep is interrupted at the first instant before its deadline at which the flag is seen to
      ask for that, and lasts to the deadline if there is none up to it;
    * it does not matter what the receiver has seen before, so a clone reads the same;
    * sleeps that see every change are the pauses of the loops. -/
theorem readings_agree (signal : Option pkg.Receiver) (w : Watch) {now deadline : Instant}
    (ahead : now < deadline) {looks : List Look}
    (ordered : (now :: looks.map Look.instant).Pairwise (· ≤ ·)) :
    let flag := pkg.flag signal w
    let waited := pkg.wait signal now w looks
    let slept := pkg.sleep signal now deadline w looks
    pkg.isShutdown signal w = flag.isStopped ∧
    (pkg.isShutdown signal w = true → waited = some now ∧ slept = (true, now)) ∧
    ((∀ look ∈ looks, now < look.instant) →
      (waited = some now → pkg.isShutdown signal w = true) ∧
      (slept = (true, now) → pkg.isShutdown signal w = true)) ∧
    (pkg.isShutdown signal w = false →
      waited = flag.stopping? looks ∧
      (∀ t < deadline, flag.stopping? looks = some t → slept = (true, t)) ∧
      ((∀ t, flag.stopping? looks = some t → deadline < t) → slept = (false, deadline))) ∧
    (∀ other : Option pkg.Receiver, other.isSome = signal.isSome →
      pkg.isShutdown other w = pkg.isShutdown signal w ∧ pkg.wait other now w looks = waited ∧
        pkg.sleep other now deadline w looks = slept) ∧
    ∀ schedule, looks = StopSignal.looksOf schedule → (∀ entry ∈ schedule, entry.1 ≠ deadline) →
      let p := flag.pause now deadline schedule
      slept = (p.stopped, p.finish) := by
  intro flag waited slept
  have asks := isShutdown_eq documented signal w
  have waits : waited = if flag.isStopped then some now else flag.stopping? looks :=
    wait_eq documented signal now w looks
  rw [asks]
  refine ⟨rfl, ?_, ?_, ?_, ?_, ?_⟩
  · intro stopped
    exact ⟨by rw [waits, if_pos stopped], sleep_of_isStopped documented stopped ahead⟩
  · intro later
    cases stopped : flag.isStopped with
    | true => exact ⟨fun _ => rfl, fun _ => rfl⟩
    | false =>
      have never : flag.stopping? looks ≠ some now := by
        intro found
        obtain ⟨look, member, same⟩ := StopSignal.stopping?_mem found
        exact Nat.ne_of_gt (later look member) same
      refine ⟨fun finished => ?_, fun woken => ?_⟩
      · rw [waits, stopped] at finished
        exact absurd finished never
      · exact absurd woken (ne_of_sleep documented stopped ahead ordered never)
  · intro going
    obtain ⟨stops, -, ends⟩ := sleep_of_going documented going ahead ordered
    exact ⟨by rw [waits, going]; rfl, stops, ends⟩
  · intro other same
    have alike : pkg.flag other w = flag := by simp only [flag, WatchPackage.flag, same]
    refine ⟨?_, ?_, sleep_eq documented same⟩
    · rw [isShutdown_eq documented, alike]
    · rw [wait_eq documented, alike]
      exact (wait_eq documented signal now w looks).symm
  · rintro schedule rfl apart
    exact sleep_eq_pause documented ahead ordered apart

end

/-- Somebody sends `false`, and lets go of the channel a second later.  A long sleep is interrupted by that,
    a short one is not, and whoever sleeps afterwards is woken at once. -/
theorem readings_agree_counting :
    let w : Watch := ⟨false, true, 0⟩
    let schedule : List (Instant × Change) := [(1000, .send false), (2000, .drop)]
    let looks := StopSignal.looksOf schedule
    let gone := w.after (schedule.map Prod.snd)
    let signal : Option counting.Receiver := some (0 : Nat)
    (counting.isShutdown signal w = false ∧ counting.wait signal 0 w looks = some 2000 ∧
      counting.sleep signal 0 60000 w looks = (true, 2000) ∧
      counting.sleep signal 0 1500 w looks = (false, 1500)) ∧
    counting.isShutdown signal gone = true ∧ counting.wait signal 2000 gone [] = some 2000 ∧
      counting.sleep signal 2000 60000 gone [] = (true, 2000) := by
  intro w schedule looks gone signal
  have documented := counting_asDocumented
  have ordered : (0 :: looks.map Look.instant).Pairwise (· ≤ ·) := by decide
  have ordered' : (2000 :: ([] : List Look).map Look.instant).Pairwise (· ≤ ·) := by decide
  obtain ⟨asks, -, -, long, -⟩ :=
    readings_agree documented signal w (show 0 < 60000 by decide) ordered
  obtain ⟨-, -, -, short, -⟩ := readings_agree documented signal w (show 0 < 1500 by decide) ordered
  obtain ⟨asks', stopped, -⟩ :=
    readings_agree documented signal gone (show 2000 < 60000 by decide) ordered'
  obtain ⟨waits, stops, -⟩ := long asks
  obtain ⟨-, -, ends⟩ := short asks
  refine ⟨⟨asks, waits, stops 2000 (by decide) rfl, ends ?_⟩, asks', stopped asks'⟩
  intro t found
  cases found
  decide

end WatchPackage

end RegistryCache
