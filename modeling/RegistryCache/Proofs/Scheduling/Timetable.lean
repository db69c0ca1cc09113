import Mathlib.Data.List.Chain
import RegistryCache.Proofs.Scheduling.Rounds

/-! # Timetables

What both loops have in common: a round asks one question after the other, each at the instant at which
it has heard the reply to the one before, and the next round begins a pause after its end.  A `Plan`
says what is asked, and a `Timetable` that it is asked in time.  How long replies take and what they
say determines a timetable completely; the main statement is `Timetable.agrees`.
-/

namespace RegistryCache

variable {κ α ρ W : Type}

/-- What a round asks.  Somebody in the middle of it waits in a state of type `W`, which knows all that
    is left to ask. -/
structure Plan (κ α W : Type) where
  /-- The next question over an agenda, when these replies have arrived; none if that was all. -/
  ask : κ → List α → Option Call
  /-- The next question of somebody who waits, when these further replies will have arrived. -/
  left : W → List α → Option Call
  call : W → Call
  left_nil : ∀ w, left w [] = some (call w)

namespace Plan

/-- What is left to ask is known to the one who waits, or nothing is. -/
def Leads (plan : Plan κ α W) (questions : List α → Option Call) : Progress W ρ → Prop
  | .waiting w => questions = plan.left w
  | .done _ => questions [] = none

variable {plan : Plan κ α W} {questions : List α → Option Call} {going : Progress W ρ}

theorem Leads.call (leads : plan.Leads questions going) :
    going.activity?.map plan.call = questions [] := by
  cases going with
  | waiting w =>
    have same : questions = plan.left w := leads
    rw [same, plan.left_nil]
    rfl
  | done outcome =>
    have finished : questions [] = none := leads
    rw [finished]
    rfl

theorem Leads.ends (leads : plan.Leads questions going) (now t : Instant) :
    (∃ result, going.outcome?.map (now, ·) = some (t, result)) ↔
      questions [] = none ∧ t = now := by
  cases going with
  | waiting w =>
    have same : questions = plan.left w := leads
    simp [Progress.outcome?, same, plan.left_nil]
  | done outcome =>
    have finished : questions [] = none := leads
    simp [Progress.outcome?, finished, eq_comm]

end Plan

/-! ## One round -/

namespace Round

def answers (r : Round κ α ρ) : List α := r.heard.map Prod.snd

/-- When a round may ask: as it begins, and whenever it hears a reply. -/
def instants (r : Round κ α ρ) : List Instant := r.began :: r.heard.map Prod.fst

theorem instants_ne_nil (r : Round κ α ρ) : r.instants ≠ [] := List.cons_ne_nil _ _

/-- The instant at which it came as far as it has. -/
def latest (r : Round κ α ρ) : Instant := r.instants.getLast r.instants_ne_nil

/-- The round asks all that it should, each question as soon as it can, and ends as soon as there is
    nothing left to ask. -/
structure Prompt (plan : Plan κ α W) (r : Round κ α ρ) : Prop where
  asks : ∀ i, r.asked[i]? =
    r.instants[i]?.bind fun t => (plan.ask r.agenda (r.answers.take i)).map (t, ·)
  answered : r.heard.length ≤ r.asked.length
  ends : ∀ t, (∃ result, r.ended = some (t, result)) ↔
    plan.ask r.agenda r.answers = none ∧ t = r.latest

section
variable (now : Instant) (reply : α) (begun : List Call) (outcome : Option ρ) (r : Round κ α ρ)

@[simp] theorem agenda_hear : (r.hear now reply begun outcome).agenda = r.agenda := rfl

@[simp] theorem asked_hear :
    (r.hear now reply begun outcome).asked = r.asked ++ begun.map (now, ·) := rfl

@[simp] theorem answers_hear : (r.hear now reply begun outcome).answers = r.answers ++ [reply] := by
  simp [answers, hear]

@[simp] theorem instants_hear : (r.hear now reply begun outcome).instants = r.instants ++ [now] := by
  simp [instants, hear]

@[simp] theorem latest_hear : (r.hear now reply begun outcome).latest = now := by
  simp [latest]

end

variable {plan : Plan κ α W} {r : Round κ α ρ}

@[simp] theorem length_instants (r : Round κ α ρ) : r.instants.length = r.heard.length + 1 := by
  simp [instants]

@[simp] theorem length_answers (r : Round κ α ρ) : r.answers.length = r.heard.length := by
  simp [answers]

theorem instants_latest (r : Round κ α ρ) : r.instants[r.heard.length]? = some r.latest := by
  rw [latest, List.getLast_eq_getElem, List.getElem?_eq_getElem (by simp)]
  simp

theorem Prompt.asking (prompt : r.Prompt plan) (running : r.ended = none) :
    plan.ask r.agenda r.answers ≠ none := by
  intro finished
  obtain ⟨result, ended⟩ := (prompt.ends r.latest).mpr ⟨finished, rfl⟩
  rw [running] at ended
  cases ended

/-- A round that is not over waits for the reply to its latest question. -/
theorem Prompt.length_asked (prompt : r.Prompt plan) (running : r.ended = none) :
    r.asked.length = r.heard.length + 1 := by
  have here := prompt.asks r.heard.length
  have beyond := prompt.asks (r.heard.length + 1)
  have past : r.instants[r.heard.length + 1]? = none := List.getElem?_eq_none (by simp)
  rw [past, Option.bind_none, List.getElem?_eq_none_iff] at beyond
  rw [r.instants_latest, Option.bind_some, List.take_of_length_le (by simp)] at here
  obtain ⟨call, asks⟩ := Option.ne_none_iff_exists'.mp (prompt.asking running)
  rw [asks, Option.map_some] at here
  have inside := (List.getElem?_eq_some_iff.mp here).1
  omega

variable {now : Instant} {going : Progress W ρ}

theorem prompt_opened {agenda : κ} (leads : plan.Leads (plan.ask agenda) going) :
    (opened now agenda (going.activity?.map plan.call).toList going.outcome? :
      Round κ α ρ).Prompt plan := by
  refine ⟨?_, by simp [opened], leads.ends now⟩
  rw [leads.call]
  intro i
  cases i with
  | zero => cases next : plan.ask agenda [] <;> simp [opened, instants, answers, next]
  | succ i => cases plan.ask agenda [] <;> simp [opened, instants]

theorem Prompt.hear {reply : α} (prompt : r.Prompt plan) (running : r.ended = none)
    (leads : plan.Leads (fun more => plan.ask r.agenda (r.answers ++ reply :: more)) going) :
    (r.hear now reply (going.activity?.map plan.call).toList going.outcome?).Prompt plan := by
  have length := prompt.length_asked running
  refine ⟨?_, by simp [Round.hear, length], ?_⟩
  · intro i
    simp only [agenda_hear, asked_hear, answers_hear, instants_hear, leads.call]
    -- what was asked before stays, the new question stands behind it, and nothing beyond
    obtain earlier | latest | beyond := Nat.lt_trichotomy i (r.heard.length + 1)
    · rw [List.getElem?_append_left (by omega), List.getElem?_append_left (by simpa using earlier),
        List.take_append_of_le_length (by simpa using Nat.lt_succ_iff.mp earlier)]
      exact prompt.asks i
    · rw [List.getElem?_append_right (by omega), List.getElem?_append_right (by simp; omega),
        List.take_of_length_le (by simp; omega)]
      cases plan.ask r.agenda (r.answers ++ [reply]) <;> simp [latest, length]
    · have short : ((plan.ask r.agenda (r.answers ++ [reply])).toList.map (now, ·)).length ≤ 1 := by
        cases plan.ask r.agenda (r.answers ++ [reply]) <;> simp
      rw [List.getElem?_eq_none (by rw [List.length_append]; omega),
        List.getElem?_eq_none (by simp; omega)]
      rfl
  · intro t
    rw [answers_hear, latest_hear]
    exact leads.ends now t

end Round

/-! ## One round after the other -/

/-- The second round begins a pause after the end of the first. -/
def Round.Precedes (pause? : Option Duration) (r r' : Round κ α ρ) : Prop :=
  ∃ t result pause, r.ended = some (t, result) ∧ pause? = some pause ∧
    r'.began = t + pause.inMillis

/-- The rounds of a loop up to now.  All of them are prompt, the first begins at `start`, every other
    one a pause after the end of the one before, and none is missing that should have begun by now. -/
structure Timetable (plan : Plan κ α W) (start : Instant) (pause? : Option Duration) (now : Instant)
    (rounds : List (Round κ α ρ)) : Prop where
  prompt : ∀ r ∈ rounds, r.Prompt plan
  first : ∀ r ∈ rounds.head?, r.began = start
  next : rounds.IsChain (Round.Precedes pause?)
  due : rounds = [] → now ≤ start
  again : ∀ r ∈ rounds.getLast?, ∀ t result pause, r.ended = some (t, result) →
    pause? = some pause → now ≤ t + pause.inMillis

/-- Where a loop is with its rounds, and what it knows there. -/
inductive Pace (W : Type) where
  | early
  | asking (w : W)
  | asleep (wake : Instant)
  | finished

namespace Pace

/-- The loop has a round to begin. -/
def Due (pace : Pace W) (now : Instant) : Prop :=
  pace = .early ∨ ∃ wake, pace = .asleep wake ∧ wake ≤ now

/-- Where a loop gets at an instant with a round that goes on or ends. -/
inductive Lands (pause? : Option Duration) (now : Instant) : Progress W ρ → Pace W → Prop where
  | waits (w : W) : Lands pause? now (.waiting w) (.asking w)
  | pauses {pause : Duration} (again : pause? = some pause) (outcome : ρ) :
      Lands pause? now (.done outcome) (.asleep (now + pause.inMillis))
  | ends (once : pause? = none) (outcome : ρ) : Lands pause? now (.done outcome) .finished

/-- How a loop that is in time stands to its rounds. -/
inductive Fits (plan : Plan κ α W) (start : Instant) (pause? : Option Duration) (now : Instant) :
    Pace W → List (Round κ α ρ) → Prop where
  | early (begins : now = start) : Fits plan start pause? now .early []
  | asking {done : List (Round κ α ρ)} {r : Round κ α ρ} {w : W} (running : r.ended = none)
      (left : ∀ more, plan.ask r.agenda (r.answers ++ more) = plan.left w more) :
      Fits plan start pause? now (.asking w) (done ++ [r])
  | asleep {done : List (Round κ α ρ)} {r : Round κ α ρ} {t : Instant} {result : ρ}
      {pause : Duration} (ended : r.ended = some (t, result)) (again : pause? = some pause)
      (early : now ≤ t + pause.inMillis) :
      Fits plan start pause? now (.asleep (t + pause.inMillis)) (done ++ [r])
  | finished {done : List (Round κ α ρ)} {r : Round κ α ρ} (once : pause? = none) :
      Fits plan start pause? now .finished (done ++ [r])

end Pace

/-- A loop in time, up to now. -/
structure InTime (plan : Plan κ α W) (start : Instant) (pause? : Option Duration) (now : Instant)
    (pace : Pace W) (rounds : List (Round κ α ρ)) : Prop where
  prompt : ∀ r ∈ rounds, r.Prompt plan
  first : ∀ r ∈ rounds.head?, r.began = start
  next : rounds.IsChain (Round.Precedes pause?)
  fits : pace.Fits plan start pause? now rounds

section
variable {plan : Plan κ α W} {start now later : Instant} {pause? : Option Duration}
  {rounds done : List (Round κ α ρ)} {r : Round κ α ρ} {pace pace' : Pace W} {going : Progress W ρ}

theorem InTime.table (inTime : InTime plan start pause? now pace rounds) :
    Timetable plan start pause? now rounds := by
  obtain ⟨prompt, first, next, fits⟩ := inTime
  refine ⟨prompt, first, next, ?_, ?_⟩
  · intro none
    cases fits with
    | early begins => exact Nat.le_of_eq begins
    | asking | asleep | finished => simp at none
  · intro r last t result pause ended again
    cases fits with
    | early begins => cases last
    | asking running left =>
      simp only [List.getLast?_concat, Option.mem_some_iff] at last
      rw [← last, running] at ended
      cases ended
    | asleep ended' again' early =>
      simp only [List.getLast?_concat, Option.mem_some_iff] at last
      rw [← last, ended'] at ended
      cases ended
      rw [again'] at again
      cases again
      exact early
    | finished once =>
      rw [once] at again
      cases again

/-- With its latest round a loop gets where that lands it. -/
theorem Pace.Lands.fits (lands : pace.Lands pause? now going)
    (leads : plan.Leads (fun more => plan.ask r.agenda (r.answers ++ more)) going)
    (ended : r.ended = going.outcome?.map (now, ·)) :
    pace.Fits plan start pause? now (done ++ [r]) := by
  cases lands with
  | waits w => exact .asking ended (congrFun leads)
  | pauses again outcome => exact .asleep ended again (Nat.le_add_right _ _)
  | ends once outcome => exact .finished once

theorem InTime.opens {agenda : κ} (inTime : InTime plan start pause? now pace rounds)
    (due : pace.Due now) (leads : plan.Leads (plan.ask agenda) going)
    (lands : pace'.Lands pause? now going) :
    InTime plan start pause? now pace' (rounds ++
      [.opened now agenda (going.activity?.map plan.call).toList going.outcome?]) := by
  obtain ⟨prompt, first, next, fits⟩ := inTime
  have fits' {done : List (Round κ α ρ)} : pace'.Fits plan start pause? now (done ++
      [.opened now agenda (going.activity?.map plan.call).toList going.outcome?]) :=
    lands.fits leads rfl
  have prompt' : ∀ r ∈ rounds ++
      [.opened now agenda (going.activity?.map plan.call).toList going.outcome?],
      r.Prompt plan := by
    intro r member
    obtain member | rfl := List.mem_append.mp member |>.imp_right List.mem_singleton.mp
    · exact prompt r member
    · exact Round.prompt_opened leads
  obtain rfl | ⟨wake, rfl, late⟩ := due
  · cases fits with
    | early begins => exact ⟨prompt', by simp [Round.opened, begins], .singleton _, fits'⟩
  · cases fits with
    | @asleep done last t result pause ended again early =>
      -- the loop wakes neither early nor late
      have onTime : now = t + pause.inMillis := Nat.le_antisymm early late
      refine ⟨prompt', ?_, ?_, fits'⟩
      · intro r head
        refine first r ?_
        cases done <;> exact head
      · rw [List.isChain_append]
        refine ⟨next, .singleton _, ?_⟩
        intro x lastx y head
        simp only [List.getLast?_concat, Option.mem_some_iff, List.head?_cons] at lastx head
        subst lastx head
        exact ⟨t, result, pause, ended, again, onTime⟩

theorem InTime.hears {w : W} {reply : α} (inTime : InTime plan start pause? now (.asking w) rounds)
    (leads : plan.Leads (fun more => plan.left w (reply :: more)) going)
    (lands : pace'.Lands pause? now going) :
    InTime plan start pause? now pace' (rounds.modifyLast
      (.hear now reply (going.activity?.map plan.call).toList going.outcome?)) := by
  obtain ⟨prompt, first, next, fits⟩ := inTime
  cases fits with
  | @asking done r w running left =>
    have further : plan.Leads (fun more => plan.ask r.agenda (r.answers ++ reply :: more)) going := by
      simpa only [left] using leads
    rw [List.modifyLast_concat]
    refine ⟨?_, ?_, ?_, ?_⟩
    · intro x member
      obtain member | rfl := List.mem_append.mp member |>.imp_right List.mem_singleton.mp
      · exact prompt x (List.mem_append_left _ member)
      · exact (prompt r (by simp)).hear running further
    · intro x head
      cases done with
      | nil => cases head; exact first r rfl
      | cons => exact first x head
    · rw [List.isChain_append] at next ⊢
      exact ⟨next.1, .singleton _, fun x lastx y head => by cases head; exact next.2.2 x lastx r rfl⟩
    · exact lands.fits (by simpa using further) rfl

/-- Time may pass while nothing is due. -/
theorem InTime.elapse (inTime : InTime plan start pause? now pace rounds) (after : now ≤ later)
    (rests : ∀ t, now ≤ t → t < later → ¬ pace.Due t) :
    InTime plan start pause? later pace rounds := by
  obtain ⟨prompt, first, next, fits⟩ := inTime
  refine ⟨prompt, first, next, ?_⟩
  cases fits with
  | early begins =>
    by_cases passes : now < later
    · exact absurd (.inl rfl) (rests now (Nat.le_refl now) passes)
    · exact .early ((Nat.le_antisymm (Nat.not_lt.mp passes) after).trans begins)
  | asking running left => exact .asking running left
  | @asleep done r t result pause ended again early =>
    refine .asleep ended again ?_
    by_contra passes
    exact rests (t + pause.inMillis) early (Nat.lt_of_not_le passes) (.inr ⟨_, rfl, Nat.le_refl _⟩)
  | finished once => exact .finished once

end

/-! ## What determines a timetable -/

namespace Round

/-- The replies to a round take as long as somebody takes who behaves so, and say what that one says;
    those that are not there would not have come by now. -/
def Obeys (behaves : Nat → Call → Nat × α) (now : Instant) (r : Round κ α ρ) : Prop :=
  ∀ i t call, r.asked[i]? = some (t, call) →
    r.heard[i]? = some (t + (behaves i call).1, (behaves i call).2) ∨
      r.heard[i]? = none ∧ now ≤ t + (behaves i call).1

variable {plan : Plan κ α W} {behaves : Nat → Call → Nat × α} {now now' : Instant}
  {r r' : Round κ α ρ}

theorem Prompt.asked_iff (prompt : r.Prompt plan) {i : Nat} {t : Instant} {call : Call} :
    r.asked[i]? = some (t, call) ↔
      r.instants[i]? = some t ∧ plan.ask r.agenda (r.answers.take i) = some call := by
  rw [prompt.asks i]
  cases r.instants[i]? <;> simp [and_comm]

/-- Whenever a round hears a reply, that is the reply to a question, which was asked before. -/
theorem Prompt.instants_succ (prompt : r.Prompt plan) (obeys : r.Obeys behaves now) {i : Nat}
    {t : Instant} (stands : r.instants[i + 1]? = some t) :
    ∃ u call, r.asked[i]? = some (u, call) ∧ t = u + (behaves i call).1 ∧
      r.heard[i]? = some (t, (behaves i call).2) := by
  have heard : ∃ reply, r.heard[i]? = some (t, reply) := by
    simpa [instants] using stands
  obtain ⟨reply, heard⟩ := heard
  have inside := (List.getElem?_eq_some_iff.mp heard).1
  obtain ⟨⟨u, call⟩, asked⟩ : ∃ question, r.asked[i]? = some question :=
    ⟨_, List.getElem?_eq_getElem (Nat.lt_of_lt_of_le inside prompt.answered)⟩
  obtain arrived | ⟨missing, _⟩ := obeys i u call asked
  · rw [arrived] at heard
    cases heard
    exact ⟨u, call, asked, rfl, arrived⟩
  · rw [missing] at heard
    cases heard

theorem Prompt.began_le (prompt : r.Prompt plan) (obeys : r.Obeys behaves now) {i : Nat}
    {t : Instant} (stands : r.instants[i]? = some t) : r.began ≤ t := by
  induction i generalizing t with
  | zero => cases stands; exact Nat.le_refl _
  | succ i inductionHypothesis =>
    obtain ⟨u, call, asked, rfl, _⟩ := prompt.instants_succ obeys stands
    exact Nat.le_trans (inductionHypothesis (prompt.asked_iff.mp asked).1) (Nat.le_add_right _ _)

variable (prompt : r.Prompt plan) (obeys : r.Obeys behaves now) (prompt' : r'.Prompt plan)
  (obeys' : r'.Obeys behaves now') (agenda : r'.agenda = r.agenda) (began : r'.began = r.began)
include prompt obeys prompt' obeys' agenda began

/-- Two rounds over one agenda that begin at one time hear the same at the same time. -/
theorem reaches {i : Nat} {t : Instant} (stands : r.instants[i]? = some t) (before : t < now') :
    r'.instants[i]? = some t ∧ r'.answers.take i = r.answers.take i := by
  induction i generalizing t with
  | zero =>
    cases stands
    exact ⟨by simp [instants, began], by simp⟩
  | succ i inductionHypothesis =>
    obtain ⟨u, call, asked, rfl, heard⟩ := prompt.instants_succ obeys stands
    obtain ⟨here, asks⟩ := prompt.asked_iff.mp asked
    obtain ⟨here', same⟩ := inductionHypothesis here (Nat.lt_of_le_of_lt (Nat.le_add_right _ _) before)
    -- so the other asks the same here, and gets the same reply
    have asked' : r'.asked[i]? = some (u, call) :=
      prompt'.asked_iff.mpr ⟨here', by rw [agenda, same, asks]⟩
    obtain heard' | ⟨_, late⟩ := obeys' i u call asked'
    · refine ⟨by simp [instants, heard'], ?_⟩
      rw [List.take_add_one, List.take_add_one, same]
      simp [answers, heard, heard']
    · exact absurd before (Nat.not_lt.mpr late)

theorem asked_reaches {i : Nat} {t : Instant} {call : Call} (asked : r.asked[i]? = some (t, call))
    (before : t < now') : r'.asked[i]? = some (t, call) := by
  obtain ⟨here, asks⟩ := prompt.asked_iff.mp asked
  obtain ⟨here', same⟩ := reaches prompt obeys prompt' obeys' agenda began here before
  exact prompt'.asked_iff.mpr ⟨here', by rw [agenda, same, asks]⟩

theorem ended_reaches {t : Instant} {result : ρ} (ended : r.ended = some (t, result))
    (before : t < now') : ∃ result', r'.ended = some (t, result') := by
  obtain ⟨finished, latest⟩ := (prompt.ends t).mp ⟨result, ended⟩
  have here : r.instants[r.heard.length]? = some t := latest ▸ r.instants_latest
  obtain ⟨here', same⟩ := reaches prompt obeys prompt' obeys' agenda began here before
  rw [List.take_of_length_le (Nat.le_of_eq r.length_answers)] at same
  -- the other has heard as much, and has no more to ask
  have unasked : r'.asked.length ≤ r.heard.length := by
    rw [← List.getElem?_eq_none_iff, prompt'.asks, here', Option.bind_some, agenda, same, finished]
    rfl
  have heard : r'.heard.length = r.heard.length := by
    have inside := (List.getElem?_eq_some_iff.mp here').1
    have answered := prompt'.answered
    rw [length_instants] at inside
    omega
  have all : r'.answers = r.answers := by
    rw [← same, List.take_of_length_le (by rw [length_answers, heard])]
  refine (prompt'.ends t).mpr ⟨by rw [agenda, all, finished], ?_⟩
  have latest' := r'.instants_latest
  rw [heard, here'] at latest'
  exact Option.some.inj latest'

end Round

/-- Whatever of some rounds has happened before an instant has happened in the others too, at the same
    time. -/
def Agrees (until' : Instant) (rounds rounds' : List (Round κ α ρ)) : Prop :=
  ∀ (k : Nat) (r : Round κ α ρ), rounds[k]? = some r → r.began < until' →
    ∃ r' : Round κ α ρ, rounds'[k]? = some r' ∧ r'.began = r.began ∧
      (∀ (i : Nat) (t : Instant) (call : Call), r.asked[i]? = some (t, call) → t < until' →
        r'.asked[i]? = some (t, call)) ∧
      ∀ (t : Instant) (result : ρ), r.ended = some (t, result) → t < until' →
        ∃ result', r'.ended = some (t, result')

section
variable {plan : Plan κ α W} {start now now' : Instant} {pause? : Option Duration}
  {rounds rounds' : List (Round κ α ρ)} {behaves : Nat → Nat → Call → Nat × α}

theorem Timetable.precedes (table : Timetable plan start pause? now rounds) {k : Nat}
    {r r' : Round κ α ρ} (here : rounds[k]? = some r) (next : rounds[k + 1]? = some r') :
    r.Precedes pause? r' := by
  obtain ⟨inside, rfl⟩ := List.getElem?_eq_some_iff.mp next
  obtain ⟨_, rfl⟩ := List.getElem?_eq_some_iff.mp here
  exact List.isChain_iff_getElem.mp table.next k inside

theorem Timetable.single (table : Timetable plan start none now rounds) : rounds.length ≤ 1 := by
  match rounds with
  | [] | [_] => simp
  | r :: r' :: later =>
    have follows : r.Precedes none r' := table.precedes (k := 0) rfl rfl
    obtain ⟨_, _, _, _, again, _⟩ := follows
    cases again

/-- A timetable has no room: what is asked, and when, is determined by its start, the pause, the agendas
    of the rounds, and how those behave who reply. -/
theorem Timetable.agrees (table : Timetable plan start pause? now rounds)
    (table' : Timetable plan start pause? now' rounds')
    (agendas : ∀ (k : Nat) (r r' : Round κ α ρ), rounds[k]? = some r → rounds'[k]? = some r' →
      r'.agenda = r.agenda)
    (obeys : ∀ (k : Nat) (r : Round κ α ρ), rounds[k]? = some r → r.Obeys (behaves k) now)
    (obeys' : ∀ (k : Nat) (r : Round κ α ρ), rounds'[k]? = some r → r.Obeys (behaves k) now') :
    Agrees now' rounds rounds' := by
  have member {rounds : List (Round κ α ρ)} {k : Nat} {r : Round κ α ρ}
      (here : rounds[k]? = some r) : r ∈ rounds := List.mem_of_getElem? here
  -- first, the rounds begin at the same times
  have begins (k : Nat) : ∀ r, rounds[k]? = some r → r.began < now' →
      ∃ r', rounds'[k]? = some r' ∧ r'.began = r.began := by
    induction k with
    | zero =>
      intro r here before
      have first := table.first r (by simpa [List.head?_eq_getElem?] using here)
      cases rounds' with
      | nil => exact absurd before (Nat.not_lt.mpr (first ▸ table'.due rfl))
      | cons r' later => exact ⟨r', rfl, (table'.first r' rfl).trans first.symm⟩
    | succ k inductionHypothesis =>
      intro r here before
      obtain ⟨inside, _⟩ := List.getElem?_eq_some_iff.mp here
      obtain ⟨r₀, here₀⟩ : ∃ r₀, rounds[k]? = some r₀ :=
        ⟨_, List.getElem?_eq_getElem (Nat.lt_of_succ_lt inside)⟩
      obtain ⟨t, result, pause, ended, again, began⟩ := table.precedes here₀ here
      have prompt := table.prompt r₀ (member here₀)
      have finished : t < now' := Nat.lt_of_le_of_lt (began ▸ Nat.le_add_right _ _) before
      have begun : r₀.began ≤ t := by
        obtain ⟨_, latest⟩ := (prompt.ends t).mp ⟨result, ended⟩
        exact latest ▸ prompt.began_le (obeys k r₀ here₀) r₀.instants_latest
      -- the round before has ended in the others at the same time, so the next one has begun
      obtain ⟨r₀', here₀', began₀⟩ := inductionHypothesis r₀ here₀ (Nat.lt_of_le_of_lt begun finished)
      obtain ⟨result', ended'⟩ := Round.ended_reaches prompt (obeys k r₀ here₀)
        (table'.prompt r₀' (member here₀')) (obeys' k r₀' here₀') (agendas k r₀ r₀' here₀ here₀')
        began₀ ended finished
      cases here' : rounds'[k + 1]? with
      | none =>
        have last : rounds'.getLast? = some r₀' := by
          have length : rounds'.length = k + 1 := by
            have inside := (List.getElem?_eq_some_iff.mp here₀').1
            have outside := List.getElem?_eq_none_iff.mp here'
            omega
          rw [List.getLast?_eq_getElem?, length]
          exact here₀'
        have late := table'.again r₀' last t result' pause ended' again
        exact absurd before (Nat.not_lt.mpr (began ▸ late))
      | some r' =>
        obtain ⟨t', _, pause', ended'', again', began'⟩ := table'.precedes here₀' here'
        rw [ended'] at ended''
        cases ended''
        rw [again] at again'
        cases again'
        exact ⟨r', rfl, began'.trans began.symm⟩
  intro k r here before
  obtain ⟨r', here', began⟩ := begins k r here before
  have prompt := table.prompt r (member here)
  have prompt' := table'.prompt r' (member here')
  have agenda := agendas k r r' here here'
  exact ⟨r', here', began,
    fun i t call => Round.asked_reaches prompt (obeys k r here) prompt' (obeys' k r' here') agenda began,
    fun t result => Round.ended_reaches prompt (obeys k r here) prompt' (obeys' k r' here') agenda began⟩

end

end RegistryCache
