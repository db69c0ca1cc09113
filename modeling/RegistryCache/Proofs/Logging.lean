import Mathlib.Data.List.Basic
import RegistryCache.Proofs.Interleaving.Worlds

/-! # Logging never interferes

How chatty a program is decides which notices are printed, and nothing else.  No operation of a world
looks at the notices on its record: it puts its own behind them, whatever they are
(`World.execute_precede`).  So a logger may drop some of them at any time (`World.hush`), and runs under
loggers of different verbosity differ in what is on record of their notices and in nothing else.  What
they print is compared notice by notice: errors are printed at every verbosity, on a stream of their
own, and everything else by loggers that are not quiet.  The main statement is
`World.logging_never_interferes`.
-/

namespace RegistryCache

/-! ## What is printed -/

namespace Notice

theorem stream_line_eq_err_iff (n : Notice) : n.line.stream = .err ↔ n.level = .error := by
  unfold line
  cases n.level <;> simp

/-- All that a verbosity shows is shown at another one. -/
def Covers (v v' : Verbosity) : Prop := ∀ level, shownAt v level = true → shownAt v' level = true

theorem full_covers_normal : Covers .normal .full := by
  intro level
  cases level <;> decide

/-- Who is quiet shows errors only. -/
theorem shownAt_of_quiet {v : Verbosity} (quiet : v.quiet = true) (level : Level) :
    shownAt v level = true ↔ level = .error := by
  cases level <;> simp [shownAt, quiet]

/-- The notices of a list that a logger of some verbosity prints. -/
def shown (v : Verbosity) (notices : List Notice) : List Notice :=
  notices.filter fun n => shownAt v n.level

/-- The lines for some notices on one of the streams. -/
def linesOn (stream : Stream) (notices : List Notice) : List Line :=
  (notices.map line).filter (·.stream = stream)

theorem flatMap_lines (v : Verbosity) (notices : List Notice) :
    notices.flatMap (lines v) = (shown v notices).map line := by
  induction notices with
  | nil => rfl
  | cons n rest inductionHypothesis =>
    by_cases shows : shownAt v n.level = true
    · simp [lines, shown, shows, inductionHypothesis]
    · simp [lines, shown, shows, inductionHypothesis]

/-- All errors are printed, whatever the verbosity. -/
theorem linesOn_err_shown (v : Verbosity) (notices : List Notice) :
    linesOn .err (shown v notices) = linesOn .err notices := by
  rw [linesOn, linesOn, shown, List.filter_map, List.filter_map, List.filter_filter]
  congr 2
  funext n
  by_cases error : n.level = .error
  · simp [stream_line_eq_err_iff, error, shownAt]
  · simp [stream_line_eq_err_iff, error]

theorem linesOn_out_shown_of_quiet {v : Verbosity} (quiet : v.quiet = true) (notices : List Notice) :
    linesOn .out (shown v notices) = [] := by
  refine List.filter_eq_nil_iff.mpr ?_
  intro printed member
  obtain ⟨n, shows, rfl⟩ := List.mem_map.mp member
  have error := (shownAt_of_quiet quiet _).mp (List.mem_filter.mp shows).2
  rw [decide_eq_true_eq, (stream_line_eq_err_iff n).mpr error]
  exact Stream.noConfusion

theorem linesOn_shown_sublist {v v' : Verbosity} (covers : Covers v v') (stream : Stream)
    (notices : List Notice) :
    (linesOn stream (shown v notices)).Sublist (linesOn stream (shown v' notices)) :=
  ((List.monotone_filter_right notices fun n => covers n.level).map line).filter _

end Notice

namespace World

variable {ρ : Type} (reg : Registry ρ) (bound : Nat) (n : Array Notice) (w : World ρ)

/-! ## Notices are carried along -/

/-- A world that has further notices on record, before its own. -/
def precede : World ρ := { w with notices := n ++ w.notices }

@[simp] theorem now_precede : (w.precede n).now = w.now := rfl

@[simp] theorem registry_precede : (w.precede n).registry = w.registry := rfl

@[simp] theorem cache_precede : (w.precede n).cache = w.cache := rfl

@[simp] theorem schedulers_precede : (w.precede n).schedulers = w.schedulers := rfl

@[simp] theorem held_precede : (w.precede n).held = w.held := rfl

@[simp] theorem awaited_precede : (w.precede n).awaited = w.awaited := rfl

@[simp] theorem nextEvent?_precede : (w.precede n).nextEvent? = w.nextEvent? := rfl

@[simp] theorem ended?_precede : (w.precede n).ended? = w.ended? := rfl

theorem record_precede (step : Step α) :
    (w.precede n).record step = (w.record step).precede n := by
  have joined : n ++ w.notices ++ step.notices = n ++ (w.notices ++ step.notices) :=
    Array.ext' (by simp)
  simp [record, precede, joined]

theorem ask_precede (call : Call) :
    (w.precede n).ask reg call = ((w.ask reg call).1, (w.ask reg call).2.precede n) := by
  have joined (own : List Notice) : n ++ w.notices ++ own = n ++ (w.notices ++ own) :=
    Array.ext' (by simp)
  simp [ask, precede, joined]

theorem take_precede (i : Nat) (step : Step Scheduler) :
    (w.precede n).take i step = (w.take i step).precede n := by
  simp only [take, record_precede]
  rfl

theorem settleNext_precede (s : Scheduler) :
    (w.precede n).settleNext reg s = (w.settleNext reg s).precede n := by
  simp only [settleNext, record_precede]
  rfl

theorem settle_precede : (w.precede n).settle reg = (w.settle reg).precede n := by
  have rest (schedulers : List Scheduler) (w : World ρ) :
      schedulers.foldl (settleNext reg) (w.precede n) =
        (schedulers.foldl (settleNext reg) w).precede n := by
    induction schedulers generalizing w with
    | nil => rfl
    | cons s later inductionHypothesis =>
      rw [List.foldl_cons, List.foldl_cons, settleNext_precede, inductionHypothesis]
  exact rest w.schedulers { w with schedulers := [] }

theorem happen_precede (i : Nat) (s : Scheduler) (e : Scheduler.Event) :
    (w.precede n).happen reg i s e = (w.happen reg i s e).precede n := by
  cases e with
  | wake => exact settle_precede reg n w
  | page walk =>
    let heard := (w.ask reg walk.call).2.take i (s.receivePage walk
      (reg.latency (w.ask reg walk.call).2.registry) (w.ask reg walk.call).2.cache
      (w.ask reg walk.call).2.now (w.ask reg walk.call).1)
    have heard_precede : (w.precede n).happen reg i s (.page walk) =
        (heard.precede n).settle reg := by
      rw [← take_precede]
      simp only [happen, ask_precede]
      rfl
    rw [heard_precede, settle_precede]
    rfl
  | tags pass =>
    let heard := (w.ask reg pass.call).2.take i (s.receiveTags pass
      (reg.latency (w.ask reg pass.call).2.registry) (w.ask reg pass.call).2.cache
      (w.ask reg pass.call).2.now (w.ask reg pass.call).1)
    have heard_precede : (w.precede n).happen reg i s (.tags pass) =
        (heard.precede n).settle reg := by
      rw [← take_precede]
      simp only [happen, ask_precede]
      rfl
    rw [heard_precede, settle_precede]
    rfl

theorem advance_precede {deadline : Instant} (enough : World ρ → Bool)
    (blind : ∀ w, enough (w.precede n) = enough w) (events : Nat) :
    (w.precede n).advance reg deadline enough events =
      (w.advance reg deadline enough events).precede n := by
  induction events generalizing w with
  | zero => rfl
  | succ events inductionHypothesis =>
    unfold advance
    rw [blind, nextEvent?_precede]
    split
    · rfl
    · split
      · rename_i due i s e _
        split
        · have jumped : ({ w.precede n with now := max w.now due } : World ρ) =
              ({ w with now := max w.now due } : World ρ).precede n := rfl
          rw [now_precede, jumped, happen_precede, inductionHypothesis]
        · rfl
      · rfl

theorem pass_precede (enough : World ρ → Bool) (blind : ∀ w, enough (w.precede n) = enough w)
    (ms : Nat) :
    (w.precede n).pass reg bound ms enough = (w.pass reg bound ms enough).precede n := by
  unfold pass
  split
  · rfl
  · rw [settle_precede, advance_precede reg n _ enough blind, now_precede]

theorem mapLast_precede (f : Scheduler → Scheduler) :
    (w.precede n).mapLast f = (w.mapLast f).precede n := rfl

theorem release_precede : (w.precede n).release = w.release.precede n := by
  unfold release
  rw [held_precede]
  split <;> rfl

theorem start_precede : (w.precede n).start = w.start.precede n := by
  unfold start
  rw [release_precede]
  rfl

theorem takeResult_precede :
    (w.precede n).takeResult = (w.takeResult.1.precede n, w.takeResult.2) := by
  unfold takeResult
  rw [ended?_precede]
  split <;> rfl

theorem wait_precede (ms : Nat) : (w.precede n).wait reg bound ms =
    ((w.wait reg bound ms).1.precede n, (w.wait reg bound ms).2) := by
  unfold wait
  rw [held_precede, ended?_precede]
  split
  · rfl
  · split
    · exact takeResult_precede n w
    · rw [pass_precede reg bound n w _ (fun w => by rw [ended?_precede]), takeResult_precede]

theorem shutdown_precede : (w.precede n).shutdown reg =
    ((w.shutdown reg).1.precede n, (w.shutdown reg).2) := by
  unfold shutdown
  rw [held_precede, ended?_precede]
  split
  · rfl
  · by_cases ended : w.ended?.isSome = true
    · rw [if_pos ended, if_pos ended, takeResult_precede]
      rfl
    · rw [if_neg ended, if_neg ended, mapLast_precede, settle_precede, takeResult_precede]
      rfl

theorem follow_precede (stopAt : Option Instant) (events : Nat)
    (going : Progress Activity Outcome) : follow reg stopAt events going (w.precede n) =
      ((follow reg stopAt events going w).1.precede n, (follow reg stopAt events going w).2) := by
  induction events generalizing w going with
  | zero => cases going <;> rfl
  | succ events inductionHypothesis =>
    cases going with
    | done outcome => rfl
    | waiting activity =>
      let due := w.now + reg.latency w.registry activity.call
      cases stops : stopAt.filter (· < due) with
      | some stop =>
        have stops' : stopAt.filter (· < (w.precede n).now +
            reg.latency (w.precede n).registry activity.call) = some stop := stops
        simp only [follow, stops', stops, due]
        simp only [settle_precede, advance_precede reg n _ (fun _ => false) (fun _ => rfl),
          cache_precede, now_precede, record_precede]
      | none =>
        have stops' : stopAt.filter (· < (w.precede n).now +
            reg.latency (w.precede n).registry activity.call) = none := stops
        simp only [follow, stops', stops, due]
        simp only [pass_precede reg events n w (fun _ => false) (fun _ => rfl), ask_precede,
          cache_precede, now_precede, registry_precede, record_precede, inductionHypothesis]

theorem perform_precede (operation : Operation) (stopAt : Option Instant) :
    (w.precede n).perform reg bound operation stopAt =
      ((w.perform reg bound operation stopAt).1.precede n,
        (w.perform reg bound operation stopAt).2) := by
  simp only [perform, cache_precede, now_precede, record_precede, follow_precede]

/-! ## Commands -/

/-- What a command gives back to the one who gave it. -/
inductive Told where
  | outcome (outcome : Option Outcome)
  | waited (waited : Waited)
  | nothing

def told : Command → Told
  | .perform operation stopAt => .outcome (w.perform reg bound operation stopAt).2
  | .wait ms => .waited (w.wait reg bound ms).2
  | .shutdown => .waited (w.shutdown reg).2
  | .pass _ | .start | .release => .nothing

/-- A command does the same and gives back the same, whatever is on record of notices. -/
theorem execute_precede (command : Command) :
    (w.precede n).execute reg bound command = (w.execute reg bound command).precede n ∧
      (w.precede n).told reg bound command = w.told reg bound command := by
  cases command with
  | perform operation stopAt => simp only [execute, told, perform_precede, and_self]
  | pass ms => exact ⟨pass_precede reg bound n w _ (fun _ => rfl) ms, rfl⟩
  | start => exact ⟨start_precede n w, rfl⟩
  | wait ms => simp only [execute, told, wait_precede, and_self]
  | release => exact ⟨release_precede n w, rfl⟩
  | shutdown => simp only [execute, told, shutdown_precede, and_self]

/-! ## Loggers -/

/-- What a logger leaves on record: the notices that it has printed. -/
def hush (v : Verbosity) (w : World ρ) : World ρ :=
  { w with notices := w.notices.filter fun n => Notice.shownAt v n.level }

/-- A world without notices on record. -/
def unheard (w : World ρ) : World ρ := { w with notices := #[] }

theorem precede_unheard : w.unheard.precede w.notices = w := by
  simp [precede, unheard]

theorem hush_eq_precede (v : Verbosity) :
    w.hush v = w.unheard.precede (w.notices.filter fun n => Notice.shownAt v n.level) := by
  simp [hush, precede, unheard]

theorem hush_precede (v : Verbosity) :
    (w.precede n).hush v = (w.hush v).precede (n.filter fun n => Notice.shownAt v n.level) := by
  simp [hush, precede]

/-- Runs commands under a logger: what is not to be printed is dropped after each of them.  Tells what
    each command gave back. -/
def session (v : Verbosity) : World ρ → List Command → World ρ × List Told
  | w, [] => (w.hush v, [])
  | w, command :: later =>
    let (last, rest) := session v ((w.execute reg bound command).hush v) later
    (last, w.told reg bound command :: rest)

/-- What commands give back, one after the other. -/
def toldBy : World ρ → List Command → List Told
  | _, [] => []
  | w, command :: later =>
    w.told reg bound command :: toldBy (w.execute reg bound command) later

theorem commands_precede (commands : List Command) :
    commands.foldl (execute reg bound) (w.precede n) =
        (commands.foldl (execute reg bound) w).precede n ∧
      toldBy reg bound (w.precede n) commands = toldBy reg bound w commands := by
  induction commands generalizing w with
  | nil => exact ⟨rfl, rfl⟩
  | cons command later inductionHypothesis =>
    obtain ⟨same, answer⟩ := execute_precede reg bound n w command
    obtain ⟨world, answers⟩ := inductionHypothesis (w.execute reg bound command)
    simp only [List.foldl_cons, toldBy, same, answer, world, answers, and_self]

/-- Dropping notices beforehand is dropping them afterwards. -/
theorem commands_hush (v : Verbosity) (commands : List Command) :
    (commands.foldl (execute reg bound) (w.hush v)).hush v =
        (commands.foldl (execute reg bound) w).hush v ∧
      toldBy reg bound (w.hush v) commands = toldBy reg bound w commands := by
  obtain ⟨hushed, answers⟩ := commands_precede reg bound
    (w.notices.filter fun n => Notice.shownAt v n.level) w.unheard commands
  obtain ⟨heard, answers'⟩ := commands_precede reg bound w.notices w.unheard commands
  rw [precede_unheard] at heard answers'
  rw [hush_eq_precede w v, hushed, answers, heard, answers', hush_precede, hush_precede]
  simp

/-- A run under a logger is the run without one, of which the logger has dropped what it does not
    print. -/
theorem session_eq (v : Verbosity) (commands : List Command) :
    session reg bound v w commands =
      ((commands.foldl (execute reg bound) w).hush v, toldBy reg bound w commands) := by
  induction commands generalizing w with
  | nil => rfl
  | cons command later inductionHypothesis =>
    obtain ⟨world, answers⟩ := commands_hush reg bound (w.execute reg bound command) v later
    rw [session, inductionHypothesis, world, answers]
    rfl

/-- What was printed on a stream: the lines for the notices that the logger has left on record. -/
def printed (stream : Stream) (w : World ρ) : List Line := Notice.linesOn stream w.notices.toList

theorem printed_hush (stream : Stream) (v : Verbosity) :
    (w.hush v).printed stream = Notice.linesOn stream (Notice.shown v w.notices.toList) := by
  simp [printed, hush, Notice.shown]

/-- Whatever the registry answers and whatever is done with a cache that knew nothing, runs under loggers
    of any two verbosities give the same results and begin the same calls at the same instants; the
    catalog, the tags and the jobs that they leave behind are the same, and so is everything else but
    the notices on record; and they print the same lines for errors.  A quiet logger prints nothing
    else, and a normal one a part of what a verbose one prints, in the same order.  Each prints what its
    verbosity makes of the notices of the run without a logger. -/
theorem logging_never_interferes (policy : RefreshPolicy) (registry : ρ) (commands : List Command) :
    let run (v : Verbosity) := session reg bound v (fresh policy registry) commands
    (∀ v v', (run v).2 = (run v').2 ∧ (run v).1.calls = (run v').1.calls ∧
      (run v).1.cache = (run v').1.cache ∧ (run v).1.unheard = (run v').1.unheard ∧
      (run v).1.printed .err = (run v').1.printed .err) ∧
    (run .silent).1.printed .out = [] ∧
    ((run .normal).1.printed .out).Sublist ((run .full).1.printed .out) ∧
    ∀ v stream, (run v).1.printed stream =
      ((commands.foldl (execute reg bound) (fresh policy registry)).notices.toList.flatMap
        (Notice.lines v)).filter (·.stream = stream) := by
  intro run
  let last := commands.foldl (execute reg bound) (fresh policy registry)
  have runs (v : Verbosity) :
      run v = (last.hush v, toldBy reg bound (fresh policy registry) commands) :=
    session_eq reg bound (fresh policy registry) v commands
  have printed_run (v : Verbosity) (stream : Stream) : (run v).1.printed stream =
      Notice.linesOn stream (Notice.shown v last.notices.toList) := by
    rw [runs, printed_hush]
  simp only [printed_run]
  refine ⟨?_, ?_, ?_, ?_⟩
  · intro v v'
    rw [runs v, runs v', Notice.linesOn_err_shown, Notice.linesOn_err_shown]
    exact ⟨rfl, rfl, rfl, rfl, rfl⟩
  · exact Notice.linesOn_out_shown_of_quiet rfl _
  · exact Notice.linesOn_shown_sublist Notice.full_covers_normal .out _
  · intro v stream
    rw [Notice.linesOn, ← Notice.flatMap_lines]

end World

end RegistryCache
