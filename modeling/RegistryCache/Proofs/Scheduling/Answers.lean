import RegistryCache.Proofs.Quiescence

/-! # What those who wait for the loops are told

Whoever waits for the loops may give up and wait again, any number of times.  The result of the loops
is handed out once, to the first who sees them ended, and what was given up has taken nothing away.
The main statements are `World.Handing.run` and `World.Handing.tells`.
-/

namespace RegistryCache

namespace Scheduler

variable {s : Scheduler} {cache : MetadataCache} {now : Instant} {role : Role} {action : Action}
  {step : Step Scheduler}

/-- A catalog loop that has ended keeps its result. -/
theorem Turn.ended {result : Except RegistryError Unit} (turn : s.Turn cache now role action step)
    (ended : s.catalogLoop = .ended result) : step.next.catalogLoop = .ended result := by
  cases turn with
  | runCatalog latency => rw [settleCatalog, ended]; exact ended
  | join => rw [settleJoin, ended]; exact ended
  | runTags latency => exact (Turn.runTags latency).frame.2.trans ended
  | page waiting =>
    rw [ended] at waiting
    cases waiting
  | tags waiting going latency reply =>
    exact (Turn.tags waiting going latency reply).frame.2.trans ended

end Scheduler

namespace Interleaving

theorem Run.ended {σ σ' : Interleaving} {events : List Event} {j : Nat}
    {result : Except RegistryError Unit} (run : Run σ events σ')
    (ended : σ.Stands j (·.catalogLoop = .ended result)) :
    σ'.Stands j (·.catalogLoop = .ended result) :=
  run.keeps ended fun move stands => move.stands stands (fun _ ended => ended)
    fun _ _ _ _ turn ended => turn.ended ended

end Interleaving

namespace World

variable {ρ : Type} (reg : Registry ρ) (bound : Nat)

/-- What a command tells the one who gave it about the loops. -/
def answer? (w : World ρ) : Command → Option Waited
  | .wait ms => some (w.wait reg bound ms).2
  | .shutdown => some (w.shutdown reg).2
  | _ => none

/-- What was told in the course of a program. -/
def answers : World ρ → List Command → List Waited
  | _, [] => []
  | w, command :: later =>
    (w.answer? reg bound command).toList ++ answers (w.execute reg bound command) later

def Waited.isFinished : Waited → Bool
  | finished _ => true
  | _ => false

/-- What one is told who asks for the result: nothing once the loops are let go of; that all is well, if
    the result was told before; and the result otherwise, if there is one. -/
def Waited.due (released told : Bool) (result? : Option (Except RegistryError Unit)) : Waited :=
  match released, told, result? with
  | true, _, _ => nothing
  | false, true, _ => finished (.ok ())
  | false, false, some result => finished result
  | false, false, none => running

/-- The command lets go of the loops. -/
def Command.releases : Command → Bool
  | .release | .shutdown => true
  | _ => false

/-! ## What a command leaves alone -/

/-- As many loops as before, the last of them held as before, and their result taken or not as
    before. -/
def SameHandle (w w' : World ρ) : Prop :=
  w'.schedulers.length = w.schedulers.length ∧ w'.held = w.held ∧ w'.awaited = w.awaited

namespace SameHandle

variable {w w' w'' : World ρ}

theorem refl : w.SameHandle w := ⟨rfl, rfl, rfl⟩

theorem trans (first : w.SameHandle w') (second : w'.SameHandle w'') : w.SameHandle w'' :=
  ⟨second.1.trans first.1, second.2.1.trans first.2.1, second.2.2.trans first.2.2⟩

end SameHandle

variable {reg bound} {w : World ρ}

theorem sameHandle_settle : w.SameHandle (w.settle reg) := by
  have rest (schedulers : List Scheduler) (w : World ρ) :
      (schedulers.foldl (settleNext reg) w).held = w.held ∧
        (schedulers.foldl (settleNext reg) w).awaited = w.awaited := by
    induction schedulers generalizing w with
    | nil => exact ⟨rfl, rfl⟩
    | cons s later inductionHypothesis => exact inductionHypothesis (w.settleNext reg s)
  exact ⟨(settle_frame reg w).2, rest w.schedulers { w with schedulers := [] }⟩

theorem sameHandle_happen (i : Nat) (s : Scheduler) (e : Scheduler.Event) :
    w.SameHandle (w.happen reg i s e) := by
  cases e with
  | wake => exact sameHandle_settle
  | page | tags =>
    refine SameHandle.trans ?_ sameHandle_settle
    exact ⟨List.length_set .., rfl, rfl⟩

theorem sameHandle_advance {deadline : Instant} {enough : World ρ → Bool} {events : Nat} :
    w.SameHandle (w.advance reg deadline enough events) := by
  induction events generalizing w with
  | zero => exact ⟨rfl, rfl, rfl⟩
  | succ events inductionHypothesis =>
    unfold advance
    split
    · exact .refl
    · split
      · rename_i due i s e _
        split
        · let later : World ρ := { w with now := max w.now due }
          have happened : later.SameHandle (later.happen reg i s e) := sameHandle_happen i s e
          exact SameHandle.trans happened inductionHypothesis
        · exact ⟨rfl, rfl, rfl⟩
      · exact ⟨rfl, rfl, rfl⟩

theorem sameHandle_pass {ms : Nat} {enough : World ρ → Bool} {events : Nat} :
    w.SameHandle (w.pass reg events ms enough) := by
  unfold pass
  split
  · exact .refl
  · exact sameHandle_settle.trans sameHandle_advance

theorem sameHandle_follow {stopAt : Option Instant} {events : Nat}
    {going : Progress Activity Outcome} : w.SameHandle (follow reg stopAt events going w).1 := by
  induction events generalizing w going with
  | zero => cases going <;> exact .refl
  | succ events inductionHypothesis =>
    cases going with
    | done outcome => exact .refl
    | waiting activity =>
      unfold follow
      dsimp only
      split
      · exact (sameHandle_settle.trans sameHandle_advance).trans ⟨rfl, rfl, rfl⟩
      · let due := w.now + reg.latency w.registry activity.call
        let waited := w.pass reg events (due - w.now) fun _ => false
        let asked := waited.ask reg activity.call
        have passed : w.SameHandle waited := sameHandle_pass
        have heard : waited.SameHandle
            (asked.2.record (activity.receive asked.2.cache asked.2.now false asked.1)) :=
          ⟨rfl, rfl, rfl⟩
        exact (passed.trans heard).trans inductionHypothesis

theorem sameHandle_mapLast (f : Scheduler → Scheduler) : w.SameHandle (w.mapLast f) := by
  refine ⟨?_, rfl, rfl⟩
  unfold mapLast
  cases last : w.schedulers.getLast? with
  | none => rw [List.getLast?_eq_none_iff.mp last]
  | some s =>
    obtain ⟨before, equal⟩ := List.getLast?_eq_some_iff.mp last
    simp [equal]

/-! ## The result of the loops -/

theorem ended?_eq {j : Nat} (last : w.schedulers.length = j + 1) :
    w.ended? = w.schedulers[j]?.bind (·.catalogLoop.result?) := by
  rw [ended?, List.getLast?_eq_getElem?, last]
  rfl

theorem ended?_eq_some_iff {j : Nat} {a : Option Activity} {result : Except RegistryError Unit}
    (last : w.schedulers.length = j + 1) :
    w.ended? = some result ↔ (w.interleaving a).Stands j (·.catalogLoop = .ended result) := by
  rw [ended?_eq last, Option.bind_eq_some_iff]
  refine exists_congr fun s => and_congr Iff.rfl ?_
  cases loop : s.catalogLoop <;> simp [loop, CatalogLoop.result?]

/-- Loops that have ended keep their result, whatever becomes of the world. -/
theorem Becomes.ended? {w' : World ρ} {a b : Option Activity} {j : Nat}
    {result : Except RegistryError Unit} (becomes : w.Becomes a w' b)
    (last : w.schedulers.length = j + 1) (last' : w'.schedulers.length = j + 1)
    (ended : w.ended? = some result) : w'.ended? = some result := by
  obtain ⟨_, run, _⟩ := becomes
  exact (ended?_eq_some_iff last').mpr (run.ended ((ended?_eq_some_iff last).mp ended))

theorem ended?_mapLast_stop : (w.mapLast Scheduler.stop).ended? = w.ended? := by
  unfold ended? mapLast
  cases last : w.schedulers.getLast? with
  | none => rfl
  | some s => simp [Scheduler.stop]

/-- Taking the result marks it as taken and changes nothing else. -/
theorem takeResult_fst :
    w.takeResult.1 = { w with awaited := w.awaited || w.ended?.isSome } := by
  unfold takeResult
  cases ended : w.ended? with
  | none => simp
  | some result => simp

theorem takeResult_snd : w.takeResult.2 = match w.ended? with
    | some result => .finished (if w.awaited then .ok () else result)
    | none => .running := by
  unfold takeResult
  cases w.ended? <;> rfl

variable {command : Command} {answer : Waited}

/-- Whoever asks while the loops are held is given the result that there is at the end of the
    waiting, if there is one. -/
theorem asks_cases (ordered : (w.interleaving none).Ordered)
    (asks : w.answer? reg bound command = some answer) :
    (w.held = false ∧ answer = .nothing ∧ w.execute reg bound command = w) ∨
    (w.held = true ∧ ∃ v, w.SameHandle v ∧ w.Becomes none v none ∧ answer = v.takeResult.2 ∧
      (w.execute reg bound command).schedulers.length = v.schedulers.length ∧
      (w.execute reg bound command).held = !command.releases ∧
      (w.execute reg bound command).awaited = (v.awaited || v.ended?.isSome) ∧
      (w.execute reg bound command).ended? = v.ended?) := by
  cases held : w.held with
  | false =>
    cases command with
    | wait | shutdown =>
      cases asks
      exact .inl ⟨rfl, by simp [wait, shutdown, held], by simp [execute, wait, shutdown, held]⟩
    | perform | pass | start | release => cases asks
  | true =>
    refine .inr ⟨rfl, ?_⟩
    cases command with
    | wait ms =>
      cases asks
      obtain ⟨v, same, becomes, equal⟩ : ∃ v, w.SameHandle v ∧ w.Becomes none v none ∧
          w.wait reg bound ms = v.takeResult := by
        by_cases ended : w.ended?.isSome
        · exact ⟨w, .refl, .refl, by simp [wait, held, ended]⟩
        · exact ⟨w.pass reg bound ms fun w => w.ended?.isSome, sameHandle_pass,
            becomes_pass reg ordered, by simp [wait, held, ended]⟩
      refine ⟨v, same, becomes, by rw [equal], ?_⟩
      rw [execute, equal, takeResult_fst]
      exact ⟨rfl, same.2.1.trans held, rfl, rfl⟩
    | shutdown =>
      cases asks
      obtain ⟨v, same, becomes, equal⟩ : ∃ v, w.SameHandle v ∧ w.Becomes none v none ∧
          w.shutdown reg =
            ({ v.takeResult.1.mapLast Scheduler.stop with held := false }, v.takeResult.2) := by
        by_cases ended : w.ended?.isSome
        · exact ⟨w, .refl, .refl, by simp [shutdown, held, ended]⟩
        · have asked := becomes_stop (w := w) (a := none)
          exact ⟨_, (sameHandle_mapLast _).trans sameHandle_settle,
            asked.trans (becomes_settle reg (asked.ordered ordered)).1, by
              simp [shutdown, held, ended]⟩
      refine ⟨v, same, becomes, by rw [equal], ?_⟩
      rw [execute, equal, takeResult_fst]
      exact ⟨(sameHandle_mapLast _).1, rfl, rfl, ended?_mapLast_stop⟩
    | perform | pass | start | release => cases asks

/-! ## Any number of commands -/

/-- A command that asks for nothing changes nothing about the handle, except that it may let go. -/
theorem silent_cases (running : command ≠ .start)
    (silent : w.answer? reg bound command = none) :
    (w.execute reg bound command).schedulers.length = w.schedulers.length ∧
      (w.execute reg bound command).held = (w.held && !command.releases) ∧
      (w.execute reg bound command).awaited = w.awaited := by
  cases command with
  | perform operation stopAt =>
    obtain ⟨length, held, awaited⟩ : (w.record (operation.begin w.cache w.now)).SameHandle
        (w.perform reg bound operation stopAt).1 := sameHandle_follow
    exact ⟨length, held.trans (Bool.and_true _).symm, awaited⟩
  | pass ms =>
    obtain ⟨length, held, awaited⟩ : w.SameHandle (w.pass reg bound ms fun _ => false) :=
      sameHandle_pass
    exact ⟨length, held.trans (Bool.and_true _).symm, awaited⟩
  | release =>
    simp only [execute, release, Command.releases]
    split
    · exact ⟨(sameHandle_mapLast _).1, by simp, rfl⟩
    · exact ⟨rfl, by simp_all, rfl⟩
  | start => exact absurd rfl running
  | wait | shutdown => cases silent

/-- How a world stands to what has happened since its last loops were started. -/
structure Handing (j : Nat) (w : World ρ) (released told : Bool) : Prop where
  ordered : (w.interleaving none).Ordered
  last : w.schedulers.length = j + 1
  held : w.held = !released
  awaited : w.awaited = told
  ended : told = true → w.ended?.isSome = true

variable {j : Nat} {released told : Bool}

theorem Handing.length (handing : w.Handing j released told) (running : command ≠ .start) :
    (w.execute reg bound command).schedulers.length = j + 1 := by
  cases asks : w.answer? reg bound command with
  | none => exact (silent_cases running asks).1.trans handing.last
  | some answer =>
    obtain ⟨_, _, equal⟩ | ⟨_, v, same, _, _, length, _⟩ := asks_cases handing.ordered asks
    · rw [equal]
      exact handing.last
    · rw [length, same.1, handing.last]

/-- Loops that have ended keep their result through every command. -/
theorem Handing.result {result : Except RegistryError Unit} (handing : w.Handing j released told)
    (running : command ≠ .start) (ended : w.ended? = some result) :
    (w.execute reg bound command).ended? = some result :=
  (becomes_execute reg handing.ordered).ended? handing.last (handing.length running) ended

theorem Handing.execute (handing : w.Handing j released told) (running : command ≠ .start) :
    (w.execute reg bound command).Handing j (released || command.releases)
      (told || (w.answer? reg bound command).any Waited.isFinished) := by
  have becomes : w.Becomes none (w.execute reg bound command) none :=
    becomes_execute reg handing.ordered
  have ordered := becomes.ordered handing.ordered
  have length : (w.execute reg bound command).schedulers.length = j + 1 := handing.length running
  have stays (told : told = true) : (w.execute reg bound command).ended?.isSome = true := by
    obtain ⟨result, ended⟩ := Option.isSome_iff_exists.mp (handing.ended told)
    rw [handing.result running ended]
    rfl
  cases asks : w.answer? reg bound command with
  | none =>
    obtain ⟨_, held, awaited⟩ := silent_cases running asks
    refine ⟨ordered, length, ?_, ?_, ?_⟩
    · rw [held, handing.held, Bool.not_or]
    · simpa using awaited.trans handing.awaited
    · simpa using stays
  | some answer =>
    obtain ⟨free, rfl, equal⟩ | ⟨held, v, same, _, rfl, _, left, awaited, ended⟩ :=
      asks_cases handing.ordered asks
    · -- the loops are let go of already, and nobody is told anything
      have gone : released = true := by simpa [free] using handing.held
      refine ⟨ordered, length, ?_, ?_, ?_⟩
      · rw [equal, free, gone]
        rfl
      · simpa [equal, Waited.isFinished] using handing.awaited
      · simpa [Waited.isFinished] using stays
    · have kept : released = false := by simpa [held] using handing.held
      have finished : v.takeResult.2.isFinished = v.ended?.isSome := by
        rw [takeResult_snd]
        cases v.ended? <;> rfl
      refine ⟨ordered, length, ?_, ?_, ?_⟩
      · rw [left, kept]
        rfl
      · rw [awaited, same.2.2, handing.awaited, Option.any_some, finished]
      · intro either
        rw [Option.any_some, finished, Bool.or_eq_true] at either
        obtain told | now := either
        · exact stays told
        · rw [ended, now]

/-- Who asks is told the result that there is at the end of the waiting. -/
theorem Handing.tells (handing : w.Handing j released told)
    (asks : w.answer? reg bound command = some answer) :
    answer = .due released told (w.execute reg bound command).ended? := by
  obtain ⟨free, rfl, _⟩ | ⟨held, v, same, becomes, rfl, _, _, _, ended⟩ :=
    asks_cases handing.ordered asks
  · have gone : released = true := by simpa [free] using handing.held
    rw [gone]
    rfl
  · have kept : released = false := by simpa [held] using handing.held
    have awaited : v.awaited = told := same.2.2.trans handing.awaited
    rw [kept, ended, takeResult_snd, awaited]
    cases told with
    | false => cases v.ended? <;> rfl
    | true =>
      obtain ⟨result, finished⟩ := Option.isSome_iff_exists.mp (handing.ended rfl)
      rw [becomes.ended? handing.last (same.1.trans handing.last) finished]
      rfl

theorem Handing.run (handing : w.Handing j released told) {commands : List Command}
    (running : .start ∉ commands) :
    (commands.foldl (World.execute reg bound) w).Handing j
      (released || commands.any Command.releases)
      (told || (answers reg bound w commands).any Waited.isFinished) := by
  induction commands generalizing w released told with
  | nil => simpa [answers] using handing
  | cons command later inductionHypothesis =>
    obtain ⟨first, rest⟩ : command ≠ .start ∧ .start ∉ later := by
      simpa [eq_comm] using running
    have next : (w.execute reg bound command).Handing j (released || command.releases)
        (told || (w.answer? reg bound command).any Waited.isFinished) := handing.execute first
    have further := inductionHypothesis next rest
    have one : (w.answer? reg bound command).toList.any Waited.isFinished =
        (w.answer? reg bound command).any Waited.isFinished := by
      cases w.answer? reg bound command <;> simp
    simpa [answers, one, Bool.or_assoc] using further

end World

end RegistryCache
