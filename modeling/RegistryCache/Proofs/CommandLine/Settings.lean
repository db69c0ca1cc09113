import RegistryCache.CommandLine.Arguments
import RegistryCache.Proofs.Precedence

/-! # Writing settings

A setting can be written with the long name of its flag or with the short one, and its value right behind
the name, behind an equals sign, or as a word of its own.  All of these are read as the same setting,
before the command and behind it (`Written.passes`).
-/

namespace RegistryCache.CommandLine

/-! ## Ways to write -/

/-- The flags that are known at a place, by their long names. -/
def Place.known : Place → List (String × Flag)
  | .front => sharedFlags
  | .behind verb => sharedFlags ++ verb.ownFlags

def Dashless (word : String) : Prop := word.toList.head? ≠ some '-'

instance (word : String) : Decidable (Dashless word) := inferInstanceAs (Decidable (_ ≠ _))

/-- A text gives a setting its value. -/
inductive Setting.HasValue : Setting → String → Prop
  | text (t : TextFlag) (value : String) : HasValue (.text t value) value
  | number (n : NumberFlag) {value : String} {w : UInt64} (denotes : Text.Denotes value w) :
      HasValue (.number n w) value

/-- Settings as short flags: the letters behind one dash, and a word behind them if there is one. -/
inductive ShortForm : List Setting → List Char → List String → Prop
  | done : ShortForm [] [] []
  | switch {c : Char} {s : Switch} {settings : List Setting} {cs : List Char} {more : List String}
      (known : (c, .switch s) ∈ shortFlags) (rest : ShortForm settings cs more) :
      ShortForm (.on s :: settings) (c :: cs) more
  | attached {c : Char} {setting : Setting} {value : String} (known : (c, setting.flag) ∈ shortFlags)
      (has : setting.HasValue value) (solid : value ≠ "") (plain : value.toList.head? ≠ some '=') :
      ShortForm [setting] (c :: value.toList) []
  | assigned {c : Char} {setting : Setting} {value : String} (known : (c, setting.flag) ∈ shortFlags)
      (has : setting.HasValue value) : ShortForm [setting] (c :: '=' :: value.toList) []
  | apart {c : Char} {setting : Setting} {value : String} (known : (c, setting.flag) ∈ shortFlags)
      (has : setting.HasValue value) (dashless : Dashless value) : ShortForm [setting] [c] [value]

/-- Settings as they may be written at a place. -/
inductive Written (place : Place) : List Setting → List String → Prop
  | switch {name : String} {s : Switch} (known : (name, .switch s) ∈ place.known) :
      Written place [.on s] ["--" ++ name]
  | assigned {name value : String} {setting : Setting} (known : (name, setting.flag) ∈ place.known)
      (has : setting.HasValue value) : Written place [setting] ["--" ++ name ++ "=" ++ value]
  | apart {name value : String} {setting : Setting} (known : (name, setting.flag) ∈ place.known)
      (has : setting.HasValue value) (dashless : Dashless value) :
      Written place [setting] ["--" ++ name, value]
  | short {settings : List Setting} {c : Char} {cs : List Char} {more : List String}
      (form : ShortForm settings (c :: cs) more) :
      Written place settings (String.ofList ('-' :: c :: cs) :: more)

/-! ## Names and dashes -/

theorem Place.longFlag?_of_known {place : Place} {name : String} {flag : Flag}
    (known : (name, flag) ∈ place.known) :
    place.longFlag? name = some flag ∧ '=' ∉ name.toList ∧ name.toList ≠ [] := by
  have all : ∀ entry ∈ place.known, place.longFlag? entry.1 = some entry.2 ∧
      '=' ∉ entry.1.toList ∧ entry.1.toList ≠ [] := by
    rcases place with - | verb
    · decide +kernel
    · cases verb <;> decide +kernel
  exact all _ known

theorem Place.shortFlag?_of_known (place : Place) {c : Char} {flag : Flag}
    (known : (c, flag) ∈ shortFlags) : place.shortFlag? c = some flag ∧ c ≠ '-' := by
  have all : ∀ entry ∈ shortFlags, place.shortFlag? entry.1 = some entry.2 ∧ entry.1 ≠ '-' := by
    rcases place with - | verb
    · decide +kernel
    · cases verb <;> decide +kernel
  exact all _ known

theorem ShortForm.head_ne_dash {settings : List Setting} {c : Char} {cs : List Char}
    {more : List String} (form : ShortForm settings (c :: cs) more) : c ≠ '-' := by
  cases form with
  | switch known | attached known | assigned known | apart known =>
    exact (Place.shortFlag?_of_known .front known).2

section
variable {word : String} {cs : List Char} {c : Char}

theorem shape_long (spelled : word.toList = '-' :: '-' :: cs) (named : cs ≠ []) :
    shape word = .long cs := by
  unfold shape
  rw [spelled]
  cases cs with
  | nil => exact absurd rfl named
  | cons => rfl

theorem shape_short (spelled : word.toList = '-' :: c :: cs) (other : c ≠ '-') :
    shape word = .short (c :: cs) := by
  unfold shape
  rw [spelled]
  simp [other]

theorem shape_dashless (dashless : Dashless word) : shape word = .plain := by
  unfold Dashless at dashless
  unfold shape
  split <;> simp_all

/-- What begins with a dash is neither a command nor a call for help. -/
theorem ofName?_of_dash (spelled : word.toList = '-' :: cs) :
    Verb.ofName? word = none ∧ word ≠ "help" := by
  have names : ∀ entry ∈ Verb.all, entry.1.toList.head? ≠ some '-' := by decide +kernel
  constructor
  · rw [Verb.ofName?, List.lookup_eq_none_iff]
    intro entry listed
    rw [bne_iff_ne]
    rintro rfl
    exact names entry listed (by rw [spelled]; rfl)
  · rintro rfl
    cases spelled

end

/-! ## What is known after reading -/

namespace Gathered

/-- What has been read comes down to settings and words, once the last value is looked at. -/
structure Holds (g : Gathered) (settings : List Setting) (words : List String) : Prop where
  settled : g.settle = .ok ⟨settings, words, none⟩
  counted : g.words = words

variable {g : Gathered} {settings : List Setting} {words : List String} {setting : Setting}
  {value : String}

theorem holds_nothing : nothing.Holds [] [] := ⟨rfl, rfl⟩

theorem holds_of_done : (⟨settings, words, none⟩ : Gathered).Holds settings words := ⟨rfl, rfl⟩

theorem Holds.calm (holds : g.Holds settings words) : g.isWaiting = false := by
  have settled := holds.settled
  unfold settle at settled
  unfold isWaiting
  split at settled
  · rename_i idle
    rw [idle]
  · cases settled
  · rename_i pending
    rw [pending]

theorem add_of_fresh (fresh : setting.flag ∉ g.settings.map Setting.flag) :
    g.add setting = .ok { g with settings := g.settings ++ [setting] } := by
  rw [add, if_neg]
  simpa using fresh

theorem addValue_of_fresh (has : setting.HasValue value)
    (fresh : setting.flag ∉ g.settings.map Setting.flag) :
    g.addValue setting.flag value = .ok { g with settings := g.settings ++ [setting] } := by
  cases has with
  | text t => exact add_of_fresh fresh
  | number n denotes =>
    unfold addValue Setting.flag
    dsimp only
    rw [Text.word?_eq_some_iff.mpr denotes]
    exact add_of_fresh fresh

section
variable (holds : g.Holds settings words)

include holds

theorem Holds.takeSwitch {s : Switch} (fresh : Flag.switch s ∉ settings.map Setting.flag) :
    g.takeFlag (.switch s) none = .ok ⟨settings ++ [.on s], words, none⟩ := by
  unfold takeFlag
  dsimp only
  rw [holds.settled]
  exact add_of_fresh (show (Setting.on s).flag ∉ _ from fresh)

theorem Holds.takeValue (has : setting.HasValue value)
    (fresh : setting.flag ∉ settings.map Setting.flag) :
    g.takeFlag setting.flag (some value) = .ok ⟨settings ++ [setting], words, none⟩ := by
  have added := addValue_of_fresh (g := ⟨settings, words, none⟩) has fresh
  unfold takeFlag
  cases has <;>
  · dsimp only [Setting.flag]
    rw [holds.settled]
    exact added

/-- A flag without its value waits for it. -/
theorem Holds.takeBare (has : setting.HasValue value) :
    g.takeFlag setting.flag none = .ok ⟨settings, words, some ⟨setting.flag, none⟩⟩ := by
  unfold takeFlag
  cases has <;>
  · dsimp only [Setting.flag]
    rw [holds.settled]
    rfl

end

theorem holds_pending (has : setting.HasValue value)
    (fresh : setting.flag ∉ settings.map Setting.flag) :
    (⟨settings, words, some ⟨setting.flag, some value⟩⟩ : Gathered).Holds (settings ++ [setting])
      words :=
  ⟨addValue_of_fresh (g := ⟨settings, words, none⟩) has fresh, rfl⟩

end Gathered

/-! ## Reading on -/

/-- At a place some words lead from what was known before to what is known after, whatever follows. -/
def Passes : Place → Gathered → List String → Gathered → Prop
  | .front, g, ws, g' => ∀ rest, readFront g (ws ++ rest) = readFront g' rest
  | .behind verb, g, ws, g' =>
    ∀ rest, readBehind verb false g (ws ++ rest) = readBehind verb false g' rest

variable {place : Place} {g g' g'' : Gathered} {settings before : List Setting}
  {words : List String}

theorem Passes.refl (place : Place) (g : Gathered) : Passes place g [] g := by
  cases place <;> exact fun _ => rfl

theorem Passes.trans {ws ws' : List String} (first : Passes place g ws g')
    (second : Passes place g' ws' g'') : Passes place g (ws ++ ws') g'' := by
  cases place <;>
  · intro rest
    rw [List.append_assoc]
    exact (first (ws' ++ rest)).trans (second rest)

theorem passes_long {word : String} {cs : List Char} (calm : g.isWaiting = false)
    (spelled : word.toList = '-' :: '-' :: cs) (named : cs ≠ [])
    (taken : g.takeLong place cs = .ok g') : Passes place g [word] g' := by
  obtain ⟨unnamed, unhelpful⟩ := ofName?_of_dash spelled
  have shaped := shape_long spelled named
  cases place with
  | front =>
    intro rest
    rw [List.singleton_append]
    conv => lhs; unfold readFront
    simp [calm, unnamed, unhelpful, shaped, taken, bind, Except.bind]
  | behind verb =>
    intro rest
    rw [List.singleton_append, readBehind, shaped]
    dsimp only
    rw [taken]
    rfl

theorem passes_short {word : String} {c : Char} {cs : List Char} (calm : g.isWaiting = false)
    (spelled : word.toList = '-' :: c :: cs) (other : c ≠ '-')
    (taken : g.takeShort place (c :: cs) = .ok g') : Passes place g [word] g' := by
  obtain ⟨unnamed, unhelpful⟩ := ofName?_of_dash spelled
  have shaped := shape_short spelled other
  cases place with
  | front =>
    intro rest
    rw [List.singleton_append]
    conv => lhs; unfold readFront
    simp [calm, unnamed, unhelpful, shaped, taken, bind, Except.bind]
  | behind verb =>
    intro rest
    rw [List.singleton_append, readBehind, shaped]
    dsimp only
    rw [taken]
    rfl

/-- A word is the value of a flag that waits for one, even if it names a command. -/
theorem passes_value {flag : Flag} {value : String} (dashless : Dashless value) :
    Passes place ⟨settings, words, some ⟨flag, none⟩⟩ [value]
      ⟨settings, words, some ⟨flag, some value⟩⟩ := by
  have shaped := shape_dashless dashless
  cases place with
  | front =>
    intro rest
    rw [List.singleton_append]
    conv => lhs; unfold readFront
    simp [Gathered.isWaiting, shaped]
  | behind verb =>
    intro rest
    rw [List.singleton_append, readBehind, shaped]

theorem passes_word {verb : Verb} {word : String} (holds : g.Holds settings words)
    (dashless : Dashless word) (room : words.length < verb.mostWords) :
    Passes (.behind verb) g [word] ⟨settings, words ++ [word], none⟩ := by
  have taken : g.takeWord verb word = .ok ⟨settings, words ++ [word], none⟩ := by
    rw [Gathered.takeWord, holds.counted, if_pos room, holds.settled]
    rfl
  have calm := holds.calm
  intro rest
  rw [List.singleton_append, readBehind, shape_dashless dashless]
  dsimp only
  -- No flag waits for a value, so this is not one.
  split
  · rename_i waiting
    rw [Gathered.isWaiting, waiting] at calm
    cases calm
  · rw [taken]
    rfl

/-! ## Settings are read as they are written -/

/-- A long name with no value, or with one behind an equals sign. -/
theorem takeLong_of_known {name : String} {flag : Flag} (known : (name, flag) ∈ place.known)
    (value : Option String) :
    g.takeLong place (name.toList ++ (value.elim [] fun value => '=' :: value.toList)) =
      g.takeFlag flag value := by
  obtain ⟨found, unequal, -⟩ := Place.longFlag?_of_known known
  unfold Gathered.takeLong
  cases value with
  | none => simp [Text.cut?_of_notMem unequal, found]
  | some value => simp [Text.cut?_append_separator unequal, found]

theorem takeShort_value {c : Char} {setting : Setting} {value : String}
    (known : (c, setting.flag) ∈ shortFlags) (has : setting.HasValue value) (cs : List Char) :
    g.takeShort place (c :: cs) = g.takeFlag setting.flag (Gathered.takeShort.attached cs) := by
  have found := (Place.shortFlag?_of_known place known).1
  unfold Gathered.takeShort
  rw [found]
  cases has <;> rfl

theorem fresh_of_nodup {setting : Setting}
    (distinct : ((before ++ setting :: settings).map Setting.flag).Nodup) :
    setting.flag ∉ before.map Setting.flag := by
  rw [List.map_append, List.nodup_append] at distinct
  intro member
  exact distinct.2.2 _ member _ List.mem_cons_self rfl

/-- Words are read, and then the place has come to such settings and words. -/
def Reaches (place : Place) (g : Gathered) (ws : List String) (settings : List Setting)
    (words : List String) : Prop :=
  ∃ g', Passes place g ws g' ∧ g'.Holds settings words

theorem ShortForm.reaches (place : Place) {cs : List Char} {more : List String}
    (form : ShortForm settings cs more) (holds : g.Holds before words)
    (distinct : ((before ++ settings).map Setting.flag).Nodup) :
    ∃ g', g.takeShort place cs = .ok g' ∧ Reaches place g' more (before ++ settings) words := by
  -- Switches are added one by one, until the letters are used up or a flag takes what is left.
  induction form generalizing g before with
  | done => exact ⟨g, rfl, g, .refl place g, by simpa using holds⟩
  | switch known rest inductionHypothesis =>
    have fresh := fresh_of_nodup distinct
    rw [List.append_cons] at distinct ⊢
    obtain ⟨g', taken, further⟩ := inductionHypothesis Gathered.holds_of_done distinct
    refine ⟨g', ?_, further⟩
    unfold Gathered.takeShort
    rw [(Place.shortFlag?_of_known place known).1]
    dsimp only
    rw [holds.takeSwitch fresh]
    exact taken
  | @attached c setting value known has solid plain =>
    have attached : Gathered.takeShort.attached value.toList = some value := by
      unfold Gathered.takeShort.attached
      split
      · rename_i blank
        exact absurd (String.toList_eq_nil_iff.mp blank) solid
      · rename_i equals
        rw [equals] at plain
        exact absurd rfl plain
      · rw [String.ofList_toList]
    refine ⟨_, ?_, _, .refl place _, Gathered.holds_of_done⟩
    rw [takeShort_value known has, attached, holds.takeValue has (fresh_of_nodup distinct)]
  | @assigned c setting value known has =>
    refine ⟨_, ?_, _, .refl place _, Gathered.holds_of_done⟩
    rw [takeShort_value known has, Gathered.takeShort.attached, String.ofList_toList,
      holds.takeValue has (fresh_of_nodup distinct)]
  | apart known has dashless =>
    refine ⟨_, ?_, _, passes_value dashless, Gathered.holds_pending has (fresh_of_nodup distinct)⟩
    rw [takeShort_value known has, Gathered.takeShort.attached, holds.takeBare has]

/-- Settings are read as they are written, at any place where their flags are known and have not been
    given before. -/
theorem Written.reaches {ws : List String} (written : Written place settings ws)
    (holds : g.Holds before words) (distinct : ((before ++ settings).map Setting.flag).Nodup) :
    Reaches place g ws (before ++ settings) words := by
  have dashes (name : String) : ("--" ++ name).toList = '-' :: '-' :: name.toList := by simp
  cases written with
  | @switch name s known =>
    have named := (Place.longFlag?_of_known known).2.2
    have taken := takeLong_of_known (g := g) known none
    rw [holds.takeSwitch (fresh_of_nodup distinct)] at taken
    exact ⟨_, passes_long holds.calm (dashes name) named (by simpa using taken),
      Gathered.holds_of_done⟩
  | @assigned name value setting known has =>
    have named := (Place.longFlag?_of_known known).2.2
    have taken := takeLong_of_known (g := g) known (some value)
    rw [holds.takeValue has (fresh_of_nodup distinct)] at taken
    refine ⟨_, passes_long holds.calm ?_ ?_ taken, Gathered.holds_of_done⟩
    · simp
    · simp
  | @apart name value setting known has dashless =>
    have named := (Place.longFlag?_of_known known).2.2
    have taken := takeLong_of_known (g := g) known none
    rw [holds.takeBare has] at taken
    have waits := passes_long holds.calm (dashes name) named (by simpa using taken)
    exact ⟨_, waits.trans (passes_value dashless),
      Gathered.holds_pending has (fresh_of_nodup distinct)⟩
  | @short settings c cs more form =>
    obtain ⟨g', taken, g'', passes, holds'⟩ := form.reaches place holds distinct
    have first := passes_short holds.calm String.toList_ofList form.head_ne_dash taken
    exact ⟨g'', first.trans passes, holds'⟩

end RegistryCache.CommandLine
