import Mathlib.Data.List.Nodup
import RegistryCache.Proofs.CommandLine.Settings

/-! # Where settings stand

The settings of a command may stand before it, behind it, and between its words.  Nothing depends on
where they do, or in which order, as long as no flag is given twice (`Arguments.parse_placed`).
-/

namespace RegistryCache

namespace CommandLine

/-! ## Lines -/

/-- Words at a place, with settings among them.  Before a command there are only settings. -/
inductive Laid : Place → List Setting → List String → List String → Prop
  | nil {place : Place} : Laid place [] [] []
  | settings {place : Place} {first later : List Setting} {words ws line : List String}
      (written : Written place first ws) (rest : Laid place later words line) :
      Laid place (first ++ later) words (ws ++ line)
  | word {verb : Verb} {settings : List Setting} {word : String} {words line : List String}
      (dashless : Dashless word) (rest : Laid (.behind verb) settings words line) :
      Laid (.behind verb) settings (word :: words) (word :: line)

/-- A line with a command, its words in order, and its settings anywhere in any order. -/
inductive Placed (verb : Verb) (words : List String) (settings : List Setting) : List String → Prop
  | line {name : String} {front behind : List String} {before after : List Setting}
      (named : (name, verb) ∈ Verb.all) (first : Laid .front before [] front)
      (last : Laid (.behind verb) after words behind) (all : (after ++ before).Perm settings) :
      Placed verb words settings (front ++ name :: behind)

variable {place : Place} {verb : Verb} {g : Gathered} {settings before : List Setting}
  {words earlier line : List String}

theorem Reaches.trans {ws ws' words' : List String} {after : List Setting}
    (first : Reaches place g ws before words)
    (second : ∀ g', g'.Holds before words → Reaches place g' ws' after words') :
    Reaches place g (ws ++ ws') after words' := by
  obtain ⟨g', passes, holds⟩ := first
  obtain ⟨g'', passes', holds'⟩ := second g' holds
  exact ⟨g'', passes.trans passes', holds'⟩

/-- What is laid out at a place is read there, whatever was read before it. -/
theorem Laid.reaches (laid : Laid place settings words line) (holds : g.Holds before earlier)
    (distinct : ((before ++ settings).map Setting.flag).Nodup)
    (room : ∀ verb, place = .behind verb → (earlier ++ words).length ≤ verb.mostWords) :
    Reaches place g line (before ++ settings) (earlier ++ words) := by
  -- Each part of the line is read behind the parts before it, so these are left open.
  induction laid generalizing g before earlier with
  | nil => exact ⟨g, .refl _ g, by simpa using holds⟩
  | @settings place first later words ws line written rest inductionHypothesis =>
    rw [← List.append_assoc] at distinct ⊢
    have own : ((before ++ first).map Setting.flag).Nodup := by
      rw [List.map_append] at distinct
      exact (List.nodup_append.mp distinct).1
    exact (written.reaches holds own).trans fun g' holds' =>
      inductionHypothesis holds' distinct room
  | @word verb settings word words line dashless rest inductionHypothesis =>
    rw [List.append_cons] at room ⊢
    have bound : earlier.length + (words.length + 1) ≤ verb.mostWords := by
      simpa [Nat.add_comm] using room verb rfl
    have space : earlier.length < verb.mostWords := by omega
    have first : Reaches (.behind verb) g [word] before (earlier ++ [word]) :=
      ⟨_, passes_word holds dashless space, Gathered.holds_of_done⟩
    exact first.trans fun g' holds' => inductionHypothesis holds' distinct room

theorem ofName?_of_mem {name : String} (named : (name, verb) ∈ Verb.all) :
    Verb.ofName? name = some verb := by
  have all : ∀ entry ∈ Verb.all, Verb.ofName? entry.1 = some entry.2 := by decide +kernel
  exact all _ named

theorem readFront_of_verb {name : String} (named : (name, verb) ∈ Verb.all)
    (calm : g.isWaiting = false) (rest : List String) :
    readFront g (name :: rest) = .ok ⟨g, some (verb, rest)⟩ := by
  unfold readFront
  simp [calm, ofName?_of_mem named]

theorem readBehind_nil (b : Bool) : readBehind verb b g [] = g.settle := by
  cases b <;> rfl

/-- A line is read as what it was made of. -/
theorem Placed.read_eq (placed : Placed verb words settings line)
    (distinct : (settings.map Setting.flag).Nodup) (least : verb.leastWords ≤ words.length)
    (most : words.length ≤ verb.mostWords) :
    ∃ settings', settings'.Perm settings ∧ read line = .ok ⟨verb, words, settings'⟩ := by
  cases placed with
  | @line name front behind before after named first last all =>
    have apart : ((after ++ before).map Setting.flag).Nodup := (all.map _).nodup_iff.mpr distinct
    rw [List.map_append, List.nodup_append] at apart
    obtain ⟨g, passes, holds⟩ :=
      first.reaches Gathered.holds_nothing (by simpa using apart.2.1) nofun
    obtain ⟨g', passes', holds'⟩ := last.reaches Gathered.holds_nothing (by simpa using apart.1)
      (by simpa using most)
    have front' := (passes (name :: behind)).trans (readFront_of_verb named holds.calm behind)
    have behind' := passes' []
    rw [List.append_nil, readBehind_nil, holds'.settled] at behind'
    refine ⟨after ++ before, all, ?_⟩
    unfold read
    simp [front', behind', holds.settled, Nat.not_lt.mpr least, bind, Except.bind, pure, Except.pure]

/-! ## Looking settings up -/

/-- If no flag is given twice, a lookup finds all that there is for its flag. -/
theorem findSome?_eq_some_iff {α : Type} {pick : Setting → Option α} {make : α → Setting}
    {flag : Flag} {v : α} (picks : ∀ s v, pick s = some v ↔ s = make v)
    (flagged : ∀ v, (make v).flag = flag) (distinct : (settings.map Setting.flag).Nodup) :
    settings.findSome? pick = some v ↔ make v ∈ settings := by
  constructor
  · intro found
    obtain ⟨s, member, picked⟩ := List.exists_of_findSome?_eq_some found
    rwa [(picks s v).mp picked] at member
  · intro member
    have own := (picks _ v).mpr rfl
    cases found : settings.findSome? pick with
    | none => cases (List.findSome?_eq_none_iff.mp found _ member).symm.trans own
    | some v' =>
      obtain ⟨s, member', picked⟩ := List.exists_of_findSome?_eq_some found
      rw [(picks s v').mp picked] at member' picked
      have same := List.inj_on_of_nodup_map distinct member member'
        ((flagged v).trans (flagged v').symm)
      rw [← own, ← picked, same]

section
variable (distinct : (settings.map Setting.flag).Nodup)

include distinct

theorem textOf?_eq_some_iff {t : TextFlag} {value : String} :
    textOf? settings t = some value ↔ .text t value ∈ settings := by
  have flagged (value : String) : (Setting.text t value).flag = .text t := rfl
  refine findSome?_eq_some_iff (fun s value => ?_) flagged distinct
  cases s with
  | text t' value' => simp
  | on | number => simp

theorem numberOf?_eq_some_iff {n : NumberFlag} {w : UInt64} :
    numberOf? settings n = some w ↔ .number n w ∈ settings := by
  have flagged (w : UInt64) : (Setting.number n w).flag = .number n := rfl
  refine findSome?_eq_some_iff (fun s w => ?_) flagged distinct
  cases s with
  | number n' w' => simp
  | on | text => simp

end

theorem hasSwitch_eq_true_iff {s : Switch} : hasSwitch settings s = true ↔ .on s ∈ settings := by
  simp [hasSwitch]

section
variable {settings' : List Setting} (same : settings'.Perm settings)
  (distinct : (settings.map Setting.flag).Nodup)

include same distinct

theorem textOf?_of_perm (t : TextFlag) : textOf? settings' t = textOf? settings t := by
  refine Option.ext fun value => ?_
  rw [textOf?_eq_some_iff distinct, textOf?_eq_some_iff ((same.map _).nodup_iff.mpr distinct),
    same.mem_iff]

theorem numberOf?_of_perm (n : NumberFlag) : numberOf? settings' n = numberOf? settings n := by
  refine Option.ext fun w => ?_
  rw [numberOf?_eq_some_iff distinct, numberOf?_eq_some_iff ((same.map _).nodup_iff.mpr distinct),
    same.mem_iff]

omit distinct in
theorem hasSwitch_of_perm (s : Switch) : hasSwitch settings' s = hasSwitch settings s := by
  rw [Bool.eq_iff_iff, hasSwitch_eq_true_iff, hasSwitch_eq_true_iff, same.mem_iff]

theorem overridesOf_of_perm : overridesOf settings' = overridesOf settings := by
  simp only [overridesOf, textOf?_of_perm same distinct, numberOf?_of_perm same distinct,
    hasSwitch_of_perm same]

theorem commandOf_of_perm (verb : Verb) (words : List String) :
    commandOf verb words settings' = commandOf verb words settings := by
  unfold commandOf
  rw [numberOf?_of_perm same distinct, numberOf?_of_perm same distinct]

end

end CommandLine

open CommandLine

/-- The setting that gives a field a value. -/
def ConfigField.setting? : (f : ConfigField) → f.Value → Option Setting
  | address => fun text => some (.text .address text)
  | username => Option.map (Setting.text .username)
  | password => Option.map (Setting.text .password)
  | passwordFile => Option.map (Setting.text .passwordFile)
  | skipTls => fun (b : Bool) => if b then some (.on .skipTls) else none
  | timeout => fun w => some (.number .timeout w)
  | pageSize => fun w => some (.number .pageSize w)
  | catalogInterval => fun w => some (.number .catalogInterval w)
  | tagsInterval => fun w => some (.number .tagsInterval w)
  | onlineMax => fun w => some (.number .onlineMax w)
  | verbose => fun (b : Bool) => if b then some (.on .verbose) else none
  | quiet => fun (b : Bool) => if b then some (.on .quiet) else none

/-- What the flag of a field gives is what its setting says. -/
theorem ConfigField.flag?_overridesOf_eq_some_iff {settings : List Setting}
    (distinct : (settings.map Setting.flag).Nodup) {f : ConfigField} {v : f.Value} :
    flag? (overridesOf settings) f = some v ↔ ∃ s ∈ f.setting? v, s ∈ settings := by
  have text (t : TextFlag) (value : Option String) : (textOf? settings t).map some = some value ↔
      ∃ s ∈ value.map (Setting.text t), s ∈ settings := by
    cases value <;> simp [textOf?_eq_some_iff distinct]
  have switch (s : Switch) (b : Bool) : (if hasSwitch settings s then some true else none) = some b ↔
      ∃ setting ∈ if b then some (Setting.on s) else none, setting ∈ settings := by
    cases b <;> simp [hasSwitch_eq_true_iff]
  cases f with
  | address => exact (textOf?_eq_some_iff distinct).trans (by simp [setting?])
  | username | password | passwordFile => exact text _ v
  | skipTls | verbose | quiet => exact switch _ v
  | timeout | pageSize | catalogInterval | tagsInterval | onlineMax =>
    exact (numberOf?_eq_some_iff distinct).trans (by simp [setting?])

/-- All lines that have a command with its words, and the same settings anywhere, ask for the same: the
    command with its words, JSON if that is among the settings, and all that the settings give. -/
theorem Arguments.parse_placed {verb : Verb} {words : List String} {settings : List Setting}
    (distinct : (settings.map Setting.flag).Nodup) (least : verb.leastWords ≤ words.length)
    (most : words.length ≤ verb.mostWords) :
    ∃ a : Arguments, (∀ line, Placed verb words settings line → Arguments.parse line = .ok a) ∧
      a.command = commandOf verb words settings ∧ (a.json = true ↔ .on .json ∈ settings) ∧
      ∀ f v, ConfigField.flag? a.overrides f = some v ↔ ∃ s ∈ f.setting? v, s ∈ settings := by
  refine ⟨⟨commandOf verb words settings, hasSwitch settings .json, overridesOf settings⟩, ?_, rfl,
    hasSwitch_eq_true_iff, fun f v => ConfigField.flag?_overridesOf_eq_some_iff distinct⟩
  intro line placed
  obtain ⟨settings', same, read⟩ := placed.read_eq distinct least most
  unfold Arguments.parse
  rw [read]
  dsimp only [bind, Except.bind, pure, Except.pure]
  rw [commandOf_of_perm same distinct, hasSwitch_of_perm same, overridesOf_of_perm same distinct]

/-- Behind a deletion or around it, in long or short form: the registry, the timeout and the verbosity
    are the same. -/
theorem Arguments.parse_placed_deletion :
    ∃ a : Arguments,
      Arguments.parse ["delete", "app", "v1", "--registry", "http://r", "--timeout=5", "--verbose"] =
        .ok a ∧
      Arguments.parse ["-vrhttp://r", "delete", "app", "-t", "5", "v1"] = .ok a ∧
      a.command = .delete "app" "v1" ∧ a.overrides.address = some "http://r" ∧
      a.overrides.timeout = some 5 ∧ a.overrides.verbose = true := by
  let settings : List Setting := [.text .address "http://r", .number .timeout 5, .on .verbose]
  have host : (Setting.text .address "http://r").HasValue "http://r" := .text _ _
  have five : (Setting.number .timeout 5).HasValue "5" :=
    .number .timeout (Text.word?_eq_some_iff.mp (by decide +kernel))
  have command : ("delete", Verb.delete) ∈ Verb.all := by decide
  have app : Dashless "app" := by decide +kernel
  have tag : Dashless "v1" := by decide +kernel
  have behind : Placed .delete ["app", "v1"] settings
      ["delete", "app", "v1", "--registry", "http://r", "--timeout=5", "--verbose"] := by
    have address : Written (.behind .delete) _ ["--" ++ "registry", "http://r"] :=
      .apart (by decide +kernel) host (by decide +kernel)
    have timeout : Written (.behind .delete) _ ["--" ++ "timeout" ++ "=" ++ "5"] :=
      .assigned (by decide +kernel) five
    have verbose : Written (.behind .delete) [.on .verbose] ["--" ++ "verbose"] :=
      .switch (by decide +kernel)
    have last := Laid.settings address (.settings timeout (.settings verbose .nil))
    exact .line command .nil (.word app (.word tag last)) (.refl _)
  have around : Placed .delete ["app", "v1"] settings
      ["-vrhttp://r", "delete", "app", "-t", "5", "v1"] := by
    have joined : Written .front [.on .verbose, .text .address "http://r"]
        [String.ofList ('-' :: 'v' :: 'r' :: "http://r".toList)] :=
      .short (.switch (by decide) (.attached (by decide) host (by decide) (by decide +kernel)))
    have timeout : Written (.behind .delete) _ [String.ofList ['-', 't'], "5"] :=
      .short (.apart (by decide) five (by decide +kernel))
    have last := Laid.settings timeout (.word tag .nil)
    exact .line command (.settings joined .nil) (.word app last) (by decide +kernel)
  have distinct : (settings.map Setting.flag).Nodup := by decide
  have least : Verb.delete.leastWords ≤ ["app", "v1"].length := by decide
  have most : ["app", "v1"].length ≤ Verb.delete.mostWords := by decide
  obtain ⟨a, parses, asked, -, given⟩ := Arguments.parse_placed distinct least most
  refine ⟨a, parses _ behind, parses _ around, asked, ?_, ?_, ?_⟩
  · exact (given .address "http://r").mpr ⟨_, rfl, by decide⟩
  · exact (given .timeout (5 : UInt64)).mpr ⟨_, rfl, by decide⟩
  · have flagged := (given .verbose true).mpr ⟨_, rfl, by decide⟩
    unfold ConfigField.flag? at flagged
    simpa using flagged

end RegistryCache
