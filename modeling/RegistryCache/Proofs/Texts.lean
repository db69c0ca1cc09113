import Mathlib.Data.List.Basic
import Mathlib.Data.List.Forall2
import Mathlib.Data.List.Infix
import Mathlib.Data.List.TakeWhile
import RegistryCache.Text.Basic

/-! # Trimming, cutting and finding

Laws of the cuts that all formats share: what trimming takes away at both ends (`trimBy`), where the
first separator stands (`cut?`), and what stands between separators (`pieces`).  A text that is written
with blanks around it (`Padded`) is what trimming finds.  Whether a phrase stands somewhere in a text
(`Mentions`) is settled by letters that stand only once, or that the phrase does not have.
-/

namespace RegistryCache.Text

/-! ## Letters -/

/-- Letter case is a matter of ASCII. -/
theorem lowerChar_of_le {c : Char} (large : 128 ≤ c.toNat) : lowerChar c = c := by
  have other : ¬ ('A' ≤ c ∧ c ≤ 'Z') := by
    rintro ⟨-, most⟩
    have most : c.toNat ≤ 'Z'.toNat := most
    simp at most
    omega
  rw [lowerChar, if_neg other]

/-! ## Ends -/

theorem trimBy_append_left {p : Char → Bool} {extra : List Char} (marks : ∀ c ∈ extra, p c = true)
    (cs : List Char) : trimBy p (extra ++ cs) = trimBy p cs := by
  rw [trimBy, List.dropWhile_append_of_pos marks, trimBy]

/-- Trimming reaches back over what is left empty. -/
theorem trimEndBy_append_eq (p : Char → Bool) (xs ys : List Char) :
    trimEndBy p (xs ++ ys) =
      if trimEndBy p ys = [] then trimEndBy p xs else xs ++ trimEndBy p ys := by
  simp only [trimEndBy, List.reverse_append, List.dropWhile_append, List.isEmpty_iff,
    List.reverse_eq_nil_iff]
  split <;> simp

theorem trimEndBy_append_right {p : Char → Bool} {extra : List Char}
    (marks : ∀ c ∈ extra, p c = true) (cs : List Char) :
    trimEndBy p (cs ++ extra) = trimEndBy p cs := by
  have gone : trimEndBy p extra = [] := by simpa [trimEndBy] using marks
  rw [trimEndBy_append_eq, if_pos gone]

theorem trimBy_append_right {p : Char → Bool} {extra : List Char}
    (marks : ∀ c ∈ extra, p c = true) (cs : List Char) :
    trimBy p (cs ++ extra) = trimBy p cs := by
  rw [trimBy, trimBy, List.dropWhile_append]
  split
  case isTrue gone =>
    rw [List.isEmpty_iff.mp gone, List.dropWhile_eq_nil_iff.mpr marks]
  case isFalse => exact trimEndBy_append_right marks _

theorem trimEndBy_append {p : Char → Bool} {c : Char} (kept : p c = false) (xs ys : List Char) :
    trimEndBy p (xs ++ c :: ys) = xs ++ c :: trimEndBy p ys := by
  have own : trimEndBy p (c :: ys) = c :: trimEndBy p ys := by
    have stays : trimEndBy p [c] = [c] := by simp [trimEndBy, kept]
    rw [← List.singleton_append, trimEndBy_append_eq, stays]
    split
    · rename_i gone
      rw [gone]
    · rfl
  rw [trimEndBy_append_eq, own, if_neg (List.cons_ne_nil _ _)]

theorem exists_trimEndBy_append (p : Char → Bool) (cs : List Char) :
    ∃ tail, cs = trimEndBy p cs ++ tail ∧ tail.all p = true := by
  refine ⟨(cs.reverse.takeWhile p).reverse, ?_, ?_⟩
  · rw [trimEndBy, ← List.reverse_append, List.takeWhile_append_dropWhile, List.reverse_reverse]
  · rw [List.all_reverse, List.all_takeWhile]

theorem exists_trimBy_between (p : Char → Bool) (cs : List Char) :
    ∃ lead gap, cs = lead ++ (trimBy p cs ++ gap) ∧ (∀ c ∈ lead, p c = true) ∧
      ∀ c ∈ gap, p c = true := by
  obtain ⟨gap, whole, trailing⟩ := exists_trimEndBy_append p (cs.dropWhile p)
  refine ⟨cs.takeWhile p, gap, ?_, fun c member => List.mem_takeWhile_imp member,
    List.all_eq_true.mp trailing⟩
  rw [trimBy, ← whole, List.takeWhile_append_dropWhile]

theorem trimBy_of_none {p : Char → Bool} {cs : List Char} (kept : ∀ c ∈ cs, p c = false) :
    trimBy p cs = cs := by
  have front : cs.dropWhile p = cs := List.dropWhile_eq_self_iff.mpr fun _ => by simp [kept]
  have back : cs.reverse.dropWhile p = cs.reverse :=
    List.dropWhile_eq_self_iff.mpr fun _ => by simp [kept]
  rw [trimBy, front, trimEndBy, back, List.reverse_reverse]

/-- A text whose ends stay is not trimmed. -/
theorem trimBy_enclosed {p : Char → Bool} {opening closing : Char} (opens : p opening = false)
    (closes : p closing = false) (cs : List Char) :
    trimBy p (opening :: (cs ++ [closing])) = opening :: (cs ++ [closing]) := by
  rw [trimBy, List.dropWhile_cons_of_neg (by simp [opens]), ← List.cons_append,
    trimEndBy_append closes, trimEndBy_nil]

theorem blank_space : ∀ c ∈ [' '], isBlank c = true :=
  List.forall_mem_singleton.mpr rfl

theorem notMem_blanks {c : Char} (solid : isBlank c = false) {blanks : List Char}
    (all : ∀ b ∈ blanks, isBlank b = true) : c ∉ blanks := by
  intro member
  simp [all c member] at solid

/-- A text with blanks around it. -/
inductive Padded (cs : List Char) : List Char → Prop
  | blanks {before after : List Char} (leading : ∀ c ∈ before, isBlank c = true)
      (trailing : ∀ c ∈ after, isBlank c = true) : Padded cs (before ++ (cs ++ after))

namespace Padded

variable {cs text : List Char} {c : Char}

theorem trim_eq (padded : Padded cs text) : trim text = trim cs := by
  cases padded with
  | blanks leading trailing =>
    rw [trim, trimBy_append_left leading, trimBy_append_right trailing, trim]

theorem notMem (padded : Padded cs text) (solid : isBlank c = false) (absent : c ∉ cs) :
    c ∉ text := by
  cases padded with
  | blanks leading trailing =>
    simp [absent, notMem_blanks solid leading, notMem_blanks solid trailing]

end Padded

/-! ## The first separator -/

theorem cut?_append {separator : Char} {cs before after : List Char}
    (cut : cut? separator cs = some (before, after)) (more : List Char) :
    cut? separator (cs ++ more) = some (before, after ++ more) := by
  induction cs generalizing before with
  | nil => cases cut
  | cons c rest inductionHypothesis =>
    rw [List.cons_append]
    rw [cut?] at cut ⊢
    split at cut
    · rename_i own
      cases cut
      rw [if_pos own]
    · rename_i other
      rw [if_neg other]
      cases earlier : cut? separator rest with
      | none =>
        rw [earlier] at cut
        cases cut
      | some both =>
        rw [earlier] at cut
        cases cut
        rw [inductionHypothesis earlier]
        rfl

theorem cut?_append_of_none {separator : Char} {cs : List Char} (uncut : cut? separator cs = none)
    (more : List Char) :
    cut? separator (cs ++ more) =
      (cut? separator more).map fun (before, after) => (cs ++ before, after) := by
  induction cs with
  | nil =>
    rw [List.nil_append]
    cases cut? separator more <;> rfl
  | cons c rest inductionHypothesis =>
    rw [List.cons_append]
    rw [cut?] at uncut ⊢
    split at uncut
    · cases uncut
    · rename_i other
      rw [if_neg other, inductionHypothesis (by simpa using uncut)]
      cases cut? separator more <;> rfl

theorem cut?_of_notMem {separator : Char} {cs : List Char} (absent : separator ∉ cs) :
    cut? separator cs = none := by
  cases cut : cut? separator cs with
  | none => rfl
  | some both =>
    rw [eq_of_cut? cut] at absent
    simp at absent

/-- A text is cut where the separator stands for the first time. -/
theorem cut?_append_separator {separator : Char} {before : List Char} (absent : separator ∉ before)
    (after : List Char) : cut? separator (before ++ separator :: after) = some (before, after) := by
  rw [cut?_append_of_none (cut?_of_notMem absent), cut?, if_pos rfl]
  simp

theorem notMem_of_cut? {separator : Char} {cs : List Char} (uncut : cut? separator cs = none) :
    separator ∉ cs := by
  induction cs with
  | nil => exact List.not_mem_nil
  | cons c rest inductionHypothesis =>
    rw [cut?] at uncut
    split at uncut
    · cases uncut
    · rename_i other
      exact List.not_mem_cons_of_ne_of_not_mem (Ne.symm other)
        (inductionHypothesis (by simpa using uncut))

theorem notMem_before_of_cut? {separator : Char} {cs before after : List Char}
    (cut : cut? separator cs = some (before, after)) : separator ∉ before := by
  induction cs generalizing before with
  | nil => cases cut
  | cons c rest inductionHypothesis =>
    rw [cut?] at cut
    split at cut
    · cases cut
      exact List.not_mem_nil
    · rename_i other
      obtain ⟨⟨earlier, later⟩, found, both⟩ := Option.map_eq_some_iff.mp cut
      cases both
      rw [List.mem_cons, not_or]
      exact ⟨fun same => other same.symm, inductionHypothesis found⟩

/-! ## Several texts -/

/-- What holds of every text by itself, written for what it may be, holds of all texts of a list. -/
theorem forall_mem_of_forall₂ {α : Type} {Written : α → List Char → Prop} {P : List Char → Prop}
    {xs : List α} {texts : List (List Char)} (each : List.Forall₂ Written xs texts)
    (sound : ∀ x ∈ xs, ∀ text, Written x text → P text) : ∀ text ∈ texts, P text := by
  induction each with
  | nil => nofun
  | cons own rest inductionHypothesis =>
    obtain ⟨first, sound⟩ := List.forall_mem_cons.mp sound
    exact List.forall_mem_cons.mpr ⟨first _ own, inductionHypothesis sound⟩


theorem pieces_ne_nil (separator : Char) (cs : List Char) : pieces separator cs ≠ [] :=
  List.splitOnP_ne_nil _ _

theorem notMem_of_mem_pieces {separator : Char} {cs piece : List Char}
    (member : piece ∈ pieces separator cs) : separator ∉ piece := by
  induction cs generalizing piece with
  | nil =>
    rw [List.mem_singleton.mp member]
    exact List.not_mem_nil
  | cons c rest inductionHypothesis =>
    obtain ⟨first, later, split⟩ := List.exists_cons_of_ne_nil (pieces_ne_nil separator rest)
    have sound : ∀ other ∈ first :: later, separator ∉ other := by
      intro other listed
      exact inductionHypothesis (split ▸ listed)
    rw [pieces, List.splitOn] at split
    rw [pieces, List.splitOn, List.splitOnP_cons_eq_if_modifyHead, split] at member
    split at member
    · rcases List.mem_cons.mp member with rfl | listed
      · exact List.not_mem_nil
      · exact sound piece listed
    · rename_i other
      rcases List.mem_cons.mp member with rfl | listed
      · rw [List.mem_cons, not_or]
        exact ⟨fun same => other (by simp [same]), sound first List.mem_cons_self⟩
      · exact sound piece (List.mem_cons_of_mem first listed)

/-! ## Phrases -/

/-- A phrase stands somewhere in a text. -/
def Mentions (text phrase : String) : Prop := phrase.toList <:+: text.toList

instance (text phrase : String) : Decidable (Mentions text phrase) :=
  inferInstanceAs (Decidable (_ <:+: _))

theorem Mentions.mem {text phrase : String} (mentions : Mentions text phrase) {c : Char}
    (own : c ∈ phrase.toList) : c ∈ text.toList := mentions.subset own

section
variable {c : Char} {before after before' after' : List Char}

/-- A phrase around a letter that stands only once in a text stands there. -/
theorem infix_around_iff (left : c ∉ before') (right : c ∉ after') :
    before ++ c :: after <:+: before' ++ c :: after' ↔ before <:+ before' ∧ after <+: after' := by
  constructor
  · rintro ⟨start, rest, whole⟩
    have cut : before' ++ c :: after' = (start ++ before) ++ c :: (after ++ rest) := by
      simpa using whole.symm
    obtain ⟨rfl, -, rfl⟩ := (List.append_cons_inj_of_notMem left right).mp cut
    exact ⟨List.suffix_append start before, List.prefix_append after rest⟩
  · rintro ⟨⟨start, rfl⟩, ⟨rest, rfl⟩⟩
    exact ⟨start, rest, by simp⟩

/-- Words that end with the same letter are the same if one text begins the other. -/
theorem prefix_of_word_iff (left : c ∉ before) (right : c ∉ before') :
    before ++ c :: after <+: before' ++ c :: after' ↔ before = before' ∧ after <+: after' := by
  constructor
  · rintro ⟨rest, whole⟩
    have cut := congrArg (cut? c) whole
    rw [List.append_assoc, List.cons_append, cut?_append_separator left,
      cut?_append_separator right] at cut
    cases cut
    exact ⟨rfl, List.prefix_append after rest⟩
  · rintro ⟨rfl, ⟨rest, rfl⟩⟩
    exact ⟨rest, by simp⟩

end

/-- A phrase without a letter stands on one of its sides. -/
theorem infix_append_cons_iff {c : Char} {word before after : List Char} (absent : c ∉ word) :
    word <:+: before ++ c :: after ↔ word <:+: before ∨ word <:+: after := by
  constructor
  · rintro ⟨start, rest, whole⟩
    obtain ⟨more, rfl, -⟩ | ⟨more, front, back⟩ := List.append_eq_append_iff.mp whole
    · exact .inl ⟨start, more, rfl⟩
    · cases more with
      | nil => exact .inl ⟨start, [], by simpa using front⟩
      | cons d more =>
        obtain ⟨rfl, rfl⟩ := List.cons.inj back
        -- The letter stands in front of the word, or else in it.
        obtain ⟨gap, -, within⟩ | ⟨gap, -, within⟩ := List.append_eq_append_iff.mp front
        · exact absurd (by simp [within]) absent
        · cases gap with
          | nil =>
            have same : c :: more = word := within
            exact absurd (same ▸ List.mem_cons_self) absent
          | cons d gap =>
            obtain ⟨-, rfl⟩ := List.cons.inj within
            exact .inr ⟨gap, rest, by simp⟩
  · rintro (⟨start, rest, rfl⟩ | ⟨start, rest, rfl⟩)
    · exact ⟨start, rest ++ c :: after, by simp⟩
    · exact ⟨before ++ c :: start, rest, by simp⟩

theorem occursIn_eq_true_iff {word cs : List Char} : occursIn word cs = true ↔ word <:+: cs := by
  induction cs with
  | nil => simp [occursIn]
  | cons c rest inductionHypothesis =>
    have begins : (after? word (c :: rest)).isSome = true ↔ word <+: c :: rest := by
      simp only [Option.isSome_iff_exists, after?_eq_some_iff]
      exact ⟨fun ⟨tail, same⟩ => ⟨tail, same.symm⟩, fun ⟨tail, same⟩ => ⟨tail, same.symm⟩⟩
    rw [occursIn, Bool.or_eq_true, begins, inductionHypothesis, List.infix_cons_iff]

end RegistryCache.Text
