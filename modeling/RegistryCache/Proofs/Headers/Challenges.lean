import RegistryCache.Http.Challenge
import RegistryCache.Proofs.Texts

/-! # How challenges are written

A challenge names its parameters in any order, in any letter case and with blanks where they do no
harm; values stand in quotes, and what stands in quotes is left alone (`Challenge.Written`).  Reading
gives back the values of the three parameters that count (`Challenge.parse?_written`).
-/

namespace RegistryCache

/-! ## Letters -/

namespace Text

theorem isBlank_lowerChar (c : Char) : isBlank (lowerChar c) = isBlank c := by
  have ascii : ∀ n < 128, isBlank (lowerChar (Char.ofNat n)) = isBlank (Char.ofNat n) := by decide
  by_cases small : c.toNat < 128
  · simpa using ascii c.toNat small
  · rw [lowerChar_of_le (Nat.not_lt.mp small)]

/-- A text with the letters of a word has no blanks if the word has none. -/
theorem solid_of_sameLetters {cs word : List Char} (same : sameLetters cs word = true)
    (solid : word.any isBlank = false) : ∀ c ∈ cs, isBlank c = false := by
  intro c member
  have lowered : lower cs = lower word := by simpa [sameLetters] using same
  have listed : lowerChar c ∈ lower word := lowered ▸ List.mem_map_of_mem member
  obtain ⟨d, own, code⟩ := List.mem_map.mp listed
  have solid := List.any_eq_false.mp solid d own
  rw [← isBlank_lowerChar, ← code, isBlank_lowerChar]
  simpa using solid

end Text

namespace Challenge

open Text (Padded notMem_blanks cut? isBlank lower sameLetters trim trimBy trimEndBy trimMark)

/-! ## Pieces -/

theorem segments_ne_nil (quoted : Bool) (cs : List Char) : segments quoted cs ≠ [] := by
  fun_cases segments quoted cs <;> simp

theorem segments_cons {quoted : Bool} {c : Char} (inside : ¬ (c = ',' ∧ quoted = false))
    (rest : List Char) : segments quoted (c :: rest) =
      (segments (if c = '"' then !quoted else quoted) rest).modifyHead (c :: ·) := by
  rw [segments, if_neg inside]
  cases pieces : segments (if c = '"' then !quoted else quoted) rest with
  | nil => exact absurd pieces (segments_ne_nil _ _)
  | cons piece more => rfl

/-- A text goes to one piece, whatever follows; the flags say whether quotes are open before it and
    behind it. -/
def Uncut (quoted quoted' : Bool) (text : List Char) : Prop :=
  ∀ rest, segments quoted (text ++ rest) = (segments quoted' rest).modifyHead (text ++ ·)

theorem Uncut.append {quoted quoted' quoted'' : Bool} {text text' : List Char}
    (first : Uncut quoted quoted' text) (second : Uncut quoted' quoted'' text') :
    Uncut quoted quoted'' (text ++ text') := by
  intro rest
  rw [List.append_assoc, first, second, List.modifyHead_modifyHead]
  congr 1
  funext piece
  exact (List.append_assoc text text' piece).symm

theorem uncut_mark (quoted : Bool) : Uncut quoted (!quoted) ['"'] :=
  segments_cons (by simp)

/-- Nothing ends a piece but a comma outside quotes. -/
theorem uncut_run {quoted : Bool} {run : List Char} (unmarked : '"' ∉ run)
    (kept : quoted = false → ',' ∉ run) : Uncut quoted quoted run := by
  induction run with
  | nil =>
    intro rest
    cases pieces : segments quoted rest <;> simp [pieces]
  | cons c run inductionHypothesis =>
    obtain ⟨other, unmarked⟩ := not_or.mp (mt List.mem_cons.mpr unmarked)
    have inside : ¬ (c = ',' ∧ quoted = false) := by
      rintro ⟨rfl, outside⟩
      exact kept outside List.mem_cons_self
    have single : Uncut quoted quoted [c] := by
      intro rest
      rw [List.singleton_append, segments_cons inside, if_neg (Ne.symm other)]
      rfl
    exact single.append
      (inductionHypothesis unmarked fun outside => mt (List.mem_cons_of_mem c) (kept outside))

theorem segments_intercalate {texts : List (List Char)}
    (uncut : ∀ text ∈ texts, Uncut false false text) (listed : texts ≠ []) :
    segments false ([','].intercalate texts) = texts := by
  induction texts with
  | nil => exact absurd rfl listed
  | cons text later inductionHypothesis =>
    have own := uncut text List.mem_cons_self
    cases later with
    | nil => simpa [segments] using own []
    | cons next later =>
      have rest := inductionHypothesis (fun t member => uncut t (List.mem_cons_of_mem text member))
        (List.cons_ne_nil next later)
      rw [List.intercalate_cons_cons, List.append_assoc, own, List.singleton_append, segments,
        if_pos ⟨rfl, rfl⟩, rest]
      simp

/-- What is added behind goes to the last piece. -/
theorem segments_append_run {run : List Char} (unmarked : '"' ∉ run) (uncut : ',' ∉ run)
    (quoted : Bool) (cs : List Char) :
    ∃ before last, segments quoted cs = before ++ [last] ∧
      segments quoted (cs ++ run) = before ++ [last ++ run] := by
  -- Quotes open and close along the text, so the induction is for both states at once.
  induction cs generalizing quoted with
  | nil =>
    refine ⟨[], [], rfl, ?_⟩
    have alone : Uncut quoted quoted run := uncut_run unmarked fun _ => uncut
    simpa [segments] using alone []
  | cons c cs inductionHypothesis =>
    rw [List.cons_append, segments, segments]
    split
    · obtain ⟨before, last, short, long⟩ := inductionHypothesis quoted
      exact ⟨[] :: before, last, by rw [short]; rfl, by rw [long]; rfl⟩
    · obtain ⟨before, last, short, long⟩ :=
        inductionHypothesis (if c = '"' then !quoted else quoted)
      rw [short, long]
      cases before with
      | nil => exact ⟨[], c :: last, rfl, rfl⟩
      | cons first before => exact ⟨(c :: first) :: before, last, rfl, rfl⟩

theorem parameters_append_blanks {gap : List Char} (blanks : ∀ c ∈ gap, isBlank c = true)
    (cs : List Char) : parameters (cs ++ gap) = parameters cs := by
  obtain ⟨before, last, short, long⟩ :=
    segments_append_run (notMem_blanks rfl blanks) (notMem_blanks rfl blanks) false cs
  have same : parameter? (last ++ gap) = parameter? last := by
    unfold parameter?
    cases cut : cut? '=' last with
    | none =>
      rw [Text.cut?_append_of_none cut, Text.cut?_of_notMem (notMem_blanks rfl blanks)]
      rfl
    | some both =>
      obtain ⟨key, value⟩ := both
      rw [Text.cut?_append cut]
      simp only [Option.map_some, trim, Text.trimBy_append_right blanks]
  simp only [parameters, short, long, List.filterMap_append, List.filterMap_cons, same]

/-! ## Parameters -/

structure Parameter where
  key : String
  value : String
  deriving DecidableEq, Repr

/-- How a parameter is known once it is read. -/
def Parameter.entry (p : Parameter) : List Char × List Char := (lower p.key.toList, p.value.toList)

/-- A parameter that can be written: a key without blanks and separators, and a value that does not
    end its own quotes. -/
structure Parameter.Plain (p : Parameter) : Prop where
  key : ∀ c ∈ p.key.toList, c ≠ '=' ∧ c ≠ ',' ∧ c ≠ '"' ∧ isBlank c = false
  value : '"' ∉ p.value.toList

instance (p : Parameter) : Decidable p.Plain :=
  have := List.decidableBAll (fun c => c ≠ '=' ∧ c ≠ ',' ∧ c ≠ '"' ∧ isBlank c = false) p.key.toList
  decidable_of_iff (_ ∧ _) ⟨fun plain => ⟨plain.1, plain.2⟩, fun plain => ⟨plain.key, plain.value⟩⟩

/-- A parameter as it is written: blanks around the key and around the value, and the value in
    quotes. -/
inductive Parameter.Written (p : Parameter) : List Char → Prop
  | quoted {key value : List Char} (name : Padded p.key.toList key)
      (content : Padded ('"' :: (p.value.toList ++ ['"'])) value) : Written p (key ++ '=' :: value)

namespace Parameter

variable {p : Parameter} {text : List Char}

theorem Plain.notMem_key (plain : p.Plain) {c : Char} (mark : c = '=' ∨ c = ',' ∨ c = '"') :
    c ∉ p.key.toList := by
  intro member
  obtain ⟨noSign, noComma, noMark, -⟩ := plain.key c member
  rcases mark with rfl | rfl | rfl <;> contradiction

theorem Written.uncut (written : p.Written text) (plain : p.Plain) : Uncut false false text := by
  obtain @⟨key, value, name, content⟩ := written
  obtain @⟨lead, gap, leading, trailing⟩ := content
  have front : Uncut false false (key ++ '=' :: lead) := by
    refine uncut_run ?_ fun _ => ?_
    · simp [name.notMem rfl (plain.notMem_key (.inr (.inr rfl))), notMem_blanks (c := '"') rfl leading]
    · simp [name.notMem rfl (plain.notMem_key (.inr (.inl rfl))), notMem_blanks (c := ',') rfl leading]
  have inside : Uncut true true p.value.toList := uncut_run plain.value nofun
  have behind : Uncut false false gap :=
    uncut_run (notMem_blanks rfl trailing) fun _ => notMem_blanks rfl trailing
  -- Quotes open behind the sign and close behind the value, so that only blanks are read outside.
  have whole := front.append ((uncut_mark false).append (inside.append ((uncut_mark true).append behind)))
  simpa using whole

theorem Written.parameter?_eq (written : p.Written text) (plain : p.Plain) :
    parameter? text = some p.entry := by
  obtain @⟨key, value, name, content⟩ := written
  have unsigned := name.notMem rfl (plain.notMem_key (.inl rfl))
  have solid : ∀ c ∈ p.key.toList, isBlank c = false := fun c member => (plain.key c member).2.2.2
  have unmarked : ∀ c ∈ p.value.toList, (c == '"') = false := by
    intro c member
    exact beq_eq_false_iff_ne.mpr fun mark => plain.value (mark ▸ member)
  have marks : ∀ c ∈ ['"'], (c == '"') = true := by simp
  have named : trim key = p.key.toList := name.trim_eq.trans (Text.trimBy_of_none solid)
  have quotes : trim value = ['"'] ++ (p.value.toList ++ ['"']) :=
    content.trim_eq.trans (Text.trimBy_enclosed rfl rfl _)
  have inner : trimMark '"' (trim value) = p.value.toList := by
    rw [quotes, trimMark, Text.trimBy_append_left marks, Text.trimBy_append_right marks,
      Text.trimBy_of_none unmarked]
  rw [parameter?, Text.cut?_append_separator unsigned]
  simp only [Option.map_some, named, inner, entry]

end Parameter

/-- The value of a key, in any letter case. -/
def valueOf? (params : List Parameter) (key : String) : Option String :=
  (params.find? fun p => sameLetters p.key.toList key.toList).map (·.value)

theorem lookup_reverse {α : Type} {params : List (List Char × α)}
    (apart : (params.map Prod.fst).Nodup) (key : List Char) :
    params.reverse.lookup key = params.lookup key := by
  induction params with
  | nil => rfl
  | cons p later inductionHypothesis =>
    obtain ⟨own, value⟩ := p
    obtain ⟨fresh, apart⟩ := List.nodup_cons.mp apart
    rw [List.reverse_cons, List.lookup_append, inductionHypothesis apart, List.lookup_cons,
      List.lookup_cons]
    by_cases same : key = own
    · subst same
      have absent : later.lookup key = none := by
        rw [List.lookup_eq_none_iff]
        intro p member
        exact bne_iff_ne.mpr fun named => fresh (List.mem_map.mpr ⟨p, member, named.symm⟩)
      simp [absent]
    · simp [beq_eq_false_iff_ne.mpr same]

/-- Where no key stands twice, the order makes no difference. -/
theorem value?_entries {params : List Parameter}
    (apart : (params.map fun p => lower p.key.toList).Nodup) {key : String}
    (small : lower key.toList = key.toList) :
    value? (params.map Parameter.entry) key = valueOf? params key := by
  have keys : ((params.map Parameter.entry).map Prod.fst).Nodup := by
    simpa [Function.comp_def, Parameter.entry] using apart
  rw [value?, lookup_reverse keys, valueOf?]
  clear apart keys
  induction params with
  | nil => rfl
  | cons p later inductionHypothesis =>
    rw [List.map_cons, Parameter.entry, List.lookup_cons, List.find?_cons]
    by_cases own : lower p.key.toList = key.toList
    · simp [sameLetters, small, own]
    · have other : (key.toList == lower p.key.toList) = false :=
        beq_eq_false_iff_ne.mpr (Ne.symm own)
      have differs : sameLetters p.key.toList key.toList = false := by simp [sameLetters, small, own]
      rw [other, differs, inductionHypothesis]

/-! ## Whole challenges -/

/-- A challenge to get a token, as it is written: the scheme, a blank and the parameters between
    commas, or the scheme alone. -/
inductive Written (params : List Parameter) (header : String) : Prop
  | listed {scheme : List Char} {texts : List (List Char)}
      (bearer : sameLetters scheme "bearer".toList = true)
      (each : List.Forall₂ Parameter.Written params texts)
      (whole : Padded (scheme ++ ' ' :: [','].intercalate texts) header.toList)
  | bare {scheme : List Char} (bearer : sameLetters scheme "bearer".toList = true)
      (unnamed : params = []) (whole : Padded scheme header.toList)

theorem parameters_written {params : List Parameter} {texts : List (List Char)}
    (plain : ∀ p ∈ params, p.Plain) (each : List.Forall₂ Parameter.Written params texts) :
    parameters ([','].intercalate texts) = params.map Parameter.entry := by
  have uncut : ∀ text ∈ texts, Uncut false false text :=
    Text.forall_mem_of_forall₂ each fun p member _ written => written.uncut (plain p member)
  have read : texts.filterMap parameter? = params.map Parameter.entry := by
    have both := (List.forall₂_and_left _ _).mpr ⟨plain, each⟩
    clear uncut plain each
    induction both with
    | nil => rfl
    | cons own rest inductionHypothesis =>
      rw [List.filterMap_cons, own.2.parameter?_eq own.1, inductionHypothesis, List.map_cons]
  by_cases listed : texts = []
  -- No text at all has one piece, which is no parameter.
  · subst listed
    rw [← read]
    rfl
  · rw [parameters, segments_intercalate uncut listed, read]

/-- The scheme ends at the first blank; what follows loses its blanks at the end. -/
theorem cut?_trim {scheme : List Char} (named : scheme ≠ [])
    (solid : ∀ c ∈ scheme, isBlank c = false) (text : List Char) :
    (cut? ' ' (trim (scheme ++ ' ' :: text))).getD (trim (scheme ++ ' ' :: text), []) =
      (scheme, trimEndBy isBlank text) := by
  have front (rest : List Char) : trim (scheme ++ rest) = trimEndBy isBlank (scheme ++ rest) := by
    obtain ⟨c, more, rfl⟩ := List.exists_cons_of_ne_nil named
    rw [trim, trimBy, List.cons_append, List.dropWhile_cons_of_neg (by simp [solid c])]
  have bare : trimEndBy isBlank (scheme ++ [' ']) = scheme := by
    rw [Text.trimEndBy_append_right Text.blank_space, ← List.append_nil scheme, ← front, trim,
      List.append_nil, Text.trimBy_of_none solid]
  have absent : ' ' ∉ scheme := fun member => Bool.false_ne_true (solid ' ' member).symm
  have trimmed : trim (scheme ++ ' ' :: text) =
      if trimEndBy isBlank text = [] then scheme else scheme ++ ' ' :: trimEndBy isBlank text := by
    rw [front, List.append_cons, Text.trimEndBy_append_eq, bare, ← List.append_cons]
  -- Where nothing but blanks follows, the one that ends the scheme is trimmed away as well.
  rw [trimmed]
  split
  · rename_i gone
    rw [gone, Text.cut?_of_notMem absent]
    rfl
  · rw [Text.cut?_append_separator absent]
    rfl

/-- Reading finds the scheme, and the parameters behind the blank. -/
theorem parse?_of_bearer {scheme text : List Char} {header : String}
    (bearer : sameLetters scheme "bearer".toList = true)
    (whole : trim header.toList = trim (scheme ++ ' ' :: text)) :
    parse? header = (value? (parameters text) "realm").map fun realm =>
      .bearer realm (value? (parameters text) "service") (value? (parameters text) "scope") := by
  have solid := Text.solid_of_sameLetters bearer (by decide)
  have named : scheme ≠ [] := by
    rintro rfl
    exact absurd bearer (by decide)
  have other : sameLetters scheme ['b', 'a', 's', 'i', 'c'] = false := by
    have lowered : lower scheme = lower "bearer".toList := by simpa [sameLetters] using bearer
    rw [sameLetters, lowered]
    decide
  have bearer : sameLetters scheme ['b', 'e', 'a', 'r', 'e', 'r'] = true := bearer
  have same : parameters (trimEndBy isBlank text) = parameters text := by
    obtain ⟨tail, ends, blanks⟩ := Text.exists_trimEndBy_append isBlank text
    conv_rhs => rw [ends, parameters_append_blanks (List.all_eq_true.mp blanks)]
  unfold parse?
  simp only [whole, cut?_trim named solid, other, bearer, same]
  rfl

/-- Reading a challenge gives back what was written: the values of the parameters that count, whatever
    their order and whatever else is said, or nothing if no realm is named. -/
theorem parse?_written {params : List Parameter} {header : String} (plain : ∀ p ∈ params, p.Plain)
    (apart : (params.map fun p => lower p.key.toList).Nodup) (written : Written params header) :
    parse? header = (valueOf? params "realm").map fun realm =>
      .bearer realm (valueOf? params "service") (valueOf? params "scope") := by
  obtain ⟨scheme, texts, bearer, each, whole⟩ : ∃ scheme texts,
      sameLetters scheme "bearer".toList = true ∧ List.Forall₂ Parameter.Written params texts ∧
        trim header.toList = trim (scheme ++ ' ' :: [','].intercalate texts) := by
    cases written with
    | listed bearer each whole => exact ⟨_, _, bearer, each, whole.trim_eq⟩
    | @bare scheme bearer unnamed whole =>
      -- The scheme alone is trimmed to what it would be with a blank behind it.
      have blank : trim (scheme ++ [' ']) = trim scheme := Text.trimBy_append_right Text.blank_space scheme
      exact ⟨scheme, [], bearer, unnamed ▸ .nil, whole.trim_eq.trans blank.symm⟩
  rw [parse?_of_bearer bearer whole, parameters_written plain each, value?_entries apart (by decide),
    value?_entries apart (by decide), value?_entries apart (by decide)]

def untidy : List Parameter :=
  [⟨"Scope", "repository:a:pull,push"⟩, ⟨"version", "1"⟩, ⟨"REALM", "http://t/?a=b"⟩]

/-- Blanks, capitals, a parameter too many, a comma inside quotes, and no service. -/
theorem parse?_written_untidy :
    let header := " bEARER Scope = \"repository:a:pull,push\" , version=\"1\",REALM= \"http://t/?a=b\""
    (∀ p ∈ untidy, p.Plain) ∧ (untidy.map fun p => lower p.key.toList).Nodup ∧
      Written untidy header ∧
      parse? header = some (.bearer "http://t/?a=b" none (some "repository:a:pull,push")) := by
  intro header
  have plain : ∀ p ∈ untidy, p.Plain := by decide +kernel
  have apart : (untidy.map fun p => lower p.key.toList).Nodup := by decide +kernel
  have written : Written untidy header := by
    have gap := Text.blank_space
    have no : ∀ c ∈ ([] : List Char), isBlank c = true := nofun
    refine .listed (by decide +kernel : sameLetters "bEARER".toList _ = true)
      (.cons (.quoted (.blanks no gap) (.blanks gap gap))
        (.cons (.quoted (.blanks gap no) (.blanks no no))
          (.cons (.quoted (.blanks no no) (.blanks gap no)) .nil))) ?_
    convert Padded.blanks gap no
    decide +kernel
  refine ⟨plain, apart, written, ?_⟩
  rw [parse?_written plain apart written]
  decide +kernel

end Challenge

end RegistryCache
