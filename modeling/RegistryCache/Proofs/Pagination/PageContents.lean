import RegistryCache.Proofs.Addresses.Extension
import RegistryCache.Proofs.Browsing.Paths
import RegistryCache.Http.Client
import RegistryCache.Proofs.Json.Records

/-! # What a page says

A page lists something in its body and names the next page in a header.  The body is a record with a
field for the list, which may be `null` or left out (`Json.listing?_eq_some_iff`).  The header has any
number of links, each with its parameters; the first one that is marked counts
(`Link.next?_eq_some_iff`).
-/

namespace RegistryCache

/-! ## Lists in records -/

namespace Json

/-- The value of a field for a list of texts, if there is one, and the texts: a list of them, or `null`
    for none. -/
inductive HoldsTexts : Option Json → List String → Prop
  | listed (texts : List String) : HoldsTexts (some (.array (texts.map ofString))) texts
  | null : HoldsTexts (some .null) []
  | missing : HoldsTexts none []

/-- A record and the value of a field, if it has one.  It has no second one of this name; the record may
    also be written as an array of this field alone. -/
inductive HasField (name : String) : Json → Option Json → Prop
  | field {before after : List (String × Json)} (v : Json)
      (apart : ∀ other ∈ before ++ after, other.1 ≠ name) :
      HasField name (.record (before ++ (name, v) :: after)) (some v)
  | noField {fields : List (String × Json)} (apart : ∀ other ∈ fields, other.1 ≠ name) :
      HasField name (.record fields) none
  | element (v : Json) : HasField name (.array [v]) (some v)
  | noElement : HasField name (.array []) none

theorem mapM_asString?_eq_some_iff {elements : List Json} {texts : List String} :
    elements.mapM asString? = some texts ↔ elements = texts.map ofString := by
  simp only [mapM_eq_some_iff, asString?_eq_some_iff]
  rw [← List.forall₂_map_right_iff, List.forall₂_eq_eq_eq]

theorem optional?_texts_iff {part : Option Json} {texts : List String} :
    (optional? (asList? asString?) part).map (·.getD []) = some texts ↔ HoldsTexts part texts := by
  constructor
  · intro read
    cases part with
    | none =>
      cases read
      exact .missing
    | some v =>
      cases v with
      | null =>
        cases read
        exact .null
      | array elements =>
        simp only [optional?, asOption?, asList?, Option.map_map, Option.map_eq_some_iff,
          Function.comp_apply, Option.getD_some] at read
        obtain ⟨listed, elements, rfl⟩ := read
        rw [mapM_asString?_eq_some_iff.mp elements]
        exact .listed listed
      | bool | number | string | object => cases read
  · intro holds
    cases holds with
    | listed =>
      simp [optional?, asOption?, asList?, mapM_asString?_eq_some_iff.mpr rfl]
    | null | missing => rfl

theorem filter_eq_nil_of_apart {name : String} {fields : List (String × Json)}
    (apart : ∀ other ∈ fields, other.1 ≠ name) : fields.filter (·.1 = name) = [] := by
  refine List.filter_eq_nil_iff.mpr ?_
  intro other member
  simpa using apart other member

/-- The parts of a record with one known field. -/
theorem parts?_eq_some_iff {name : String} {v : Json} {parts : List (Option Json)} :
    parts? [name] v = some parts ↔ ∃ part, HasField name v part ∧ parts = [part] := by
  constructor
  · intro read
    cases v with
    | array elements =>
      rcases elements with - | ⟨v, - | ⟨w, rest⟩⟩
      · cases read
        exact ⟨none, .noElement, rfl⟩
      · cases read
        exact ⟨some v, .element v, rfl⟩
      · simp [parts?] at read
    | object fields =>
      cases names : namedFields? fields with
      | none => simp [parts?, names] at read
      | some named =>
        obtain rfl := eq_map_of_namedFields? names
        simp only [parts?, names, Option.bind_eq_bind, Option.bind_some, List.mapM_cons,
          List.mapM_nil] at read
        -- how often the name stands there
        rcases own : named.filter (·.1 = name) with - | ⟨⟨name', v⟩, - | ⟨second, others⟩⟩
        · rw [own] at read
          cases read
          refine ⟨none, .noField ?_, rfl⟩
          intro other member
          simpa using List.filter_eq_nil_iff.mp own other member
        · rw [own] at read
          cases read
          obtain ⟨before, after, rfl, first, same, last⟩ := List.filter_eq_cons_iff.mp own
          obtain rfl : name' = name := by simpa using same
          refine ⟨some v, .field v ?_, rfl⟩
          intro other member
          rcases List.mem_append.mp member with earlier | later
          · simpa using first other earlier
          · simpa using List.filter_eq_nil_iff.mp last other later
        · rw [own] at read
          cases read
    | null | bool | number | string => cases read
  · rintro ⟨part, has, rfl⟩
    cases has with
    | @field before after v apart =>
      have once : (before ++ (name, v) :: after).filter (·.1 = name) = [(name, v)] := by
        rw [List.filter_append, List.filter_cons_of_pos (by simp),
          filter_eq_nil_of_apart fun other member => apart other (List.mem_append_left _ member),
          filter_eq_nil_of_apart fun other member => apart other (List.mem_append_right _ member)]
        rfl
      simp only [parts?, record, namedFields?_map, Option.bind_eq_bind, Option.bind_some,
        List.mapM_cons, List.mapM_nil, once]
      rfl
    | noField apart =>
      simp only [parts?, record, namedFields?_map, Option.bind_eq_bind, Option.bind_some,
        List.mapM_cons, List.mapM_nil, filter_eq_nil_of_apart apart]
      rfl
    | element | noElement => rfl

/-- What lists texts under a name, and what they are. -/
theorem listing?_eq_some_iff {name : String} {v : Json} {texts : List String} :
    listing? name v = some texts ↔ ∃ part, HasField name v part ∧ HoldsTexts part texts := by
  constructor
  · intro read
    cases parts : parts? [name] v with
    | none => simp [listing?, parts] at read
    | some found =>
      obtain ⟨part, has, rfl⟩ := parts?_eq_some_iff.mp parts
      refine ⟨part, has, optional?_texts_iff.mp ?_⟩
      simpa [listing?, parts, Option.map_eq_bind, Function.comp_def] using read
  · rintro ⟨part, has, holds⟩
    have read := optional?_texts_iff.mpr holds
    simpa [listing?, parts?_eq_some_iff.mpr ⟨part, has, rfl⟩, Option.map_eq_bind, Function.comp_def] using read

end Json

/-! ## Links in headers -/

namespace Link

/-- A link to the next page, as it is written: its target in angle brackets, with nothing but blanks
    around it, and then its parameters, each behind a semicolon, of which one is the mark. -/
inductive Marked : List Char → List Char → Prop
  | link {lead target gap : List Char} {params : List (List Char)}
      (leading : ∀ c ∈ lead, Text.isBlank c = true) (trailing : ∀ c ∈ gap, Text.isBlank c = true)
      (whole : ';' ∉ target) (apart : ∀ param ∈ params, ';' ∉ param)
      (mark : ∃ param ∈ params, marksNext param = true) :
      Marked ((lead ++ (('<' :: (target ++ ['>'])) ++ gap)) ++ params.flatMap (';' :: ·)) target

theorem bracketed?_eq_some_iff {cs target : List Char} :
    bracketed? cs = some target ↔ cs = '<' :: (target ++ ['>']) := by
  unfold bracketed?
  constructor
  · intro read
    cases rest : Text.after? ['<'] cs with
    | none =>
      rw [rest] at read
      cases read
    | some inside =>
      rw [rest] at read
      dsimp only at read
      split at read
      · rename_i closed
        cases read
        rw [Text.after?_eq_some_iff.mp rest, List.dropLast_append_getLast? _ closed]
        rfl
      · cases read
  · rintro rfl
    have rest : Text.after? ['<'] ('<' :: (target ++ ['>'])) = some (target ++ ['>']) :=
      Text.after?_eq_some_iff.mpr rfl
    rw [rest]
    simp

theorem flatMap_semicolon {params : List (List Char)} (some_param : params ≠ []) :
    params.flatMap (';' :: ·) = ';' :: [';'].intercalate params := by
  induction params with
  | nil => exact absurd rfl some_param
  | cons param later inductionHypothesis =>
    cases later with
    | nil => simp
    | cons second later =>
      rw [List.flatMap_cons, inductionHypothesis (List.cons_ne_nil _ _)]
      simp [List.intercalate_cons_cons]

/-- A link is divided at its semicolons, and its target is what the brackets hold. -/
theorem target?_written {target front : List Char} {params : List (List Char)}
    (brackets : Text.Padded ('<' :: (target ++ ['>'])) front) (whole : ';' ∉ target)
    (apart : ∀ param ∈ params, ';' ∉ param) :
    target? (front ++ params.flatMap (';' :: ·)) =
      if params.any marksNext then some target else none := by
  have first : ';' ∉ front := brackets.notMem rfl (by simp [whole])
  have inside : bracketed? (Text.trim front) = some target := by
    rw [brackets.trim_eq, Text.trim, Text.trimBy_enclosed rfl rfl]
    exact bracketed?_eq_some_iff.mpr rfl
  by_cases some_param : params = []
  · subst some_param
    rw [List.flatMap_nil, List.append_nil, target?, Text.cut?_of_notMem first]
    rfl
  · rw [target?, flatMap_semicolon some_param, Text.cut?_append_separator first]
    dsimp only
    rw [inside, show Text.pieces ';' ([';'].intercalate params) = params from
      List.splitOn_intercalate ';' apart some_param]

/-- A link counts if it is marked, and then for its target. -/
theorem target?_eq_some_iff {link target : List Char} :
    target? link = some target ↔ Marked link target := by
  constructor
  · intro read
    unfold target? at read
    cases cut : Text.cut? ';' link with
    | none =>
      rw [cut] at read
      cases read
    | some both =>
      obtain ⟨front, behind⟩ := both
      rw [cut] at read
      dsimp only at read
      split at read
      · rename_i marks
        obtain ⟨lead, gap, around, leading, trailing⟩ := Text.exists_trimBy_between Text.isBlank front
        change front = lead ++ (Text.trim front ++ gap) at around
        rw [bracketed?_eq_some_iff.mp read] at around
        have params : (Text.pieces ';' behind).flatMap (';' :: ·) = ';' :: behind := by
          rw [flatMap_semicolon (Text.pieces_ne_nil _ _), Text.pieces, List.intercalate_splitOn]
        have whole : ';' ∉ target := by
          have absent := Text.notMem_before_of_cut? cut
          rw [around] at absent
          exact fun member => absent (by simp [member])
        rw [Text.eq_of_cut? cut, around, ← params]
        exact .link leading trailing whole (fun param member => Text.notMem_of_mem_pieces member)
          (List.any_eq_true.mp marks)
      · cases read
  · intro marked
    cases marked with
    | link leading trailing whole apart mark =>
      rw [target?_written (.blanks leading trailing) whole apart, if_pos (List.any_eq_true.mpr mark)]

/-- A header is a list of links between commas, and the first one of them that is marked has the cursor
    for its target. -/
def Names (header cursor : String) : Prop :=
  ∃ before link after, header.toList = [','].intercalate (before ++ link :: after) ∧
    (∀ piece ∈ before ++ link :: after, ',' ∉ piece) ∧ Marked link cursor.toList ∧
    ∀ piece ∈ before, ∀ target, ¬ Marked piece target

theorem next?_eq_some_iff {header cursor : String} :
    next? header = some cursor ↔ Names header cursor := by
  have unmarked {piece : List Char} : target? piece = none ↔ ∀ target, ¬ Marked piece target := by
    simp only [← target?_eq_some_iff, Option.eq_none_iff_forall_ne_some, ne_eq]
  have found : next? header = some cursor ↔
      (Text.pieces ',' header.toList).findSome? target? = some cursor.toList := by
    rw [next?, Option.map_eq_some_iff]
    constructor
    · rintro ⟨target, first, rfl⟩
      rw [String.toList_ofList]
      exact first
    · exact fun first => ⟨_, first, String.ofList_toList⟩
  rw [found, List.findSome?_eq_some_iff]
  constructor
  · rintro ⟨before, link, after, pieces, marked, earlier⟩
    refine ⟨before, link, after, ?_, ?_, target?_eq_some_iff.mp marked, ?_⟩
    · rw [← pieces, Text.pieces, List.intercalate_splitOn]
    · intro piece member
      exact Text.notMem_of_mem_pieces (pieces ▸ member)
    · exact fun piece member => unmarked.mp (earlier piece member)
  · rintro ⟨before, link, after, text, apart, marked, earlier⟩
    refine ⟨before, link, after, ?_, target?_eq_some_iff.mpr marked, ?_⟩
    · rw [text, Text.pieces, List.splitOn_intercalate ',' apart (by simp)]
    · exact fun piece member => unmarked.mpr (earlier piece member)

/-! ### One next page -/

/-- The way in which registries name a next page. -/
def header (target : String) : String := s!"<{target}>; rel=\"next\""

/-- A reference as it stands in a header: no brackets, quotes or blanks are in it. -/
def IsReference (target : String) : Prop :=
  ∀ c ∈ target.toList, c ≠ '<' ∧ c ≠ '>' ∧ c ≠ '"' ∧ Text.isBlank c = false

/-- Nothing in a target looks like what separates links from each other, or their parameters. -/
def Undivided (target : String) : Prop := ',' ∉ target.toList ∧ ';' ∉ target.toList

instance (target : String) : Decidable (IsReference target) :=
  List.decidableBAll (fun c => c ≠ '<' ∧ c ≠ '>' ∧ c ≠ '"' ∧ Text.isBlank c = false) target.toList

instance (target : String) : Decidable (Undivided target) :=
  inferInstanceAs (Decidable (_ ∧ _))

theorem toList_header (target : String) :
    (header target).toList = '<' :: (target.toList ++ '>' :: "; rel=\"next\"".toList) := by
  simp [header, toString]

theorem names_header {target : String} (undivided : Undivided target) :
    Names (header target) target := by
  have marked : Marked (([] ++ (('<' :: (target.toList ++ ['>'])) ++ [])) ++
      [" rel=\"next\"".toList].flatMap (';' :: ·)) target.toList :=
    .link nofun nofun undivided.2 (by decide) ⟨_, List.mem_singleton_self _, by decide⟩
  have text : (header target).toList = ([] ++ (('<' :: (target.toList ++ ['>'])) ++ [])) ++
      [" rel=\"next\"".toList].flatMap (';' :: ·) := by
    rw [toList_header]
    simp
  rw [← text] at marked
  refine ⟨[], _, [], ?_, ?_, marked, nofun⟩
  · simp
  · simpa [toList_header] using undivided.1

theorem isInfix_intercalate {piece : List Char} {pieces : List (List Char)} (separator : List Char)
    (member : piece ∈ pieces) : piece <:+: separator.intercalate pieces := by
  obtain ⟨i, stands⟩ := List.mem_iff_getElem?.mp member
  exact List.infix_of_mem_flatten
    (List.mem_of_getElem? (List.getElem?_intersperse_two_mul.trans stands))

/-- The header has one pair of brackets, so it names what stands between them or nothing: the text is
    cut at commas and semicolons before anybody looks for brackets. -/
theorem names_header_iff {target cursor : String} (reference : IsReference target) :
    Names (header target) cursor ↔ cursor = target ∧ Undivided target := by
  constructor
  · rintro ⟨before, link, after, text, apart, marked, -⟩
    have here : link ∈ before ++ link :: after := by simp
    obtain ⟨early, late, whole⟩ := isInfix_intercalate [','] here
    have single : ',' ∉ link := apart link here
    rw [← text, toList_header] at whole
    obtain @⟨lead, _, gap, params, -, -, unsplit, -, -⟩ := marked
    -- The first bracket of the link is the first one of the header, since there is only one.
    have opening : '<' ∉ target.toList ++ '>' :: "; rel=\"next\"".toList := by
      have absent : '<' ∉ target.toList := fun member => (reference '<' member).1 rfl
      simp [absent]
    have closing : '>' ∉ target.toList := fun member => (reference '>' member).2.1 rfl
    have opened : (early ++ lead) ++ '<' :: (cursor.toList ++ '>' ::
        (gap ++ (params.flatMap (';' :: ·) ++ late))) =
        [] ++ '<' :: (target.toList ++ '>' :: "; rel=\"next\"".toList) := by
      rw [List.nil_append, ← whole]
      simp
    obtain ⟨-, -, closed⟩ :=
      (List.append_cons_inj_of_notMem List.not_mem_nil opening).mp opened.symm
    obtain ⟨same, -, -⟩ := (List.append_cons_inj_of_notMem closing (by decide)).mp closed
    refine ⟨String.toList_inj.mp same.symm, ?_, ?_⟩
    · rw [same]
      exact fun member => single (by simp [member])
    · rw [same]
      exact unsplit
  · rintro ⟨rfl, undivided⟩
    exact names_header undivided

end Link

end RegistryCache
