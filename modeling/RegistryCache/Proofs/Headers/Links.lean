import RegistryCache.Proofs.Pagination.PageContents

/-! # How links are written

A header lists links between commas: a target in angle brackets, and parameters each behind a semicolon,
with blanks where anybody likes them (`Link.Written`).  Reading finds the target of the first link that
has a parameter for the next page (`Link.next?_written`); the other links are passed over.
-/

namespace RegistryCache.Link

open Text (Padded)

/-- A link: a target, and any parameters. -/
structure Entry where
  target : String
  params : List String
  deriving DecidableEq, Repr

/-- Whether a parameter is for the next page: the relation without quotes, or with quotes and any spaces
    between. -/
def Next (param : String) : Prop :=
  Text.trim param.toList = "rel=next".toList ∨
    (Text.trim param.toList).filter (· ≠ ' ') = "rel=\"next\"".toList

instance (param : String) : Decidable (Next param) := inferInstanceAs (Decidable (_ ∨ _))

namespace Entry

/-- Nothing in a link looks like what separates links, or their parameters. -/
structure Plain (e : Entry) : Prop where
  target : ',' ∉ e.target.toList ∧ ';' ∉ e.target.toList
  params : ∀ param ∈ e.params, ',' ∉ param.toList ∧ ';' ∉ param.toList

instance (e : Entry) : Decidable e.Plain :=
  decidable_of_iff (_ ∧ _) ⟨fun plain => ⟨plain.1, plain.2⟩, fun plain => ⟨plain.target, plain.params⟩⟩

def SaysNext (e : Entry) : Prop := ∃ param ∈ e.params, Next param

instance (e : Entry) : Decidable e.SaysNext :=
  inferInstanceAs (Decidable (∃ param ∈ e.params, Next param))

/-- A link as it is written, with blanks around the target and around each parameter. -/
inductive Written (e : Entry) : List Char → Prop
  | spaced {front : List Char} {texts : List (List Char)}
      (brackets : Padded ('<' :: (e.target.toList ++ ['>'])) front)
      (each : List.Forall₂ (fun param text => Padded param.toList text) e.params texts) :
      Written e (front ++ texts.flatMap (';' :: ·))

end Entry

/-- Links as they are written in a header. -/
def Written (links : List Entry) (header : String) : Prop :=
  ∃ texts, List.Forall₂ Entry.Written links texts ∧ header.toList = [','].intercalate texts

theorem marksNext_of_padded {param : String} {text : List Char} (padded : Padded param.toList text) :
    marksNext text = true ↔ Next param := by
  have plain : "rel=next".toList = plainMark := by decide +kernel
  have quoted : "rel=\"next\"".toList = quotedMark := by decide +kernel
  rw [marksNext, Next, padded.trim_eq, plain, quoted, Bool.or_eq_true, beq_iff_eq, beq_iff_eq, or_comm]

theorem any_marksNext {params : List String} {texts : List (List Char)}
    (each : List.Forall₂ (fun param text => Padded param.toList text) params texts) :
    texts.any marksNext = true ↔ ∃ param ∈ params, Next param := by
  induction each with
  | nil => simp
  | cons padded rest inductionHypothesis =>
    rw [List.any_cons, Bool.or_eq_true, marksNext_of_padded padded, inductionHypothesis,
      List.exists_mem_cons_iff]

namespace Entry

variable {e : Entry} {text : List Char}

/-- No blank separates anything, so what is written has the separators of the link. -/
theorem Written.notMem_comma (written : e.Written text) (plain : e.Plain) : ',' ∉ text := by
  obtain ⟨brackets, each⟩ := written
  have params := Text.forall_mem_of_forall₂ each fun param member _ padded =>
    padded.notMem (c := ',') rfl (plain.params param member).1
  have front := brackets.notMem (c := ',') rfl (by simp [plain.target.1])
  simpa [front] using params

/-- A link for the next page counts for its target, and no other counts. -/
theorem Written.target?_eq (written : e.Written text) (plain : e.Plain) :
    target? text = if e.SaysNext then some e.target.toList else none := by
  obtain @⟨front, texts, brackets, each⟩ := written
  have apart := Text.forall_mem_of_forall₂ each fun param member _ padded =>
    padded.notMem (c := ';') rfl (plain.params param member).2
  have marks : texts.any marksNext = true ↔ e.SaysNext := any_marksNext each
  rw [target?_written brackets plain.target.2 apart]
  simp only [marks]

end Entry

/-- Reading finds the target of the first link for the next page as it stands in its brackets, whatever
    links are around it, and nothing if there is no such link. -/
theorem next?_written {links : List Entry} {header : String} (plain : ∀ e ∈ links, e.Plain)
    (written : Written links header) :
    next? header = (links.find? fun e => e.SaysNext).map (·.target) := by
  obtain ⟨texts, each, whole⟩ := written
  have apart : ∀ text ∈ texts, ',' ∉ text :=
    Text.forall_mem_of_forall₂ each fun e member _ written => written.notMem_comma (plain e member)
  have found : texts.findSome? target? =
      (links.find? fun e => e.SaysNext).map (·.target.toList) := by
    have both := (List.forall₂_and_left _ _).mpr ⟨plain, each⟩
    clear plain each whole apart
    induction both with
    | nil => rfl
    | @cons e text _ _ own rest inductionHypothesis =>
      rw [List.findSome?_cons, List.find?_cons, own.2.target?_eq own.1]
      by_cases next : e.SaysNext
      · simp [next]
      · simp [next, inductionHypothesis]
  have pieces : (Text.pieces ',' header.toList).findSome? target? = texts.findSome? target? := by
    by_cases listed : texts = []
    · rw [whole, listed]
      rfl
    · rw [whole, Text.pieces, List.splitOn_intercalate ',' apart listed]
  rw [next?, pieces, found, Option.map_map]
  cases links.find? fun e => e.SaysNext with
  | none => rfl
  | some e => exact congrArg some String.ofList_toList

def mixed : List Entry :=
  [⟨"/a?last=v0", ["rel=\"prev\""]⟩, ⟨"/a", []⟩, ⟨"/a?last=v2", ["title=a", "rel = \"next\""]⟩,
    ⟨"/a?last=v9", ["rel=next"]⟩]

/-- The page before and a bare link stand first, and another next page last. -/
theorem next?_written_mixed :
    let header := "</a?last=v0>; rel=\"prev\",</a> , </a?last=v2>;title=a ; rel = \"next\",</a?last=v9>;rel=next"
    (∀ e ∈ mixed, e.Plain) ∧ Written mixed header ∧ next? header = some "/a?last=v2" := by
  intro header
  have plain : ∀ e ∈ mixed, e.Plain := by decide +kernel
  have written : Written mixed header := by
    have gap := Text.blank_space
    have no : ∀ c ∈ ([] : List Char), Text.isBlank c = true := nofun
    refine ⟨_, .cons (.spaced (.blanks no no) (.cons (.blanks gap no) .nil))
      (.cons (.spaced (.blanks no gap) .nil)
        (.cons (.spaced (.blanks gap no) (.cons (.blanks no gap) (.cons (.blanks gap no) .nil)))
          (.cons (.spaced (.blanks no no) (.cons (.blanks no no) .nil)) .nil))), ?_⟩
    decide +kernel
  refine ⟨plain, written, ?_⟩
  rw [next?_written plain written]
  decide +kernel

end RegistryCache.Link
