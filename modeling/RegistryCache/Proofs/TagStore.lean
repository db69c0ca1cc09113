import RegistryCache.Cache.Tags

/-! # The tag store through its entries

A store is looked at through `get?`.  Putting a list in changes what is found for its own repository
and for no other; taking a tag out changes the list of one repository, and makes none appear.
-/

namespace RegistryCache

namespace TagEntry

variable (repository r : String) (tags : List String) (es : List TagEntry)

theorem find?_put :
    ((put repository tags es).find? (·.repository = r)).map TagEntry.tags =
      if repository = r then some tags
      else (es.find? (·.repository = r)).map TagEntry.tags := by
  induction es with
  | nil => by_cases own : repository = r <;> simp [put, own]
  | cons e rest inductionHypothesis =>
    rw [put]
    by_cases here : e.repository = repository
    · rw [if_pos here]
      by_cases own : repository = r
      · simp [own]
      · have other : ¬ e.repository = r := by
          rw [here]
          exact own
        simp [own, other]
    · rw [if_neg here]
      by_cases found : e.repository = r
      · have other : ¬ repository = r := by
          intro own
          exact here (found.trans own.symm)
        simp [found, other]
      · simpa [found] using inductionHypothesis

theorem find?_map_dropTag (tag : String) :
    ((es.map (dropTag repository tag)).find? (·.repository = r)).map TagEntry.tags =
      ((es.find? (·.repository = r)).map TagEntry.tags).map fun tags =>
        if repository = r then tags.filter (· ≠ tag) else tags := by
  induction es with
  | nil => rfl
  | cons e rest inductionHypothesis =>
    by_cases found : e.repository = r
    · by_cases own : repository = r
      · simp [dropTag, found, own]
      · have other : ¬ e.repository = repository := by
          rw [found]
          exact fun same => own same.symm
        have untouched : dropTag repository tag e = e := if_neg other
        simp [untouched, found, own]
    · simpa [found] using inductionHypothesis

/-- Where every repository has one entry, the entry that is found is the one that is there. -/
theorem find?_eq_some_iff_mem {es : List TagEntry} (distinct : (es.map TagEntry.repository).Nodup)
    (e : TagEntry) :
    (es.find? (·.repository = e.repository)).map TagEntry.tags = some e.tags ↔ e ∈ es := by
  induction es with
  | nil => simp
  | cons head rest inductionHypothesis =>
    obtain ⟨alone, distinct⟩ := List.nodup_cons.mp distinct
    by_cases own : head.repository = e.repository
    · -- no entry behind the head is of its repository
      have behind : e ∉ rest := by
        intro member
        exact alone (own ▸ List.mem_map_of_mem member)
      have same : head.tags = e.tags ↔ e = head := by
        constructor
        · intro equal
          cases head
          cases e
          simp_all
        · rintro rfl
          rfl
      simpa [own, behind] using same
    · have other : e ≠ head := by
        rintro rfl
        exact own rfl
      simpa [own, other] using inductionHypothesis distinct

end TagEntry

namespace TagStore

variable (s : TagStore) (repository tag r t : String) (tags : List String)

/-- The entries are what is found, and nothing else. -/
theorem mem_entries_iff : ⟨repository, tags⟩ ∈ s.entries ↔ s.get? repository = some tags :=
  (TagEntry.find?_eq_some_iff_mem s.distinct ⟨repository, tags⟩).symm

theorem get?_insert :
    (s.insert repository tags).get? r = if repository = r then some tags else s.get? r :=
  TagEntry.find?_put repository r tags s.entries

theorem get?_remove :
    (s.remove repository tag).get? r = (s.get? r).map fun tags =>
      if repository = r then tags.filter (· ≠ tag) else tags :=
  TagEntry.find?_map_dropTag repository r s.entries tag

theorem lists_insert :
    (s.insert repository tags).lists r t =
      if repository = r then tags.contains t else s.lists r t := by
  rw [lists, get?_insert]
  split <;> rfl

/-- What is listed after a removal: what was before, without the tag in its repository. -/
theorem lists_remove :
    (s.remove repository tag).lists r t = true ↔
      s.lists r t = true ∧ ¬ (repository = r ∧ tag = t) := by
  rw [lists, lists, get?_remove]
  cases s.get? r with
  | none => simp
  | some tags =>
    by_cases own : repository = r
    · have apart : (t ∈ tags ∧ ¬ t = tag) ↔ (t ∈ tags ∧ ¬ tag = t) := by
        rw [eq_comm]
      simpa [own] using apart
    · simp [own]

end TagStore

end RegistryCache
