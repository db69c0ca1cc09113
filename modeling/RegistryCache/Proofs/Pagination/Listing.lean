import Mathlib.Data.Finset.Card
import RegistryCache.Registry.Basic

/-! # Listings in pages

A `Listing` is what a registry answers to the request for each page.  A reader of pages goes from one
cursor to the next (`cursorAt`) and gathers what it finds (`walkFrom`).  Whether it ever comes to an
end is a matter of the cursors alone: it does if and only if it never comes to the same cursor twice
(`ends_iff`), and then it asks for no more pages than there are, plus one.
-/

namespace RegistryCache

/-- What is answered to the request for the page at a cursor: names with the cursor of the page after
    them, or a failure. -/
abbrev Listing := Option String → Except RegistryError (List String × Option String)

namespace Listing

variable (listing : Listing)

/-- The cursor after one, if the page there leads on.  A page that names the cursor it was asked for
    with does not. -/
def after (cursor : Option String) : Option (Option String) :=
  match listing cursor with
  | .ok (_, some next) => if cursor = some next then none else some (some next)
  | _ => none

/-- The cursor that a reader has come to after so many pages, unless it is done before that. -/
def cursorFrom (start : Option String) : Nat → Option (Option String)
  | 0 => some start
  | n + 1 => (cursorFrom start n).bind listing.after

def cursorAt (n : Nat) : Option (Option String) := listing.cursorFrom none n

/-- The page at a cursor, if it is none that names its own cursor. -/
def checked (label : String) (cursor : Option String) :
    Except RegistryError (List String × Option String) := do
  let (names, next) ← listing cursor
  return (names, ← nextCursor cursor next label)

/-- What a reader has at the end if it asks for at most so many pages; nothing if it is not at the end
    by then. -/
def walkFrom (label : String) : Nat → Option String → Option (Except RegistryError (List String))
  | 0, _ => none
  | n + 1, cursor =>
    match listing.checked label cursor with
    | .error e => some (.error e)
    | .ok (names, none) => some (.ok names)
    | .ok (names, some next) => (walkFrom label n (some next)).map (·.map (names ++ ·))

/-- A page is a failure, the last one, or leads on. -/
theorem checked_cases (label : String) (cursor : Option String) :
    (∃ e, listing.checked label cursor = .error e ∧ listing.after cursor = none) ∨
    (∃ names, listing.checked label cursor = .ok (names, none) ∧ listing.after cursor = none) ∨
    (∃ names next, listing.checked label cursor = .ok (names, some next) ∧
      listing.after cursor = some (some next)) := by
  unfold checked after
  cases listing cursor with
  | error e => exact .inl ⟨e, rfl, rfl⟩
  | ok found =>
    obtain ⟨names, next⟩ := found
    cases next with
    | none => exact .inr (.inl ⟨names, rfl, rfl⟩)
    | some next =>
      by_cases stuck : cursor = some next
      · refine .inl ⟨⟨.registry, s!"{label} pagination did not advance past {next}"⟩, ?_, if_pos stuck⟩
        change (nextCursor cursor (some next) label >>= fun next => pure (names, next)) = _
        rw [nextCursor, if_pos stuck]
        rfl
      · refine .inr (.inr ⟨names, next, ?_, if_neg stuck⟩)
        change (nextCursor cursor (some next) label >>= fun next => pure (names, next)) = _
        rw [nextCursor, if_neg stuck]
        rfl

/-! ## Going on -/

theorem cursorFrom_add (start : Option String) (m n : Nat) :
    listing.cursorFrom start (m + n) =
      (listing.cursorFrom start m).bind fun cursor => listing.cursorFrom cursor n := by
  induction n with
  | zero => simp [cursorFrom]
  | succ n inductionHypothesis =>
    rw [← Nat.add_assoc, cursorFrom, inductionHypothesis, Option.bind_assoc]
    rfl

theorem cursorFrom_succ (start : Option String) (n : Nat) :
    listing.cursorFrom start (n + 1) =
      (listing.after start).bind fun cursor => listing.cursorFrom cursor n := by
  rw [Nat.add_comm, cursorFrom_add]
  rfl

variable {listing} {start : Option String} {label : String}

theorem cursorFrom_eq_none_of_le {m n : Nat} (done : listing.cursorFrom start m = none)
    (le : m ≤ n) : listing.cursorFrom start n = none := by
  obtain ⟨k, rfl⟩ := Nat.exists_eq_add_of_le le
  rw [cursorFrom_add, done, Option.bind_none]

/-- A reader has something to show as soon as, and only if, it is done. -/
theorem walkFrom_eq_none_iff {n : Nat} :
    listing.walkFrom label n start = none ↔ listing.cursorFrom start n ≠ none := by
  induction n generalizing start with
  | zero => simp [walkFrom, cursorFrom]
  | succ n inductionHypothesis =>
    rw [cursorFrom_succ]
    obtain ⟨e, page, last⟩ | ⟨names, page, last⟩ | ⟨names, next, page, further⟩ :=
      listing.checked_cases label start
    · simp [walkFrom, page, last]
    · simp [walkFrom, page, last]
    · simp [walkFrom, page, further, inductionHypothesis]

/-! ## Coming to an end -/

/-- A reader that comes to a cursor once more will come to it again and again. -/
theorem endless_of_revisit {i j : Nat} (before : i < j)
    (going : listing.cursorFrom start j ≠ none)
    (same : listing.cursorFrom start i = listing.cursorFrom start j) (n : Nat) :
    listing.cursorFrom start n ≠ none := by
  have shift (k : Nat) :
      listing.cursorFrom start (i + k) = listing.cursorFrom start (j + k) := by
    rw [cursorFrom_add, cursorFrom_add, same]
  -- beyond `j` the cursors repeat those that lie `j - i` before
  have beyond (k : Nat) : listing.cursorFrom start (j + k) ≠ none := by
    induction k using Nat.strong_induction_on with
    | _ k inductionHypothesis =>
      rw [← shift k]
      by_cases near : i + k ≤ j
      · intro done
        exact going (cursorFrom_eq_none_of_le done near)
      · have earlier := inductionHypothesis (i + k - j) (by omega)
        rwa [Nat.add_sub_of_le (by omega)] at earlier
  intro done
  exact beyond n (cursorFrom_eq_none_of_le done (Nat.le_add_left n j))

theorem exists_page_of_succ {n : Nat} (going : listing.cursorFrom start (n + 1) ≠ none) :
    ∃ cursor page, listing.cursorFrom start n = some cursor ∧ listing cursor = .ok page := by
  rw [cursorFrom] at going
  cases stands : listing.cursorFrom start n with
  | none => simp [stands] at going
  | some cursor =>
    cases page : listing cursor with
    | error e => simp [stands, after, page] at going
    | ok found => exact ⟨cursor, found, rfl, page⟩

/-- A reader that never comes to the same cursor twice asks for at most one page more than there
    are. -/
theorem le_card_of_distinct {pages : Finset (Option String)}
    (finite : ∀ cursor page, listing cursor = .ok page → cursor ∈ pages) {n : Nat}
    (distinct : ∀ i j, i < j → listing.cursorFrom start j ≠ none →
      listing.cursorFrom start i ≠ listing.cursorFrom start j)
    (going : listing.cursorFrom start n ≠ none) : n ≤ pages.card := by
  have page (i : Nat) (before : i < n) :
      ∃ cursor ∈ pages, listing.cursorFrom start i = some cursor := by
    have further : listing.cursorFrom start (i + 1) ≠ none := by
      intro done
      exact going (cursorFrom_eq_none_of_le done before)
    obtain ⟨cursor, page, stands, found⟩ := exists_page_of_succ further
    exact ⟨cursor, finite cursor page found, stands⟩
  have apart (i j : Nat) (before : i < j) (inside : j < n) :
      listing.cursorFrom start i ≠ listing.cursorFrom start j := by
    apply distinct i j before
    intro done
    exact going (cursorFrom_eq_none_of_le done (Nat.le_of_lt inside))
  -- one page for each number below `n`, and no page twice
  have counted : (Finset.range n).card ≤ pages.card := by
    apply Finset.card_le_card_of_injOn fun i => (listing.cursorFrom start i).getD none
    · intro i member
      obtain ⟨cursor, inside, stands⟩ := page i (Finset.mem_range.mp member)
      simpa [stands] using inside
    · intro i memberI j memberJ equal
      have insideI := Finset.mem_range.mp memberI
      have insideJ := Finset.mem_range.mp memberJ
      obtain ⟨cursorI, _, standsI⟩ := page i insideI
      obtain ⟨cursorJ, _, standsJ⟩ := page j insideJ
      have same : listing.cursorFrom start i = listing.cursorFrom start j := by
        rw [standsI, standsJ]
        simpa [standsI, standsJ] using equal
      rcases Nat.lt_trichotomy i j with less | rfl | more
      · exact absurd same (apart i j less insideJ)
      · rfl
      · exact absurd same.symm (apart j i more insideI)
  rwa [Finset.card_range] at counted

/-- Over finitely many pages a reader comes to an end if and only if it never comes to the same cursor
    twice. -/
theorem ends_iff {pages : Finset (Option String)}
    (finite : ∀ cursor page, listing cursor = .ok page → cursor ∈ pages) :
    (∃ n, listing.cursorFrom start n = none) ↔
      ∀ i j, i < j → listing.cursorFrom start j ≠ none →
        listing.cursorFrom start i ≠ listing.cursorFrom start j := by
  constructor
  · intro ⟨n, done⟩ i j before going same
    exact endless_of_revisit before going same n done
  · intro distinct
    refine ⟨pages.card + 1, ?_⟩
    by_contra going
    have bounded := le_card_of_distinct finite distinct going
    omega

end Listing

end RegistryCache
