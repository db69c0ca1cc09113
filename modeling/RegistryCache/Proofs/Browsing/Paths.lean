import Mathlib.Data.List.Basic
import Mathlib.Data.List.Induction
import Mathlib.Data.List.TakeWhile
import RegistryCache.Proofs.Texts
import RegistryCache.Registry.Path

/-! # Steps along paths

The names of repositories are paths, and a step down goes from a path to a name below it
(`Path.child`).  A repository is within a path if it is that path or lies below it (`Path.Within`).
What is next below a path on the way to a repository is the one name whose path the repository is
within (`Path.nextSegment?_eq_some_iff`), so no repository is within two names of one path.
-/

namespace RegistryCache.Path

/-- A name that a step down can have: there is one, and no slash in it. -/
def IsSegment (name : String) : Prop := name ≠ "" ∧ '/' ∉ name.toList

/-- A repository is the root of a subtree, or lies below it. -/
def Within (root repository : String) : Prop :=
  repository = root ∨ ∃ rest, repository = root ++ "/" ++ rest

/-- A repository lies below a path, where the empty path is above all, and what it is called there
    does not begin with an empty name. -/
def HasNext (path repository : String) : Prop :=
  ∃ first rest, first ≠ '/' ∧ repository = child path (String.ofList (first :: rest))

/-- A path of names, one below the other. -/
def ofSegments (names : List String) : String := Text.join "/" names

/-- Slashes and nothing else. -/
def slashes (n : Nat) : String := String.ofList (List.replicate n '/')

/-! ## Ends -/

/-- Slashes at the ends of a path do not matter. -/
theorem trimmed_slashes (before after : Nat) (path : String) :
    trimmed (slashes before ++ path ++ slashes after) = trimmed path := by
  have marks : ∀ n, ∀ c ∈ List.replicate n '/', (c == '/') = true := by
    intro n c member
    simp [List.eq_of_mem_replicate member]
  simp only [trimmed, slashes, String.toList_append, String.toList_ofList, Text.trimMark]
  rw [Text.trimBy_append_right (marks after), Text.trimBy_append_left (marks before)]

/-- A path that neither begins nor ends with a slash. -/
structure Tidy (path : String) : Prop where
  first : ∀ c ∈ path.toList.head?, c ≠ '/'
  last : ∀ c ∈ path.toList.getLast?, c ≠ '/'

theorem dropWhile_slash {cs : List Char} (first : ∀ c ∈ cs.head?, c ≠ '/') :
    cs.dropWhile (· == '/') = cs := by
  cases cs with
  | nil => rfl
  | cons c rest => simp [first c rfl]

theorem Tidy.trimmed_eq {path : String} (tidy : Tidy path) : trimmed path = path := by
  have last : ∀ c ∈ path.toList.reverse.head?, c ≠ '/' := by simpa using tidy.last
  rw [trimmed, Text.trimMark, Text.trimBy, Text.trimEndBy, dropWhile_slash tidy.first,
    dropWhile_slash last, List.reverse_reverse, String.ofList_toList]

theorem tidy_root : Tidy "" := ⟨by simp, by simp⟩

theorem IsSegment.tidy {name : String} (segment : IsSegment name) : Tidy name where
  first c found := by
    rintro rfl
    exact segment.2 (List.mem_of_head? found)
  last c found := by
    rintro rfl
    exact segment.2 (List.mem_of_getLast? found)

/-! ## Steps down -/

@[simp] theorem child_root (name : String) : child "" name = name := rfl

theorem child_of_ne {path : String} (named : path ≠ "") (name : String) :
    child path name = path ++ "/" ++ name := by
  have full : path.isEmpty = false := by simpa using named
  simp [child, full, toString]

theorem child_append (path name more : String) : child path (name ++ more) = child path name ++ more := by
  by_cases root : path = ""
  · rw [root, child_root, child_root]
  · rw [child_of_ne root, child_of_ne root, ← String.append_assoc]

theorem child_injective {path name name' : String} (same : child path name = child path name') :
    name = name' := by
  by_cases root : path = ""
  · simpa [root] using same
  · rw [child_of_ne root, child_of_ne root] at same
    simpa [← String.toList_inj] using same

/-- A step down to a name leads from one tidy path to another. -/
theorem Tidy.child {path name : String} (tidy : Tidy path) (segment : IsSegment name) :
    Tidy (child path name) := by
  by_cases root : path = ""
  · rw [root, child_root]
    exact segment.tidy
  · have named : path.toList ≠ [] := by simpa using root
    have named' : name.toList ≠ [] := by simpa using segment.1
    rw [child_of_ne root]
    constructor
    · simpa [List.head?_append_of_ne_nil _ named] using tidy.first
    · have last := segment.tidy.last
      rw [← List.getLast?_append_of_ne_nil (path.toList ++ ['/']) named'] at last
      simpa using last

theorem ofSegments_ne {names : List String} (full : names ≠ [])
    (segments : ∀ name ∈ names, IsSegment name) : ofSegments names ≠ "" := by
  obtain ⟨first, rest, rfl⟩ := List.exists_cons_of_ne_nil full
  have named := (segments first (List.mem_cons_self ..)).1
  cases rest with
  | nil => simpa [ofSegments, Text.join] using named
  | cons second rest =>
    rw [ofSegments, Text.join, String.intercalate_cons_cons]
    intro empty
    simpa using congrArg String.toList empty

/-- A path of names grows by a step down. -/
theorem ofSegments_concat {names : List String} (segments : ∀ name ∈ names, IsSegment name)
    (last : String) : ofSegments (names ++ [last]) = Path.child (ofSegments names) last := by
  by_cases root : names = []
  · simp [root, ofSegments, Text.join]
  · rw [child_of_ne (ofSegments_ne root segments), ofSegments, Text.join,
      String.intercalate_append_of_ne_nil root (by simp), String.intercalate_singleton]
    rfl

theorem tidy_ofSegments {names : List String} (segments : ∀ name ∈ names, IsSegment name) :
    Tidy (ofSegments names) := by
  induction names using List.reverseRecOn with
  | nil => exact tidy_root
  | append_singleton names last inductionHypothesis =>
    have before : ∀ name ∈ names, IsSegment name := by
      intro name member
      exact segments name (List.mem_append_left _ member)
    rw [ofSegments_concat before]
    exact (inductionHypothesis before).child (segments last (by simp))

/-- What lies below a path is what a step down of that name leads to. -/
theorem below?_eq_some_iff {path repository : String} {rest : List Char} :
    below? path repository = some rest ↔ repository = child path (String.ofList rest) := by
  unfold below?
  by_cases root : path = ""
  · simp [root, ← String.toList_inj]
  · rw [if_neg (by simpa using root), Text.after?_eq_some_iff, child_of_ne root]
    simp [← String.toList_inj]

/-! ## Subtrees -/

theorem inSubtree_iff {root repository : String} :
    inSubtree root repository = true ↔ Within root repository := by
  have below : (Text.after? (root.toList ++ ['/']) repository.toList).isSome = true ↔
      ∃ rest, repository = root ++ "/" ++ rest := by
    rw [Option.isSome_iff_exists]
    constructor
    · rintro ⟨rest, after⟩
      exact ⟨String.ofList rest, by simpa [← String.toList_inj] using Text.after?_eq_some_iff.mp after⟩
    · rintro ⟨rest, rfl⟩
      exact ⟨rest.toList, Text.after?_eq_some_iff.mpr (by simp)⟩
  simp [inSubtree, Within, below]

instance (root repository : String) : Decidable (Within root repository) :=
  decidable_of_iff _ inSubtree_iff

/-- A repository within a path begins like it, and goes on with a slash if it goes on. -/
theorem within_iff {root repository : String} :
    Within root repository ↔
      ∃ more : List Char, repository = root ++ String.ofList more ∧ ∀ c ∈ more.head?, c = '/' := by
  constructor
  · rintro (rfl | ⟨rest, rfl⟩)
    · exact ⟨[], by simp, by simp⟩
    · exact ⟨'/' :: rest.toList, by simp [← String.toList_inj], by simp⟩
  · rintro ⟨- | ⟨c, rest⟩, rfl, slash⟩
    · exact .inl (by simp)
    · have own : c = '/' := slash c rfl
      exact .inr ⟨String.ofList rest, by simp [own, ← String.toList_inj]⟩

/-! ## The next segment -/

/-- A text is cut where its first segment ends. -/
theorem firstSegment_append {name : String} (plain : '/' ∉ name.toList) {more : List Char}
    (slash : ∀ c ∈ more.head?, c = '/') : firstSegment (name.toList ++ more) = name := by
  have inside : ∀ c ∈ name.toList, decide (c ≠ '/') = true := by
    intro c member
    have other : c ≠ '/' := by
      rintro rfl
      exact plain member
    simpa using other
  have ended : more.takeWhile (fun c => decide (c ≠ '/')) = [] := by
    cases more with
    | nil => rfl
    | cons c rest => simp [slash c rfl]
  rw [firstSegment, List.takeWhile_append_of_pos inside, ended, List.append_nil, String.ofList_toList]

theorem exists_firstSegment_append (cs : List Char) :
    ∃ more, cs = (firstSegment cs).toList ++ more ∧ '/' ∉ (firstSegment cs).toList ∧
      ∀ c ∈ more.head?, c = '/' := by
  refine ⟨cs.dropWhile (· ≠ '/'), ?_, ?_, ?_⟩
  · rw [firstSegment, String.toList_ofList, List.takeWhile_append_dropWhile]
  · rw [firstSegment, String.toList_ofList]
    intro member
    have inside := List.all_eq_true.mp List.all_takeWhile '/' member
    simp at inside
  · intro c first
    have ends := List.head?_dropWhile_not (fun c : Char => decide (c ≠ '/')) cs
    rw [Option.mem_def.mp first] at ends
    simpa using ends

/-- The next segment on the way to a repository is the name that the repository is within. -/
theorem nextSegment?_eq_some_iff {path repository name : String} :
    nextSegment? path repository = some name ↔
      IsSegment name ∧ Within (child path name) repository := by
  unfold nextSegment?
  constructor
  · intro next
    cases below : below? path repository with
    | none =>
      rw [below] at next
      cases next
    | some rest =>
      rw [below] at next
      simp only [Option.ite_none_left_eq_some, Option.some.injEq] at next
      obtain ⟨named, rfl⟩ := next
      obtain ⟨more, whole, plain, slash⟩ := exists_firstSegment_append rest
      refine ⟨⟨by simpa using named, plain⟩, within_iff.mpr ⟨more, ?_, slash⟩⟩
      rw [below?_eq_some_iff.mp below, ← child_append]
      congr 1
      rw [← String.toList_inj, String.toList_append, String.toList_ofList, String.toList_ofList]
      exact whole
  · rintro ⟨⟨named, plain⟩, within⟩
    obtain ⟨more, whole, slash⟩ := within_iff.mp within
    have below : below? path repository = some (name.toList ++ more) := by
      rw [below?_eq_some_iff, whole, ← child_append]
      congr 1
      simp
    have full : name.isEmpty = false := by simpa using named
    rw [below]
    dsimp only
    rw [firstSegment_append plain slash, full]
    rfl

/-- No repository is within two names of one path. -/
theorem Within.unique {path repository name name' : String} (first : IsSegment name)
    (second : IsSegment name') (within : Within (child path name) repository)
    (within' : Within (child path name') repository) : name = name' := by
  have next := nextSegment?_eq_some_iff.mpr ⟨first, within⟩
  rw [nextSegment?_eq_some_iff.mpr ⟨second, within'⟩] at next
  exact (Option.some.inj next).symm

theorem isSome_nextSegment?_iff {path repository : String} :
    (nextSegment? path repository).isSome = true ↔ HasNext path repository := by
  rw [Option.isSome_iff_exists]
  constructor
  · rintro ⟨name, next⟩
    obtain ⟨⟨named, plain⟩, within⟩ := nextSegment?_eq_some_iff.mp next
    obtain ⟨more, whole, -⟩ := within_iff.mp within
    cases letters : name.toList with
    | nil => exact absurd (String.toList_eq_nil_iff.mp letters) named
    | cons first rest =>
      refine ⟨first, rest ++ more, ?_, ?_⟩
      · rintro rfl
        simp [letters] at plain
      · rw [whole, ← child_append]
        congr 1
        rw [← String.toList_inj, String.toList_append, letters]
        simp
  · rintro ⟨first, rest, solid, whole⟩
    have below := below?_eq_some_iff.mpr whole
    refine ⟨firstSegment (first :: rest), ?_⟩
    have named : (firstSegment (first :: rest)).isEmpty = false := by
      simp [firstSegment, solid]
    unfold nextSegment?
    rw [below]
    dsimp only
    rw [named]
    rfl

instance (path repository : String) : Decidable (HasNext path repository) :=
  decidable_of_iff _ isSome_nextSegment?_iff

end RegistryCache.Path
