import Mathlib.Data.List.Basic
import RegistryCache.Cache.Catalog
import RegistryCache.Proofs.Browsing.ByteOrder
import RegistryCache.Proofs.Browsing.Paths

/-! # Browsing the catalog

What `Catalog.children` lists below a path are the names that some repository is within
(`mem_names_children_iff`).  So a descent along listed names stays on the way to repositories, and
every repository whose segments are all there is reached by one (`browsable`).
-/

namespace RegistryCache.Catalog

open RegistryCache.Path (IsSegment Within Tidy child ofSegments slashes)

variable (c : Catalog)

/-- The paths that a descent from the top leads to, along names that are listed. -/
inductive Reached : String → Prop
  | top {name : String} (listed : name ∈ (c.children "").names) : Reached name
  | further {path name : String} (reached : Reached path)
      (listed : name ∈ (c.children path).names) : Reached (child path name)

/-- What browsing promises of a catalog. -/
structure Browsable : Prop where
  /-- Every segment of a repository is listed below the ones before it. -/
  listed : ∀ names : List String, (∀ name ∈ names, IsSegment name) →
    ofSegments names ∈ c.repositories → ∀ (i : Nat) (inside : i < names.length),
      names[i] ∈ (c.children (ofSegments (names.take i))).names
  /-- So a descent arrives at the repository, which stands at the end of its segments. -/
  arrives : ∀ names : List String, names ≠ [] → (∀ name ∈ names, IsSegment name) →
    ofSegments names ∈ c.repositories →
      c.Reached (ofSegments names) ∧ (c.children (ofSegments names)).isRepository = true
  /-- A descent never leaves the ways to repositories. -/
  onward : ∀ path, c.Reached path → ∃ repository ∈ c.repositories, Within path repository
  /-- Slashes at the ends of a path change nothing. -/
  trimmed : ∀ (before after : Nat) (path : String),
    c.children (slashes before ++ path ++ slashes after) = c.children path
  /-- Names are listed in the order of their bytes, each once. -/
  sorted : ∀ path, (c.children path).names.Pairwise fun name name' =>
    Text.Utf8.encode name.toList < Text.Utf8.encode name'.toList
  /-- What is listed are names, without slashes. -/
  segments : ∀ path, ∀ name ∈ (c.children path).names, IsSegment name

/-! ## The listed names -/

/-- A name is listed if a repository is within it. -/
theorem mem_names_children_iff {path name : String} :
    name ∈ (c.children path).names ↔
      IsSegment name ∧ ∃ repository ∈ c.repositories, Within (child (Path.trimmed path) name) repository := by
  simp only [children, List.mem_mergeSort, List.mem_eraseDups, List.mem_filterMap,
    Path.nextSegment?_eq_some_iff]
  constructor
  · rintro ⟨repository, member, segment, within⟩
    exact ⟨segment, repository, member, within⟩
  · rintro ⟨segment, repository, member, within⟩
    exact ⟨repository, member, segment, within⟩

/-- What is left after repeats are dropped are different names. -/
theorem nodup_eraseDups (names : List String) : names.eraseDups.Nodup := by
  cases names with
  | nil => exact .nil
  | cons name rest =>
    -- what follows a name are the names left among those that differ from it
    have rest_nodup := nodup_eraseDups (rest.filter fun other => !other == name)
    rw [List.eraseDups_cons, List.nodup_cons]
    refine ⟨?_, rest_nodup⟩
    intro again
    simpa using List.mem_eraseDups.mp again
termination_by names.length
decreasing_by
  have shorter := List.length_filter_le (fun other => !other == name) rest
  rw [List.length_cons]
  omega

theorem nodup_names_children (path : String) : (c.children path).names.Nodup := by
  rw [children, (List.mergeSort_perm _ _).nodup_iff]
  exact nodup_eraseDups _

theorem pairwise_le_names_children (path : String) :
    (c.children path).names.Pairwise (· ≤ ·) := by
  have trans : ∀ a b c : String,
      decide (a ≤ b) = true → decide (b ≤ c) = true → decide (a ≤ c) = true := by
    simpa using fun a b c => String.le_trans
  have total : ∀ a b : String, (decide (a ≤ b) || decide (b ≤ a)) = true := by
    simpa using String.le_total
  simpa [children] using List.pairwise_mergeSort trans total _

theorem pairwise_encode_names_children (path : String) :
    (c.children path).names.Pairwise fun name name' =>
      Text.Utf8.encode name.toList < Text.Utf8.encode name'.toList := by
  refine ((c.pairwise_le_names_children path).and (c.nodup_names_children path)).imp ?_
  rintro name name' ⟨ordered, other⟩
  have less : name < name' := by
    rw [← String.not_le]
    exact fun reversed => other (String.le_antisymm ordered reversed)
  exact Text.Utf8.encode_lt (String.lt_iff.mp less)

/-! ## Descents -/

/-- The children of a tidy path, with no trimming left to do. -/
theorem mem_names_of_tidy {path name : String} (tidy : Tidy path) :
    name ∈ (c.children path).names ↔
      IsSegment name ∧ ∃ repository ∈ c.repositories, Within (child path name) repository := by
  rw [mem_names_children_iff, tidy.trimmed_eq]

theorem isRepository_iff {path : String} (tidy : Tidy path) (named : path ≠ "") :
    (c.children path).isRepository = true ↔ path ∈ c.repositories := by
  simp [children, tidy.trimmed_eq, named]

/-- A step of a descent keeps to tidy paths, and to the ways to repositories. -/
theorem Reached.tidy_and_within {path : String} (reached : c.Reached path) :
    Tidy path ∧ ∃ repository ∈ c.repositories, Within path repository := by
  induction reached with
  | top listed =>
    obtain ⟨segment, onward⟩ := (c.mem_names_of_tidy Path.tidy_root).mp listed
    exact ⟨segment.tidy, onward⟩
  | further reached listed inductionHypothesis =>
    obtain ⟨segment, onward⟩ := (c.mem_names_of_tidy inductionHypothesis.1).mp listed
    exact ⟨inductionHypothesis.1.child segment, onward⟩

/-- A path of names is within each of its beginnings. -/
theorem within_ofSegments_take {names : List String} {i : Nat} (inside : i < names.length) :
    Within (ofSegments (names.take (i + 1))) (ofSegments names) := by
  have whole : names.take (i + 1) ++ names.drop (i + 1) = names := List.take_append_drop ..
  by_cases last : names.drop (i + 1) = []
  · rw [last, List.append_nil] at whole
    exact .inl (congrArg ofSegments whole.symm)
  · have taken : names.take (i + 1) ≠ [] := by
      rw [← List.take_append_getElem inside]
      exact List.concat_ne_nil _ _
    refine .inr ⟨ofSegments (names.drop (i + 1)), ?_⟩
    rw [ofSegments, ofSegments, ofSegments, Text.join, Text.join, Text.join,
      ← String.intercalate_append_of_ne_nil taken last, whole]

section
variable {names : List String} (segments : ∀ name ∈ names, IsSegment name)
include segments

theorem ofSegments_take_succ {i : Nat} (inside : i < names.length) :
    ofSegments (names.take (i + 1)) = child (ofSegments (names.take i)) names[i] := by
  have before : ∀ name ∈ names.take i, IsSegment name := by
    intro name taken
    exact segments name (List.mem_of_mem_take taken)
  rw [← Path.ofSegments_concat before, List.take_append_getElem inside]

theorem getElem_mem_names (member : ofSegments names ∈ c.repositories) {i : Nat}
    (inside : i < names.length) :
    names[i] ∈ (c.children (ofSegments (names.take i))).names := by
  have before : ∀ name ∈ names.take i, IsSegment name := by
    intro name taken
    exact segments name (List.mem_of_mem_take taken)
  have within := within_ofSegments_take inside
  rw [ofSegments_take_succ segments inside] at within
  rw [c.mem_names_of_tidy (Path.tidy_ofSegments before)]
  exact ⟨segments _ (List.getElem_mem inside), ofSegments names, member, within⟩

/-- Each beginning of a repository is reached, by induction on its number of names. -/
theorem reached_take (member : ofSegments names ∈ c.repositories) {i : Nat}
    (inside : i < names.length) : c.Reached (ofSegments (names.take (i + 1))) := by
  induction i with
  | zero =>
    rw [ofSegments_take_succ segments inside]
    exact .top (c.getElem_mem_names segments member inside)
  | succ i inductionHypothesis =>
    rw [ofSegments_take_succ segments inside]
    exact .further (inductionHypothesis (by omega)) (c.getElem_mem_names segments member inside)

theorem reached_ofSegments (full : names ≠ []) (member : ofSegments names ∈ c.repositories) :
    c.Reached (ofSegments names) := by
  have long : 0 < names.length := List.length_pos_iff.mpr full
  have reached := c.reached_take segments member (i := names.length - 1) (by omega)
  rwa [show names.length - 1 + 1 = names.length by omega, List.take_length] at reached

end

/-- Browsing reaches the repositories of a catalog and nothing that is not on the way to one. -/
theorem browsable : c.Browsable where
  listed names segments member i inside := c.getElem_mem_names segments member inside
  arrives names full segments member :=
    ⟨c.reached_ofSegments segments full member,
      (c.isRepository_iff (Path.tidy_ofSegments segments) (Path.ofSegments_ne full segments)).mpr
        member⟩
  onward path reached := (Reached.tidy_and_within c reached).2
  trimmed before after path := by
    rw [children, Path.trimmed_slashes, children]
  sorted := c.pairwise_encode_names_children
  segments path name listed := (c.mem_names_children_iff.mp listed).1

end RegistryCache.Catalog
