import RegistryCache.Proofs.Addresses.PlainPaths
import RegistryCache.Proofs.Addresses.References

/-! # Absolute paths as references

A reference that begins with one slash names a path at the place of the base, whatever stands behind
that slash: every such path has an address there, and of the base this has only the scheme and the
authority (`Url.join_absolute`).  What the host is asked for then is what the reference says, and
nothing of the base (`Url.AsksFor`).
-/

namespace RegistryCache

namespace Url

/-- An absolute path: there is one slash in front, and no blank or control anywhere.  In addresses of the
    web a backslash is as good as a slash. -/
structure IsAbsolutePath (text : List Char) : Prop where
  slash : text.head? = some '/'
  single : (text.takeWhile (isSlash true)).length = 1
  solid : ∀ c ∈ text, isDust c = false

/-! ## Parts -/

theorem cleaned_of_solid {cs : List Char} (solid : ∀ c ∈ cs, isDust c = false) : cleaned cs = cs := by
  have kept (xs : List Char) (solid : ∀ c ∈ xs, isDust c = false) : xs.dropWhile isDust = xs := by
    cases xs with
    | nil => rfl
    | cons c rest => exact List.dropWhile_cons_of_neg (by simp [solid c List.mem_cons_self])
  have behind : ∀ c ∈ cs.reverse, isDust c = false :=
    fun c member => solid c (List.mem_reverse.mp member)
  have trimmed : Text.trimBy isDust cs = cs := by
    rw [Text.trimBy, kept cs solid, Text.trimEndBy, kept _ behind, List.reverse_reverse]
  change (Text.trimBy isDust cs).filter (fun c => c != '\t' && c != '\n' && c != '\r') = cs
  rw [trimmed]
  refine List.filter_eq_self.mpr ?_
  intro c member
  have firm := solid c member
  by_contra control
  have blank : c = '\t' ∨ c = '\n' ∨ c = '\r' := by
    by_contra other
    simp only [not_or] at other
    exact control (by simp [other])
  rcases blank with rfl | rfl | rfl <;> cases firm

/-- Cutting at a mark loses nothing. -/
theorem cutMark_append (mark : Char) (cs : List Char) :
    (cutMark mark cs).1 ++ markedText mark (cutMark mark cs).2 = cs := by
  unfold cutMark
  cases cut : Text.cut? mark cs with
  | none => exact List.append_nil cs
  | some both => exact (Text.eq_of_cut? cut).symm

/-- A text is made of its parts. -/
theorem append_parts (cs : List Char) :
    (parts cs).1 ++ markedText '?' (parts cs).2.1 ++ markedText '#' (parts cs).2.2 = cs := by
  change (cutMark '?' (cutMark '#' cs).1).1 ++ markedText '?' (cutMark '?' (cutMark '#' cs).1).2 ++
    markedText '#' (cutMark '#' cs).2 = cs
  rw [cutMark_append, cutMark_append]

theorem cutMark_cons_of_ne {mark c : Char} (other : c ≠ mark) (cs : List Char) :
    (cutMark mark (c :: cs)).1 = c :: (cutMark mark cs).1 := by
  unfold cutMark
  rw [Text.cut?, if_neg other]
  cases Text.cut? mark cs <;> rfl

theorem cutScheme?_slash (cs : List Char) : cutScheme? ('/' :: cs) = none := by
  unfold cutScheme?
  rw [Text.cut?, if_neg (by decide)]
  cases Text.cut? ':' cs with
  | none => rfl
  | some both => simp [show ('/' : Char).isAlpha = false from rfl]

/-- What an absolute path is as a reference: it has no scheme, and its body begins with its only slash. -/
theorem IsAbsolutePath.ofChars {text : List Char} (path : IsAbsolutePath text) :
    ∃ rest, (parts text).1 = '/' :: rest ∧
      Reference.ofChars text = ⟨none, '/' :: rest, (parts text).2.1, (parts text).2.2⟩ ∧
      ∀ c, rest.head? = some c → isSlash true c = false := by
  obtain ⟨slash, single, solid⟩ := path
  cases text with
  | nil => cases slash
  | cons first rest =>
    cases slash
    have body : (parts ('/' :: rest)).1 = '/' :: (parts rest).1 := by
      change (cutMark '?' (cutMark '#' ('/' :: rest)).1).1 = '/' :: (cutMark '?' (cutMark '#' rest).1).1
      rw [cutMark_cons_of_ne (by decide), cutMark_cons_of_ne (by decide)]
    refine ⟨(parts rest).1, body, ?_, ?_⟩
    · rw [ofChars_eq_parts, cleaned_of_solid solid, body, cutScheme?_slash]
      rfl
    · intro c head
      -- the body ends where a query or a fragment begins, so it begins as the text does
      have second : rest.head? = some c := by
        rw [← append_parts rest, List.append_assoc, List.head?_append, head]
        rfl
      cases rest with
      | nil => cases second
      | cons d more =>
        cases second
        rw [List.takeWhile_cons_of_pos (by decide)] at single
        by_contra further
        rw [List.takeWhile_cons_of_pos (by simpa using further)] at single
        simp at single

/-! ## Addresses -/

/-- Where an absolute path leads from a base: to the path itself, with its own query and fragment. -/
def atRoot (base : Url) (text : List Char) : Url :=
  ⟨base.scheme, base.authority, .segments (walk [] (leadingSegments (parts text).1)),
    encodeQuery base.scheme (parts text).2.1, encodeFragment (parts text).2.2⟩

/-- An absolute path has an address at every address of the web. -/
theorem join_absolute {base : Url} {place : List (List Char)} (web : isWeb base.scheme)
    (segments : base.path = .segments place) {text : String} (path : IsAbsolutePath text.toList) :
    base.join text = .ok (base.atRoot text.toList) := by
  obtain ⟨rest, body, reference, behind⟩ := path.ofChars
  obtain ⟨known, noFile⟩ := web.known
  rw [join, resolve, reference]
  dsimp only
  rw [if_neg (by simp), segments]
  dsimp only
  rw [if_neg noFile, relative, atRoot, body, known]
  -- what stands behind the slash is no second one
  cases rest with
  | nil => rfl
  | cons c more =>
    have other := behind c rfl
    split
    · rename_i empty
      cases empty
    · rename_i second
      cases second
      cases other
    · rename_i first
      cases first
      rw [if_pos (by decide)]
      dsimp only
      rw [if_neg (by simp [other])]
      rfl

/-! ## What is asked for -/

/-- What the host of an address is asked for: the path and the query. -/
def target (u : Url) : List Char := pathText u.path ++ markedText '?' u.query

/-- Whether a character stands for itself in a query of the web. -/
def isPlainInQuery (c : Char) : Bool := 0x20 < c.toNat && c.toNat < 0x7F && !queryEscaped true c

/-- A path, perhaps with a query, in which everything stands for itself. -/
structure IsPlainTarget (text : List Char) : Prop where
  path : Plain (parts text).1
  query : ∀ query, (parts text).2.1 = some query → ∀ c ∈ query, isPlainInQuery c = true
  whole : (parts text).2.2 = none

instance : DecidablePred IsPlainTarget := fun text =>
  decidable_of_iff (Plain (parts text).1 ∧
      ((parts text).2.1.all (·.all isPlainInQuery)) = true ∧ (parts text).2.2 = none) <| by
    simp only [Option.all_eq_true, List.all_eq_true]
    exact ⟨fun ⟨path, query, whole⟩ => ⟨path, query, whole⟩,
      fun ⟨path, query, whole⟩ => ⟨path, query, whole⟩⟩

/-- An address asks for what a text says: it has the path to which the text leads from the root, and the
    query of the text.  If everything in it stands for itself, the text is asked for as it is. -/
structure AsksFor (u : Url) (text : List Char) : Prop where
  path : u.path = .segments (walk [] (leadingSegments (parts text).1))
  query : u.query = encodeQuery u.scheme (parts text).2.1
  verbatim : IsPlainTarget text → u.target = text

theorem encodeQuery_of_plain {scheme : List Char} (known : isKnown scheme = true)
    {query : Option (List Char)}
    (plain : ∀ cs, query = some cs → ∀ c ∈ cs, isPlainInQuery c = true) :
    encodeQuery scheme query = query := by
  cases query with
  | none => rfl
  | some cs =>
    refine congrArg some (encode_of_kept fun c member => ?_)
    have free := plain cs rfl c member
    simp only [isPlainInQuery, Bool.and_eq_true, decide_eq_true_eq, Bool.not_eq_true'] at free
    rw [known]
    exact ⟨free.1.1, free.1.2, free.2⟩

/-- At a base an absolute path is what is asked for. -/
theorem asksFor_atRoot {base : Url} (web : isWeb base.scheme) {text : List Char}
    (path : IsAbsolutePath text) : (base.atRoot text).AsksFor text where
  path := rfl
  query := rfl
  verbatim := by
    intro plain
    obtain ⟨rest, body, -, -⟩ := path.ofChars
    have spelled : pathText (.segments (walk [] (leadingSegments (parts text).1))) = (parts text).1 := by
      -- the slash in front separates nothing: only what is behind it is gone along
      have behind : Plain ([] ++ '/' :: rest) := body ▸ plain.path
      rw [body]
      exact pathText_walk_of_plain [] (plain_append_slash.mp behind).2
    calc (base.atRoot text).target
        = (parts text).1 ++ markedText '?' (parts text).2.1 := by
          rw [target, atRoot, spelled, encodeQuery_of_plain web.known.1 plain.query]
      _ = (parts text).1 ++ markedText '?' (parts text).2.1 ++ markedText '#' (parts text).2.2 := by
          rw [plain.whole]
          exact (List.append_nil _).symm
      _ = text := append_parts text

end Url

end RegistryCache
