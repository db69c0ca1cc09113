import RegistryCache.Proofs.Addresses.Extension

/-! # Addresses below an address

A text that is written behind an address without query and fragment, with a slash between them, is
read by itself: it is trimmed, cut at its marks and split at its slashes, and then its segments are
gone along from where the address ends (`Url.parse_below`).  The address determines the rest, and
whether there is one at all.
-/

namespace RegistryCache

namespace Url

/-! ## Parts -/

/-- A text in three parts: what stands in front of its marks, the query and the fragment. -/
def parts (cs : List Char) : List Char × Option (List Char) × Option (List Char) :=
  let (rest, fragment) := cutMark '#' cs
  let (body, query) := cutMark '?' rest
  (body, query, fragment)

theorem notMem_of_cutMark {mark : Char} {cs : List Char} (uncut : (cutMark mark cs).2 = none) :
    mark ∉ cs := by
  unfold cutMark at uncut
  cases held : Text.cut? mark cs with
  | none => exact Text.notMem_of_cut? held
  | some both =>
    rw [held] at uncut
    cases uncut

theorem cutMark_of_notMem {mark : Char} {cs : List Char} (absent : mark ∉ cs) :
    cutMark mark cs = (cs, none) := by
  rw [cutMark, Text.cut?_of_notMem absent]

/-- A text without marks is one part. -/
theorem parts_of_notMem {cs : List Char} (absent : '#' ∉ cs ∧ '?' ∉ cs) :
    parts cs = (cs, none, none) := by
  rw [parts, cutMark_of_notMem absent.1]
  dsimp only
  rw [cutMark_of_notMem absent.2]

theorem notMem_of_parts {cs : List Char} (one : (parts cs).2 = (none, none)) :
    '#' ∉ cs ∧ '?' ∉ cs := by
  have noFragment : '#' ∉ cs := notMem_of_cutMark (congrArg Prod.snd one)
  rw [parts, cutMark_of_notMem noFragment] at one
  exact ⟨noFragment, notMem_of_cutMark (congrArg Prod.fst one)⟩

theorem parts_append {cs : List Char} (absent : '#' ∉ cs ∧ '?' ∉ cs) (more : List Char) :
    parts (cs ++ more) = (cs ++ (parts more).1, (parts more).2) := by
  unfold parts
  rw [(cutMark_append_of_none (cutMark_of_notMem absent.1) more).2]
  dsimp only
  rw [(cutMark_append_of_none (cutMark_of_notMem absent.2) _).2]

/-- What an address was read from has its query and its fragment. -/
theorem marks_of_withAuthority {scheme cs : List Char} {r : Reference} {u : Url}
    (read : withAuthority scheme cs r = .ok u) :
    u.query = encodeQuery scheme r.query ∧ u.fragment = encodeFragment r.fragment := by
  unfold withAuthority at read
  dsimp only at read
  cases authority : readAuthority scheme (cs.takeWhile fun c => !isSlash (isKnown scheme) c)
    (hasMore (cs.dropWhile fun c => !isSlash (isKnown scheme) c) r) with
  | error e =>
    rw [authority] at read
    cases read
  | ok a =>
    rw [authority] at read
    cases read
    exact ⟨rfl, rfl⟩

theorem ofChars_eq_parts (cs : List Char) :
    Reference.ofChars cs =
      ⟨(cutScheme? (parts (cleaned cs)).1).map Prod.fst,
        ((cutScheme? (parts (cleaned cs)).1).map Prod.snd).getD (parts (cleaned cs)).1,
        (parts (cleaned cs)).2.1, (parts (cleaned cs)).2.2⟩ := by
  unfold Reference.ofChars parts
  dsimp only
  cases cutScheme? (cutMark '?' (cutMark '#' (cleaned cs)).1).1 <;> rfl

/-- Behind a text with a scheme and without marks another one is read by itself. -/
theorem ofChars_below {cs scheme : List Char} (named : (Reference.ofChars cs).scheme = some scheme)
    (query : (Reference.ofChars cs).query = none)
    (fragment : (Reference.ofChars cs).fragment = none) :
    ∃ blanks, ∀ more, Reference.ofChars (cs ++ '/' :: more) =
      ⟨some scheme, (Reference.ofChars cs).body ++ blanks ++ '/' :: (parts (tidied more)).1,
        (parts (tidied more)).2.1, (parts (tidied more)).2.2⟩ := by
  obtain ⟨blanks, dusty, clean⟩ := cleaned_behind (solid_of_scheme named)
  refine ⟨blanks, fun more => ?_⟩
  rw [ofChars_eq_parts] at named query fragment
  have absent : '#' ∉ cleaned cs ∧ '?' ∉ cleaned cs :=
    notMem_of_parts (Prod.ext query fragment)
  have own : (parts (cleaned cs)).1 = cleaned cs := congrArg Prod.fst (parts_of_notMem absent)
  rw [own] at named
  -- Neither blanks nor the slash behind them are marks.
  have absent' : '#' ∉ cleaned cs ++ blanks ++ ['/'] ∧ '?' ∉ cleaned cs ++ blanks ++ ['/'] := by
    have solid (mark : Char) (counts : isDust mark = false) : mark ∉ blanks := fun member =>
      absurd (List.all_eq_true.mp dusty mark member) (by simp [counts])
    simp [absent.1, absent.2, solid '#' (by decide), solid '?' (by decide)]
  have further : parts (cleaned (cs ++ '/' :: more)) =
      (cleaned cs ++ (blanks ++ '/' :: (parts (tidied more)).1), (parts (tidied more)).2) := by
    have regrouped : cleaned cs ++ blanks ++ '/' :: tidied more =
        cleaned cs ++ blanks ++ ['/'] ++ tidied more := by simp
    rw [clean, regrouped, parts_append absent']
    simp
  cases cut : cutScheme? (cleaned cs) with
  | none =>
    rw [cut] at named
    cases named
  | some both =>
    obtain ⟨scheme', body⟩ := both
    rw [cut] at named
    cases named
    rw [ofChars_eq_parts, ofChars_eq_parts, further, own, cut, cutScheme?_append cut]
    simp

/-! ## Segments -/

theorem segmentsOf_ne_nil (cs : List Char) : segmentsOf true cs ≠ [] := List.splitOnP_ne_nil _ _

theorem segmentsOf_cons (c : Char) (cs : List Char) :
    segmentsOf true (c :: cs) =
      if isSlash true c then [] :: segmentsOf true cs
      else (segmentsOf true cs).modifyHead (List.cons c) :=
  List.splitOnP_cons_eq_if_modifyHead _ _

theorem segmentsOf_append (front cs : List Char) :
    segmentsOf true (front ++ '/' :: cs) = segmentsOf true front ++ segmentsOf true cs :=
  List.splitOnP_append_cons _ _ (by decide)

/-- Segments are made of the characters between slashes. -/
theorem of_mem_segmentsOf {cs segment : List Char} (member : segment ∈ segmentsOf true cs) {c : Char}
    (inside : c ∈ segment) : c ∈ cs ∧ isSlash true c = false := by
  induction cs generalizing segment with
  | nil =>
    rw [List.mem_singleton.mp member] at inside
    cases inside
  | cons d rest inductionHypothesis =>
    rw [segmentsOf_cons] at member
    split at member
    · rcases List.mem_cons.mp member with rfl | later
      · cases inside
      · obtain ⟨found, other⟩ := inductionHypothesis later inside
        exact ⟨List.mem_cons_of_mem d found, other⟩
    · rename_i other
      cases split : segmentsOf true rest with
      | nil => exact absurd split (segmentsOf_ne_nil rest)
      | cons first later =>
        rw [split] at inductionHypothesis member
        rcases List.mem_cons.mp member with rfl | further
        · rcases List.mem_cons.mp inside with rfl | deeper
          · exact ⟨List.mem_cons_self, by simpa using other⟩
          · obtain ⟨found, apart⟩ := inductionHypothesis List.mem_cons_self deeper
            exact ⟨List.mem_cons_of_mem d found, apart⟩
        · obtain ⟨found, apart⟩ := inductionHypothesis (List.mem_cons_of_mem first further) inside
          exact ⟨List.mem_cons_of_mem d found, apart⟩

theorem notMem_of_mem_segmentsOf {cs segment : List Char} (member : segment ∈ segmentsOf true cs) :
    '\\' ∉ segment := by
  intro inside
  cases (of_mem_segmentsOf member inside).2

/-- The segments that a path in front of another one has: what stands between its slashes. -/
def leadingSegments : List Char → List (List Char)
  | [] => []
  | _ :: rest => segmentsOf true rest

/-- Behind an authority the segments of a text follow those in front of it. -/
theorem withAuthority_below {scheme : List Char} (known : isKnown scheme = true) (cs : List Char) :
    ∃ authority segments, (∀ s ∈ segments, '\\' ∉ s) ∧
      ∀ body r, withAuthority scheme (cs ++ '/' :: body) r =
        Except.map (fun a => assemble scheme (some a)
          (.segments (walk [] (segments ++ segmentsOf true body))) r) authority := by
  have taken (body : List Char) : (cs ++ '/' :: body).takeWhile (fun c => !isSlash true c) =
      cs.takeWhile fun c => !isSlash true c := by
    rw [List.takeWhile_append]
    split
    · rename_i whole
      rw [List.takeWhile_cons_of_neg (by decide), List.append_nil]
      exact ((List.takeWhile_prefix _).eq_of_length whole).symm
    · rfl
  have dropped (body : List Char) : (cs ++ '/' :: body).dropWhile (fun c => !isSlash true c) =
      (cs.dropWhile fun c => !isSlash true c) ++ '/' :: body := by
    rw [List.dropWhile_append]
    split
    · rename_i none'
      rw [List.dropWhile_cons_of_neg (by decide), List.isEmpty_iff.mp none', List.nil_append]
    · rfl
  refine ⟨readAuthority scheme (cs.takeWhile fun c => !isSlash true c) true,
    leadingSegments (cs.dropWhile fun c => !isSlash true c), ?_, fun body r => ?_⟩
  · cases cs.dropWhile fun c => !isSlash true c with
    | nil => exact fun s member => absurd member List.not_mem_nil
    | cons slash rest =>
      exact fun s (member : s ∈ segmentsOf true rest) => notMem_of_mem_segmentsOf member
  unfold withAuthority
  dsimp only
  rw [known, taken, dropped]
  have followed (rest : List Char) : hasMore (rest ++ '/' :: body) r = true := by
    cases rest <;> rfl
  rw [followed]
  cases cs.dropWhile fun c => !isSlash true c with
  | nil =>
    cases readAuthority scheme (cs.takeWhile fun c => !isSlash true c) true <;> rfl
  | cons slash rest =>
    have split : segmentsOf true (rest ++ '/' :: body) =
        leadingSegments (slash :: rest) ++ segmentsOf true body :=
      List.splitOnP_append_cons _ _ (by decide)
    rw [← split]
    cases readAuthority scheme (cs.takeWhile fun c => !isSlash true c) true <;> rfl

/-- What is read where something is written below an address of the web that has neither a query nor a
    fragment. -/
theorem parse_below {address : String} {u : Url} (parsed : parse address = .ok u)
    (web : isWeb u.scheme) (query : u.query = none) (fragment : u.fragment = none) :
    ∃ authority segments, (∀ s ∈ segments, '\\' ∉ s) ∧
      ∀ more : String, parse (address ++ "/" ++ more) =
        Except.map (fun a => ⟨u.scheme, some a,
          .segments (walk [] (segments ++ segmentsOf true (parts (tidied more.toList)).1)),
          encodeQuery u.scheme (parts (tidied more.toList)).2.1,
          encodeFragment (parts (tidied more.toList)).2.2⟩) authority := by
  unfold parse at parsed ⊢
  obtain ⟨named, read⟩ := resolve_none_eq_ok parsed web
  obtain ⟨known, noFile⟩ := web.known
  rw [drop_slashes] at read
  have solid := ne_nil_of_withAuthority known read
  -- The query and the fragment of the address are those of its text.
  obtain ⟨ownQuery, ownFragment⟩ := marks_of_withAuthority read
  rw [query] at ownQuery
  rw [fragment] at ownFragment
  obtain ⟨blanks, below⟩ := ofChars_below named (by simpa [encodeQuery] using ownQuery.symm)
    (by simpa [encodeFragment] using ownFragment.symm)
  obtain ⟨authority, segments, straight, further⟩ := withAuthority_below known
    (((Reference.ofChars address.toList).body ++ blanks).dropWhile (isSlash true))
  refine ⟨authority, segments, straight, fun more => ?_⟩
  have chars : (address ++ "/" ++ more).toList = address.toList ++ '/' :: more.toList := by simp
  have started : ((Reference.ofChars address.toList).body ++ blanks).dropWhile (isSlash true) ≠ [] := by
    rw [List.dropWhile_append, if_neg (by simpa using solid)]
    simp [solid]
  rw [chars, below, resolve]
  dsimp only
  rw [if_neg noFile, if_pos known, drop_slashes, List.dropWhile_append, if_neg (by simpa using started),
    further]
  rfl

end Url

end RegistryCache
