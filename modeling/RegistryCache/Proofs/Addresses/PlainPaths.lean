import RegistryCache.Proofs.Addresses.Below

/-! # Plain paths

Text that is written below an address need not come out as it is written: it may be encoded, cut at
its marks, or shortened by its dot segments.  Exactly the plain texts come out unchanged and change
nothing else (`Url.continues_iff_plain`).
-/

namespace RegistryCache

namespace Url

/-! ## Plain text -/

/-- Whether a character stands for itself in a path: within a segment, or as the slash between two. -/
def isPlain (c : Char) : Bool :=
  0x20 < c.toNat && c.toNat < 0x7F && !pathEscaped c && c != '\\'

/-- A path in which all characters stand for themselves, and all segments do, too. -/
structure Plain (path : List Char) : Prop where
  characters : ∀ c ∈ path, isPlain c = true
  segments : ∀ segment ∈ segmentsOf true path, isDot segment = false ∧ isDoubleDot segment = false

instance : DecidablePred Plain := fun path =>
  decidable_of_iff (path.all isPlain = true ∧
      (segmentsOf true path).all (fun s => !isDot s && !isDoubleDot s) = true) <| by
    simp only [List.all_eq_true, Bool.and_eq_true, Bool.not_eq_true']
    exact ⟨fun both => ⟨both.1, both.2⟩, fun plain => ⟨plain.characters, plain.segments⟩⟩

theorem isPlain_slash : isPlain '/' = true := by decide

/-- Characters of the classes that are treated specially are not plain. -/
theorem ne_of_isPlain {c d : Char} (plain : isPlain c = true) (special : isPlain d = false) :
    c ≠ d := by
  rintro rfl
  cases plain.symm.trans special

theorem not_isDust_of_isPlain {c : Char} (plain : isPlain c = true) : isDust c = false := by
  simp only [isPlain, Bool.and_eq_true, decide_eq_true_eq] at plain
  simp only [isDust, decide_eq_false_iff_not]
  omega

/-! ## Encoding -/

/-- Printable characters that a place does not encode are kept there. -/
theorem encode_of_kept {escaped : Char → Bool} {cs : List Char}
    (kept : ∀ c ∈ cs, 0x20 < c.toNat ∧ c.toNat < 0x7F ∧ escaped c = false) :
    Text.Percent.encode escaped cs = cs := by
  have each : ∀ c ∈ cs, Text.Percent.encodeChar escaped c = [c] := by
    intro c member
    obtain ⟨low, high, free⟩ := kept c member
    rw [Text.Percent.encodeChar, if_neg]
    simp only [free, Bool.or_false, Bool.or_eq_true, decide_eq_true_eq]
    omega
  rw [Text.Percent.encode, List.flatMap_congr each, List.flatMap_singleton']

theorem encode_of_isPlain {cs : List Char} (plain : ∀ c ∈ cs, isPlain c = true) :
    Text.Percent.encode pathEscaped cs = cs := by
  refine encode_of_kept fun c member => ?_
  have free := plain c member
  simp only [isPlain, Bool.and_eq_true, decide_eq_true_eq, Bool.not_eq_true'] at free
  obtain ⟨⟨⟨low, high⟩, kept⟩, -⟩ := free
  exact ⟨low, high, kept⟩

theorem isPlain_hexDigitUpper {n : Nat} (small : n < 16) : isPlain (Text.hexDigitUpper n) = true := by
  have digits : ∀ n < 16, isPlain (Text.hexDigitUpper n) = true := by decide
  exact digits n small

/-- Whatever is encoded is plain, except for backslashes, which separate segments. -/
theorem isPlain_of_mem_encode {cs : List Char} (straight : '\\' ∉ cs) {c : Char}
    (member : c ∈ Text.Percent.encode pathEscaped cs) : isPlain c = true := by
  obtain ⟨d, inside, written⟩ := List.mem_flatMap.mp member
  unfold Text.Percent.encodeChar at written
  split at written
  · obtain ⟨byte, -, digit⟩ := List.mem_flatMap.mp written
    have bound := byte.toNat_lt
    simp only [Text.Percent.encodeByte, List.mem_cons, List.not_mem_nil, or_false] at digit
    rcases digit with rfl | rfl | rfl
    · decide
    · exact isPlain_hexDigitUpper (by omega)
    · exact isPlain_hexDigitUpper (by omega)
  · rename_i kept
    rw [List.mem_singleton.mp written]
    have other : d ≠ '\\' := fun same => straight (same ▸ inside)
    have solid : d ≠ ' ' := by
      rintro rfl
      exact kept (by decide)
    have blank : d.toNat ≠ 0x20 := fun same => solid (Char.toNat_inj.mp same)
    simp only [Bool.or_eq_true, decide_eq_true_eq, not_or, Bool.not_eq_true] at kept
    simp only [isPlain, kept.2, other, Bool.not_false, Bool.and_true, bne_iff_ne, ne_eq,
      not_false_eq_true, Bool.and_eq_true, decide_eq_true_eq, and_true]
    omega

/-! ## Splitting -/

theorem pathText_append (front list : List (List Char)) :
    pathText (.segments (front ++ list)) = pathText (.segments front) ++ pathText (.segments list) :=
  List.flatMap_append

theorem pathText_cons (segment : List Char) (list : List (List Char)) :
    pathText (.segments (segment :: list)) = '/' :: segment ++ pathText (.segments list) :=
  List.flatMap_cons

/-- The segments of a text without backslashes spell it. -/
theorem pathText_segmentsOf {cs : List Char} (straight : '\\' ∉ cs) :
    pathText (.segments (segmentsOf true cs)) = '/' :: cs := by
  induction cs with
  | nil => rfl
  | cons c rest inductionHypothesis =>
    have spelled := inductionHypothesis fun member => straight (List.mem_cons_of_mem c member)
    rw [segmentsOf_cons]
    split
    · rename_i slash
      have own : c = '/' := by
        have other : c ≠ '\\' := fun same => straight (same ▸ List.mem_cons_self)
        simpa [isSlash, other] using slash
      rw [pathText_cons, spelled, own]
      rfl
    · cases split : segmentsOf true rest with
      | nil => exact absurd split (segmentsOf_ne_nil rest)
      | cons first later =>
        rw [split, pathText_cons] at spelled
        rw [List.modifyHead_cons, pathText_cons]
        simpa using spelled

/-- A path is plain if it is on both sides of a slash. -/
theorem plain_append_slash {front cs : List Char} :
    Plain (front ++ '/' :: cs) ↔ Plain front ∧ Plain cs := by
  constructor
  · intro ⟨characters, segments⟩
    rw [segmentsOf_append] at segments
    exact ⟨⟨fun c member => characters c (by simp [member]),
        fun s member => segments s (List.mem_append_left _ member)⟩,
      ⟨fun c member => characters c (by simp [member]),
        fun s member => segments s (List.mem_append_right _ member)⟩⟩
  · intro ⟨before, behind⟩
    constructor
    · intro c member
      rcases List.mem_append.mp member with early | late
      · exact before.characters c early
      · rcases List.mem_cons.mp late with rfl | late
        · exact isPlain_slash
        · exact behind.characters c late
    · intro s member
      rw [segmentsOf_append] at member
      rcases List.mem_append.mp member with early | late
      · exact before.segments s early
      · exact behind.segments s late

/-! ## Walking -/

/-- Where one step leads from a place: to the place above, nowhere, or to a segment in it.  The last
    step leaves a segment in any case. -/
def stride (place : List (List Char)) (segment : List Char) (last : Bool) : List (List Char) :=
  if isDoubleDot segment then if last then place.dropLast ++ [[]] else place.dropLast
  else if isDot segment then if last then place ++ [[]] else place
  else place ++ [Text.Percent.encode pathEscaped segment]

theorem walk_cons (place : List (List Char)) (segment : List Char) (rest : List (List Char)) :
    walk place (segment :: rest) = walk (stride place segment rest.isEmpty) rest := by
  rw [walk, stride]
  split
  · rfl
  · split <;> rfl

/-- Where a walk stands before its last steps does not depend on these. -/
theorem walk_append (place list : List (List Char)) (segment : List Char)
    (more : List (List Char)) :
    walk place (list ++ segment :: more) =
      walk (walk place (list ++ [[]])).dropLast (segment :: more) := by
  induction list generalizing place with
  | nil =>
    have stays : walk place [[]] = place ++ [[]] := rfl
    rw [List.nil_append, List.nil_append, stays, List.dropLast_concat]
  | cons s rest inductionHypothesis =>
    have going (s' : List Char) (more' : List (List Char)) :
        (rest ++ s' :: more').isEmpty = false := by simp
    rw [List.cons_append, List.cons_append, walk_cons, walk_cons place, going, going]
    exact inductionHypothesis _

/-- A walk along plain segments takes them as they are. -/
theorem walk_of_plain {list : List (List Char)} (place : List (List Char))
    (characters : ∀ s ∈ list, ∀ c ∈ s, isPlain c = true)
    (segments : ∀ s ∈ list, isDot s = false ∧ isDoubleDot s = false) :
    walk place list = place ++ list := by
  induction list generalizing place with
  | nil => rw [walk, List.append_nil]
  | cons s rest inductionHypothesis =>
    obtain ⟨noDot, noDoubleDot⟩ := segments s List.mem_cons_self
    have taken : stride place s rest.isEmpty = place ++ [s] := by
      rw [stride, if_neg (by simp [noDoubleDot]), if_neg (by simp [noDot]),
        encode_of_isPlain (characters s List.mem_cons_self)]
    rw [walk_cons, taken, inductionHypothesis (place ++ [s])
      (fun s' member => characters s' (List.mem_cons_of_mem s member))
      fun s' member => segments s' (List.mem_cons_of_mem s member)]
    simp

theorem isPlain_stride {place : List (List Char)} {segment : List Char} (straight : '\\' ∉ segment)
    (clean : ∀ s ∈ place, ∀ c ∈ s, isPlain c = true) (last : Bool) :
    ∀ s ∈ stride place segment last, ∀ c ∈ s, isPlain c = true := by
  have above : ∀ s ∈ place.dropLast, ∀ c ∈ s, isPlain c = true := fun s member =>
    clean s (List.dropLast_subset place member)
  -- A step adds a plain segment to a part of the place, or none.
  have added {front : List (List Char)} {new : List Char}
      (before : ∀ s ∈ front, ∀ c ∈ s, isPlain c = true) (plain : ∀ c ∈ new, isPlain c = true) :
      ∀ s ∈ front ++ [new], ∀ c ∈ s, isPlain c = true := by
    intro s member
    rcases List.mem_append.mp member with old | own
    · exact before s old
    · rw [List.mem_singleton.mp own]
      exact plain
  unfold stride
  split
  · split
    · exact added above (by simp)
    · exact above
  · split
    · split
      · exact added clean (by simp)
      · exact clean
    · exact added clean fun c member => isPlain_of_mem_encode straight member

/-- What a walk leaves is plain. -/
theorem isPlain_walk {list : List (List Char)} (straight : ∀ s ∈ list, '\\' ∉ s)
    {place : List (List Char)} (clean : ∀ s ∈ place, ∀ c ∈ s, isPlain c = true) :
    ∀ s ∈ walk place list, ∀ c ∈ s, isPlain c = true := by
  induction list generalizing place with
  | nil => exact clean
  | cons s rest inductionHypothesis =>
    rw [walk_cons]
    exact inductionHypothesis (fun s' member => straight s' (List.mem_cons_of_mem s member))
      (isPlain_stride (straight s List.mem_cons_self) clean rest.isEmpty)

/-- How long a list of segments is as a path. -/
def extent (list : List (List Char)) : Nat := (pathText (.segments list)).length

theorem extent_append (front list : List (List Char)) :
    extent (front ++ list) = extent front + extent list := by
  rw [extent, pathText_append, List.length_append, extent, extent]

theorem extent_cons (segment : List Char) (list : List (List Char)) :
    extent (segment :: list) = segment.length + 1 + extent list := by
  rw [extent, pathText_cons, List.length_append, List.length_cons, extent]

theorem extent_dropLast (place : List (List Char)) : extent place.dropLast ≤ extent place := by
  rcases List.eq_nil_or_concat' place with rfl | ⟨front, last, rfl⟩
  · exact Nat.le_refl _
  · rw [List.dropLast_concat, extent_append]
    exact Nat.le_add_right _ _

/-- A step along a dot segment leads less far than the segment is long. -/
theorem extent_stride_of_dots {segment : List Char}
    (dots : isDot segment = true ∨ isDoubleDot segment = true) (place : List (List Char))
    (last : Bool) : extent (stride place segment last) < extent place + (segment.length + 1) := by
  -- The last step may add an empty segment, but a dot segment is longer than that.
  have full : segment ≠ [] := by
    rintro rfl
    revert dots
    decide
  have long := List.length_pos_of_ne_nil full
  have shorter := extent_dropLast place
  have empty : extent [[]] = 1 := rfl
  rw [stride]
  split
  · split
    · rw [extent_append]
      omega
    · omega
  · rename_i noDoubleDot
    rw [if_pos (dots.resolve_right noDoubleDot)]
    split
    · rw [extent_append]
      omega
    · omega

/-- A walk along plain characters never leads farther than its segments are long, and less far if one
    of them is a dot segment. -/
theorem extent_walk {list : List (List Char)} (characters : ∀ s ∈ list, ∀ c ∈ s, isPlain c = true)
    (place : List (List Char)) :
    extent (walk place list) ≤ extent place + extent list ∧
      ((∃ s ∈ list, isDot s = true ∨ isDoubleDot s = true) →
        extent (walk place list) < extent place + extent list) := by
  induction list generalizing place with
  | nil => simp [walk, extent, pathText]
  | cons s rest inductionHypothesis =>
    obtain ⟨le, lt⟩ := inductionHypothesis
      (fun s' member => characters s' (List.mem_cons_of_mem s member)) (stride place s rest.isEmpty)
    rw [walk_cons, extent_cons]
    -- A dot segment makes up for all that follows; a plain one is as long as what it adds.
    by_cases dots : isDot s = true ∨ isDoubleDot s = true
    · have less := extent_stride_of_dots dots place rest.isEmpty
      exact ⟨by omega, fun _ => by omega⟩
    · obtain ⟨noDot, noDoubleDot⟩ := not_or.mp dots
      have taken : extent (stride place s rest.isEmpty) = extent place + (s.length + 1) := by
        rw [stride, if_neg noDoubleDot, if_neg noDot,
          encode_of_isPlain (characters s List.mem_cons_self), extent_append, extent_cons]
        rfl
      refine ⟨by omega, ?_⟩
      rintro ⟨s', member, dots'⟩
      rcases List.mem_cons.mp member with rfl | later
      · exact absurd dots' dots
      · have less := lt ⟨s', later, dots'⟩
        omega

/-! ## What comes out -/

theorem filter_of_isPlain {cs : List Char} (plain : ∀ c ∈ cs, isPlain c = true) :
    cs.filter (fun c => c != '\t' && c != '\n' && c != '\r') = cs := by
  rw [List.filter_eq_self]
  intro c member
  simp [ne_of_isPlain (plain c member) (d := '\t') (by decide),
    ne_of_isPlain (plain c member) (d := '\n') (by decide),
    ne_of_isPlain (plain c member) (d := '\r') (by decide)]

theorem tidied_of_isPlain {cs : List Char} (plain : ∀ c ∈ cs, isPlain c = true) : tidied cs = cs := by
  have solid : Text.trimEndBy isDust cs = cs := by
    rcases List.eq_nil_or_concat' cs with rfl | ⟨front, c, rfl⟩
    · rfl
    · exact Text.trimEndBy_append (not_isDust_of_isPlain (plain c (by simp))) front []
  rw [tidied, solid, filter_of_isPlain plain]

/-- A plain text is kept in front of a slash, however it goes on. -/
theorem tidied_append {front : List Char} (plain : ∀ c ∈ front, isPlain c = true) (cs : List Char) :
    tidied (front ++ '/' :: cs) = front ++ '/' :: tidied cs := by
  rw [tidied, Text.trimEndBy_append (by decide), List.filter_append, filter_of_isPlain plain]
  rfl

theorem notMem_of_isPlain {cs : List Char} (plain : ∀ c ∈ cs, isPlain c = true) :
    '#' ∉ cs ∧ '?' ∉ cs :=
  ⟨fun member => ne_of_isPlain (plain _ member) (by decide) rfl,
    fun member => ne_of_isPlain (plain _ member) (by decide) rfl⟩

theorem parts_of_isPlain {cs : List Char} (plain : ∀ c ∈ cs, isPlain c = true) :
    parts (tidied cs) = (cs, none, none) := by
  rw [tidied_of_isPlain plain, parts_of_notMem (notMem_of_isPlain plain)]

theorem parts_tidied_append {front : List Char} (plain : ∀ c ∈ front, isPlain c = true)
    (cs : List Char) :
    parts (tidied (front ++ '/' :: cs)) =
      (front ++ '/' :: (parts (tidied cs)).1, (parts (tidied cs)).2) := by
  have absent : '#' ∉ front ++ ['/'] ∧ '?' ∉ front ++ ['/'] := by
    simp [notMem_of_isPlain plain]
  have regrouped : front ++ '/' :: tidied cs = front ++ ['/'] ++ tidied cs := by simp
  rw [tidied_append plain, regrouped, parts_append absent]
  simp

theorem isPlain_of_mem_segmentsOf {cs : List Char} (plain : ∀ c ∈ cs, isPlain c = true) :
    ∀ s ∈ segmentsOf true cs, ∀ c ∈ s, isPlain c = true :=
  fun _ member c here => plain c (of_mem_segmentsOf member here).1

theorem notMem_backslash_of_isPlain {cs : List Char} (plain : ∀ c ∈ cs, isPlain c = true) :
    '\\' ∉ cs :=
  fun member => by cases plain _ member

/-- A plain path is gone along as it is. -/
theorem pathText_walk_of_plain (place : List (List Char)) {cs : List Char} (plain : Plain cs) :
    pathText (.segments (walk place (segmentsOf true cs))) =
      pathText (.segments place) ++ '/' :: cs := by
  rw [walk_of_plain place (isPlain_of_mem_segmentsOf plain.characters) plain.segments,
    pathText_append, pathText_segmentsOf (notMem_backslash_of_isPlain plain.characters)]

/-- Below a clean place exactly the plain texts make a path that is spelled as they are. -/
theorem spelled_iff_plain {place : List (List Char)} (clean : ∀ s ∈ place, ∀ c ∈ s, isPlain c = true)
    (cs : List Char) :
    ((parts (tidied cs)).2 = (none, none) ∧
        pathText (.segments (walk place (segmentsOf true (parts (tidied cs)).1))) =
          pathText (.segments place) ++ '/' :: cs) ↔ Plain cs := by
  constructor
  · rintro ⟨-, spelled⟩
    -- Only plain characters come out, and nothing as long with a dot segment on the way.
    have characters : ∀ c ∈ cs, isPlain c = true := by
      intro c member
      have written : c ∈ pathText (.segments (walk place (segmentsOf true (parts (tidied cs)).1))) := by
        rw [spelled]
        exact List.mem_append_right _ (List.mem_cons_of_mem _ member)
      obtain ⟨s, passed, here⟩ := List.mem_flatMap.mp written
      rcases List.mem_cons.mp here with rfl | here
      · exact isPlain_slash
      · exact isPlain_walk (fun s' member' => notMem_of_mem_segmentsOf member') clean s passed c here
    rw [parts_of_isPlain characters,
      ← pathText_segmentsOf (notMem_backslash_of_isPlain characters)] at spelled
    refine ⟨characters, fun s member => ?_⟩
    by_contra dots
    have less := (extent_walk (isPlain_of_mem_segmentsOf characters) place).2 ⟨s, member, by
      rw [← Bool.not_eq_false, ← Bool.not_eq_false]
      tauto⟩
    have same := congrArg List.length spelled
    rw [List.length_append] at same
    exact absurd same (Nat.ne_of_lt less)
  · intro plain
    rw [parts_of_isPlain plain.characters]
    exact ⟨rfl, pathText_walk_of_plain place plain⟩

/-- An address is another one with a path behind its own, and the same in all other parts. -/
structure Continues (u : Url) (path : List Char) (front : Url) : Prop where
  scheme : u.scheme = front.scheme
  authority : u.authority = front.authority
  path : pathText u.path = pathText front.path ++ path
  query : u.query = front.query
  fragment : u.fragment = front.fragment

/-- Without a query and a fragment the path is the end of an address. -/
theorem Continues.text {u front : Url} {path : List Char} (further : u.Continues path front)
    (hosted : front.authority.isSome = true) (query : front.query = none)
    (fragment : front.fragment = none) : u.text = front.text ++ String.ofList path := by
  have before : u.beforePath = front.beforePath := by
    obtain ⟨a, named⟩ := Option.isSome_iff_exists.mp hosted
    rw [beforePath, beforePath, further.scheme, further.authority, named]
  have whole : u.chars = front.chars ++ path := by
    rw [chars, chars, before, further.path, further.query, further.fragment, query, fragment]
    simp [markedText]
  rw [Url.text, Url.text, whole, String.ofList_append]

/-- What is written in front of the last slash leaves a place that does not depend on what is behind
    it. -/
theorem parse_behind {address stem : String} {u : Url} (parsed : parse address = .ok u)
    (web : isWeb u.scheme) (query : u.query = none) (fragment : u.fragment = none)
    (plain : ∀ c ∈ stem.toList, isPlain c = true) :
    ∃ authority place, (∀ s ∈ place, ∀ c ∈ s, isPlain c = true) ∧
      ∀ path : String, parse (address ++ "/" ++ (stem ++ "/" ++ path)) =
        Except.map (fun a => ⟨u.scheme, some a,
          .segments (walk place (segmentsOf true (parts (tidied path.toList)).1)),
          encodeQuery u.scheme (parts (tidied path.toList)).2.1,
          encodeFragment (parts (tidied path.toList)).2.2⟩) authority := by
  obtain ⟨authority, segments, straight, below⟩ := parse_below parsed web query fragment
  refine ⟨authority, (walk [] (segments ++ segmentsOf true stem.toList ++ [[]])).dropLast, ?_, ?_⟩
  · intro s member
    refine isPlain_walk ?_ (by simp) s (List.dropLast_subset _ member)
    intro s' member'
    rcases List.mem_append.mp member' with early | last
    · rcases List.mem_append.mp early with own | further
      · exact straight s' own
      · exact notMem_of_mem_segmentsOf further
    · rw [List.mem_singleton.mp last]
      exact List.not_mem_nil
  · intro path
    have chars : (stem ++ "/" ++ path).toList = stem.toList ++ '/' :: path.toList := by simp
    rw [below, chars, parts_tidied_append plain, segmentsOf_append, ← List.append_assoc]
    -- There is always a segment behind the slash, so the place in front of it is settled.
    cases split : segmentsOf true (parts (tidied path.toList)).1 with
    | nil => exact absurd split (segmentsOf_ne_nil _)
    | cons first later => rw [walk_append]

/-- Below an address of the web without query and fragment exactly the plain texts come out as they
    are written, with no change to anything else. -/
theorem continues_iff_plain {address stem path : String} {u url : Url}
    (parsed : parse address = .ok u) (web : isWeb u.scheme) (query : u.query = none)
    (fragment : u.fragment = none) (plain : ∀ c ∈ stem.toList, isPlain c = true)
    (found : parse (address ++ "/" ++ (stem ++ "/" ++ path)) = .ok url) :
    ∃ front, parse (address ++ "/" ++ (stem ++ "/")) = .ok front ∧
      front.authority.isSome = true ∧ front.query = none ∧ front.fragment = none ∧
      url.authority = front.authority ∧
      (url.Continues path.toList front ↔ Plain path.toList) := by
  obtain ⟨authority, place, clean, behind⟩ := parse_behind parsed web query fragment plain
  have first := behind ""
  have nothing : parts (tidied "".toList) = ([], none, none) := rfl
  rw [String.append_empty, nothing] at first
  rw [behind] at found
  cases authority with
  | error e => cases found
  | ok a =>
    cases found
    refine ⟨_, first, rfl, rfl, rfl, rfl, Iff.trans ?_ (spelled_iff_plain clean path.toList)⟩
    have start : pathText (.segments (walk place (segmentsOf true []))) =
        pathText (.segments place) ++ ['/'] := pathText_append place [[]]
    constructor
    · rintro ⟨-, -, spelled, noQuery, noFragment⟩
      rw [start, List.append_assoc] at spelled
      exact ⟨Prod.ext (Option.map_eq_none_iff.mp noQuery) (Option.map_eq_none_iff.mp noFragment),
        spelled⟩
    · rintro ⟨one, spelled⟩
      refine ⟨rfl, rfl, ?_, ?_, ?_⟩
      · rw [start, List.append_assoc]
        exact spelled
      · rw [one]
      · rw [one]

end Url

end RegistryCache
