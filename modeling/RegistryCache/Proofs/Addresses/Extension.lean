import RegistryCache.Proofs.Addresses.Authorities
import RegistryCache.Proofs.Texts

/-! # Text behind an address

A path that is written behind an address does not change who is asked (`Url.parse_extended`).  It may
end up in the path, in the query or in the fragment, wherever the address breaks off.
-/

namespace RegistryCache

namespace Url

theorem cutMark_append_of_some {mark : Char} {cs before after : List Char}
    (cut : cutMark mark cs = (before, some after)) (more : List Char) :
    cutMark mark (cs ++ more) = (before, some (after ++ more)) := by
  unfold cutMark at cut ⊢
  cases held : Text.cut? mark cs with
  | none =>
    rw [held] at cut
    cases cut
  | some both =>
    rw [held] at cut
    cases cut
    rw [Text.cut?_append held]

theorem cutMark_append_of_none {mark : Char} {cs before : List Char}
    (cut : cutMark mark cs = (before, none)) (more : List Char) :
    before = cs ∧
      cutMark mark (cs ++ more) = (cs ++ (cutMark mark more).1, (cutMark mark more).2) := by
  unfold cutMark at cut ⊢
  cases held : Text.cut? mark cs with
  | some both =>
    rw [held] at cut
    cases cut
  | none =>
    rw [held] at cut
    cases cut
    refine ⟨rfl, ?_⟩
    rw [Text.cut?_append_of_none held]
    cases Text.cut? mark more <;> rfl

/-! ## References -/

/-- What is written behind an address: perhaps blanks, then a slash and anything. -/
def Trails (cs : List Char) : Prop :=
  ∃ blanks more, cs = blanks ++ '/' :: more ∧ blanks.all isDust = true

/-- What is left of a text behind a slash: controls and blanks at its end go, and so do all tabs and
    line breaks. -/
def tidied (cs : List Char) : List Char :=
  (Text.trimEndBy isDust cs).filter fun c => c != '\t' && c != '\n' && c != '\r'

/-- A slash behind a text keeps the blanks in front of it, which by themselves would be trimmed. -/
theorem cleaned_behind {cs : List Char} (solid : cs.dropWhile isDust ≠ []) :
    ∃ blanks, blanks.all isDust = true ∧
      ∀ more, cleaned (cs ++ '/' :: more) = cleaned cs ++ blanks ++ '/' :: tidied more := by
  obtain ⟨tail, whole, dusty⟩ := Text.exists_trimEndBy_append isDust (cs.dropWhile isDust)
  let kept (cs : List Char) : List Char := cs.filter fun c => c != '\t' && c != '\n' && c != '\r'
  refine ⟨kept tail, ?_, fun more => ?_⟩
  · rw [List.all_eq_true] at dusty ⊢
    exact fun c member => dusty c (List.mem_of_mem_filter member)
  · have dropped : (cs ++ '/' :: more).dropWhile isDust = cs.dropWhile isDust ++ '/' :: more := by
      rw [List.dropWhile_append, if_neg (by simpa using solid)]
    have trimmed : Text.trimBy isDust (cs ++ '/' :: more) =
        Text.trimBy isDust cs ++ tail ++ '/' :: Text.trimEndBy isDust more := by
      rw [Text.trimBy, dropped, Text.trimEndBy_append (by decide), Text.trimBy, ← whole]
    change kept (Text.trimBy isDust (cs ++ '/' :: more)) =
      kept (Text.trimBy isDust cs) ++ kept tail ++ '/' :: kept (Text.trimEndBy isDust more)
    rw [trimmed]
    simp [kept]

/-- A path behind a text leaves what is clean of the text. -/
theorem cleaned_append {cs : List Char} (solid : cs.dropWhile isDust ≠ []) (more : List Char) :
    ∃ trail, cleaned (cs ++ '/' :: more) = cleaned cs ++ trail ∧ Trails trail := by
  obtain ⟨blanks, dusty, clean⟩ := cleaned_behind solid
  exact ⟨blanks ++ '/' :: tidied more, by rw [clean, List.append_assoc], blanks, _, rfl, dusty⟩

/-- What stands before a mark in such a trail is one, too. -/
theorem Trails.cutMark {cs : List Char} (trails : Trails cs) {mark : Char}
    (solid : isDust mark = false) (other : mark ≠ '/') : Trails (cutMark mark cs).1 := by
  obtain ⟨blanks, more, rfl, dusty⟩ := trails
  have absent : mark ∉ blanks ++ ['/'] := by
    intro member
    rcases List.mem_append.mp member with inside | last
    · cases solid.symm.trans (List.all_eq_true.mp dusty mark inside)
    · exact other (List.mem_singleton.mp last)
  have uncut : Url.cutMark mark (blanks ++ ['/']) = (blanks ++ ['/'], none) := by
    rw [Url.cutMark, Text.cut?_of_notMem absent]
  have further := (cutMark_append_of_none uncut more).2
  rw [List.append_assoc, List.singleton_append] at further
  rw [further]
  exact ⟨blanks, (Url.cutMark mark more).1, by simp, dusty⟩

theorem cutScheme?_append {cs scheme body : List Char} (cut : cutScheme? cs = some (scheme, body))
    (more : List Char) : cutScheme? (cs ++ more) = some (scheme, body ++ more) := by
  unfold cutScheme? at cut ⊢
  cases held : Text.cut? ':' cs with
  | none =>
    rw [held] at cut
    cases cut
  | some both =>
    obtain ⟨- | ⟨c, rest⟩, after⟩ := both
    · rw [held] at cut
      cases cut
    · rw [held] at cut
      rw [Text.cut?_append held]
      dsimp only at cut ⊢
      split at cut
      · rename_i fits
        cases cut
        rw [if_pos fits]
      · cases cut

def unschemed (cs : List Char) : List Char := (cutMark '?' (cutMark '#' (cleaned cs)).1).1

theorem ofChars_eq (cs : List Char) :
    (Reference.ofChars cs).scheme = (cutScheme? (unschemed cs)).map Prod.fst ∧
      (Reference.ofChars cs).body = ((cutScheme? (unschemed cs)).map Prod.snd).getD (unschemed cs) := by
  unfold Reference.ofChars unschemed
  dsimp only
  cases cutScheme? (cutMark '?' (cutMark '#' (cleaned cs)).1).1 <;> exact ⟨rfl, rfl⟩

/-- What is written behind an address goes behind its body, unless query or fragment take it. -/
theorem unschemed_append {cs : List Char} (solid : cs.dropWhile isDust ≠ []) (more : List Char) :
    ∃ trail, unschemed (cs ++ '/' :: more) = unschemed cs ++ trail ∧ (trail = [] ∨ Trails trail) := by
  obtain ⟨trail, clean, trails⟩ := cleaned_append solid more
  unfold unschemed
  rw [clean]
  -- A fragment takes the whole trail, else a query does, else what is in front of their marks is left.
  rcases fragment : cutMark '#' (cleaned cs) with ⟨rest, - | after⟩
  · obtain ⟨rfl, further⟩ := cutMark_append_of_none fragment trail
    rw [further]
    rcases query : cutMark '?' (cleaned cs) with ⟨rest, - | after⟩
    · obtain ⟨rfl, last⟩ := cutMark_append_of_none query (cutMark '#' trail).1
      dsimp only
      rw [last]
      exact ⟨_, rfl, .inr ((trails.cutMark (by decide) (by decide)).cutMark (by decide) (by decide))⟩
    · dsimp only
      rw [cutMark_append_of_some query]
      exact ⟨[], by simp, .inl rfl⟩
  · rw [cutMark_append_of_some fragment]
    exact ⟨[], by simp, .inl rfl⟩

/-- A text with a scheme is not blank. -/
theorem solid_of_scheme {cs scheme : List Char} (named : (Reference.ofChars cs).scheme = some scheme) :
    cs.dropWhile isDust ≠ [] := by
  intro empty
  have nothing : cleaned cs = [] := by
    change List.filter _ (Text.trimEndBy isDust (cs.dropWhile isDust)) = []
    rw [empty]
    rfl
  unfold Reference.ofChars at named
  rw [nothing] at named
  cases named

theorem ofChars_extended {cs scheme : List Char} (named : (Reference.ofChars cs).scheme = some scheme)
    (more : List Char) :
    (Reference.ofChars (cs ++ '/' :: more)).scheme = some scheme ∧
      ∃ trail, (Reference.ofChars (cs ++ '/' :: more)).body = (Reference.ofChars cs).body ++ trail ∧
        (trail = [] ∨ Trails trail) := by
  obtain ⟨trail, whole, trails⟩ := unschemed_append (solid_of_scheme named) more
  rw [(ofChars_eq _).1] at named ⊢
  rw [(ofChars_eq _).2, (ofChars_eq _).2, whole]
  cases cut : cutScheme? (unschemed cs) with
  | none =>
    rw [cut] at named
    cases named
  | some both =>
    rw [cut] at named
    cases named
    rw [cutScheme?_append cut]
    exact ⟨rfl, trail, rfl, trails⟩

/-! ## Addresses -/

/-- The scheme is one of the two that requests can be sent with. -/
def isWeb (scheme : List Char) : Prop := scheme = http ∨ scheme = https

theorem isWeb.known {scheme : List Char} (web : isWeb scheme) :
    isKnown scheme = true ∧ scheme ≠ file := by
  rcases web with rfl | rfl <;> decide

/-- What an address with an authority is made of. -/
theorem withAuthority_eq_ok {scheme cs : List Char} {r : Reference} {u : Url}
    (read : withAuthority scheme cs r = .ok u) :
    u.scheme = scheme ∧ (∃ place, u.path = .segments place) ∧ ∃ a, u.authority = some a ∧
      readAuthority scheme (cs.takeWhile fun c => !isSlash (isKnown scheme) c)
        (hasMore (cs.dropWhile fun c => !isSlash (isKnown scheme) c) r) = .ok a := by
  unfold withAuthority at read
  dsimp only at read
  cases authority : readAuthority scheme (cs.takeWhile fun c => !isSlash (isKnown scheme) c)
    (hasMore (cs.dropWhile fun c => !isSlash (isKnown scheme) c) r) with
  | error e =>
    rw [authority] at read
    cases read
  | ok a =>
    rw [authority] at read
    cases read
    refine ⟨rfl, ?_, a, rfl, rfl⟩
    dsimp only [assemble]
    split
    · split <;> exact ⟨_, rfl⟩
    · exact ⟨_, rfl⟩

/-- Where a host must be named there is something to read. -/
theorem ne_nil_of_withAuthority {scheme cs : List Char} {r : Reference} {u : Url}
    (known : isKnown scheme = true) (read : withAuthority scheme cs r = .ok u) : cs ≠ [] := by
  rintro rfl
  obtain ⟨-, -, a, -, authority⟩ := withAuthority_eq_ok read
  rw [List.takeWhile_nil, readAuthority_nil known] at authority
  cases authority

theorem scheme_fileUrl {r : Reference} {u : Url} (read : fileUrl none r = .ok u) :
    u.scheme = file := by
  unfold fileUrl at read
  dsimp only at read
  split at read
  · rename_i a b rest _
    split_ifs at read
    · cases host : fileHost (rest.takeWhile fun c => !isSlash true c) with
      | error e =>
        rw [host] at read
        cases read
      | ok host' =>
        rw [host] at read
        cases read
        rfl
    · cases read
      rfl
    · cases read
      rfl
  · split_ifs at read <;> cases read <;> rfl
  · cases read
    rfl

/-- An address whose scheme is not known has it from its reference. -/
theorem scheme_resolve_none {r : Reference} {scheme : List Char} {u : Url}
    (named : r.scheme = some scheme) (resolved : resolve none r = .ok u) : u.scheme = scheme := by
  unfold resolve at resolved
  rw [named] at resolved
  dsimp only at resolved
  split_ifs at resolved with isFile known
  · rw [isFile]
    exact scheme_fileUrl resolved
  · exact (withAuthority_eq_ok resolved).1
  · split at resolved
    · exact (withAuthority_eq_ok resolved).1
    · cases resolved
      rfl
    · cases resolved
      rfl

/-- What is read without a base has a scheme. -/
theorem scheme_of_resolve_none {r : Reference} {u : Url} (resolved : resolve none r = .ok u) :
    r.scheme = some u.scheme := by
  cases named : r.scheme with
  | none =>
    rw [resolve, named] at resolved
    cases resolved
  | some scheme => exact congrArg some (scheme_resolve_none named resolved).symm

/-- By itself a reference is an address of the web only if it has that scheme and an authority. -/
theorem resolve_none_eq_ok {r : Reference} {u : Url} (resolved : resolve none r = .ok u)
    (web : isWeb u.scheme) :
    r.scheme = some u.scheme ∧
      withAuthority u.scheme (r.body.drop (r.body.takeWhile (isSlash true)).length) r = .ok u := by
  have named := scheme_of_resolve_none resolved
  obtain ⟨known, noFile⟩ := web.known
  refine ⟨named, ?_⟩
  unfold resolve at resolved
  rw [named] at resolved
  dsimp only at resolved
  rw [if_neg noFile, if_pos known] at resolved
  exact resolved

theorem drop_slashes (body : List Char) :
    body.drop (body.takeWhile (isSlash true)).length = body.dropWhile (isSlash true) := by
  induction body with
  | nil => rfl
  | cons c rest inductionHypothesis =>
    by_cases slash : isSlash true c = true <;> simp [slash, inductionHypothesis]

/-- Of a trail only blanks can come to stand in front of the first slash. -/
theorem Trails.takeWhile {trail : List Char} (trails : Trails trail) :
    (trail.takeWhile fun c => !isSlash true c).all isDust = true := by
  obtain ⟨blanks, more, rfl, dusty⟩ := trails
  have solid : ∀ c ∈ blanks, (!isSlash true c) = true := by
    intro c member
    have dust := List.all_eq_true.mp dusty c member
    by_contra slash
    simp only [isSlash, Bool.true_and, Bool.not_eq_true', Bool.not_eq_false, Bool.or_eq_true,
      beq_iff_eq] at slash
    rcases slash with rfl | rfl <;> cases dust
  rw [List.takeWhile_append_of_pos solid, List.takeWhile_cons_of_neg (by decide), List.append_nil]
  exact dusty

/-- An authority with something behind it is refused or the same. -/
theorem authority_withAuthority_append {scheme cs trail : List Char} {r r' : Reference} {u u' : Url}
    (known : isKnown scheme = true) (read : withAuthority scheme cs r = .ok u)
    (trails : trail = [] ∨ Trails trail) (extended : withAuthority scheme (cs ++ trail) r' = .ok u') :
    u'.authority = u.authority := by
  obtain ⟨-, -, a, own, readFirst⟩ := withAuthority_eq_ok read
  obtain ⟨-, -, a', own', readSecond⟩ := withAuthority_eq_ok extended
  rw [known] at readFirst readSecond
  rw [own, own']
  -- The authority is over at the first slash.  Without one in `cs` the trail may begin with blanks.
  have same : (cs ++ trail).takeWhile (fun c => !isSlash true c) =
      cs.takeWhile fun c => !isSlash true c := by
    rw [List.takeWhile_append] at readSecond ⊢
    split
    · rename_i whole
      rw [if_pos whole] at readSecond
      have all : cs.takeWhile (fun c => !isSlash true c) = cs :=
        (List.takeWhile_prefix _).eq_of_length whole
      have blanks : (trail.takeWhile fun c => !isSlash true c).all isDust = true := by
        rcases trails with rfl | trails
        · rfl
        · exact trails.takeWhile
      rcases List.eq_nil_or_concat' (trail.takeWhile fun c => !isSlash true c) with
        none' | ⟨init, c, some'⟩
      · rw [none', all, List.append_nil]
      · -- The last blank would end the authority.
        rw [some'] at blanks
        rw [some', ← List.append_assoc] at readSecond
        have last := List.all_eq_true.mp blanks c (by simp)
        obtain ⟨e, refused⟩ := readAuthority_concat known last (cs ++ init) _
        cases refused.symm.trans readSecond
    · rfl
  rw [same] at readSecond
  exact congrArg some (Except.ok.inj (readSecond.symm.trans (readAuthority_followed known readFirst)))

/-- A path behind an address does not change its scheme. -/
theorem scheme_parse_extended {address more : String} {u u' : Url} (parsed : parse address = .ok u)
    (extended : parse (address ++ "/" ++ more) = .ok u') : u'.scheme = u.scheme := by
  have chars : (address ++ "/" ++ more).toList = address.toList ++ '/' :: more.toList := by simp
  unfold parse at parsed extended
  rw [chars] at extended
  exact scheme_resolve_none (ofChars_extended (scheme_of_resolve_none parsed) more.toList).1 extended

/-- A path behind an address of the web does not change its scheme or its authority. -/
theorem parse_extended {address more : String} {u u' : Url} (parsed : parse address = .ok u)
    (web : isWeb u.scheme) (extended : parse (address ++ "/" ++ more) = .ok u') :
    u'.scheme = u.scheme ∧ u'.authority = u.authority := by
  have chars : (address ++ "/" ++ more).toList = address.toList ++ '/' :: more.toList := by simp
  have same := scheme_parse_extended parsed extended
  unfold parse at parsed extended
  rw [chars] at extended
  obtain ⟨named, read⟩ := resolve_none_eq_ok parsed web
  obtain ⟨-, trail, body, trails⟩ := ofChars_extended named more.toList
  have read' := (resolve_none_eq_ok extended (same ▸ web)).2
  refine ⟨same, ?_⟩
  rw [same, body] at read'
  rw [drop_slashes] at read read'
  have solid := ne_nil_of_withAuthority web.known.1 read
  rw [List.dropWhile_append, if_neg (by simpa using solid)] at read'
  exact authority_withAuthority_append web.known.1 read trails read'

end Url

end RegistryCache
