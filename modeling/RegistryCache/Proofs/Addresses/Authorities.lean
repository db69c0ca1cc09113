import Mathlib.Data.List.Basic
import RegistryCache.Url.Reference

/-! # Where authorities end

Controls and blanks at the ends of an address do not count, but inside they do.  An authority whose
text ends in one of them is refused (`Url.readAuthority_concat`): it would be part of the host or of the
port, and neither allows it, however much of the text is encoded.
-/

namespace RegistryCache

/-- Whether a character is a control or a blank, which do not count at the ends of an address. -/
def isDust (c : Char) : Bool := c.toNat ≤ 0x20

/-! ## Hosts and ports end in no blank -/

namespace Text

theorem hexValue?_of_dust {c : Char} (dust : isDust c = true) : hexValue? c = none := by
  simp only [isDust, decide_eq_true_eq] at dust
  have low (d : Char) (above : 0x20 < d.toNat) : ¬ d ≤ c := fun le =>
    absurd (show d.toNat ≤ c.toNat from le) (by omega)
  simp [hexValue?, low '0' (by decide), low 'a' (by decide), low 'A' (by decide)]

theorem digitValue?_of_dust {c : Char} (dust : isDust c = true) : digitValue? c = none := by
  simp only [isDust, decide_eq_true_eq] at dust
  have low : ¬ '0' ≤ c := fun le => absurd (show '0'.toNat ≤ c.toNat from le) (by
    simp only [Char.reduceToNat]
    omega)
  simp [digitValue?, low]

/-- A percent sign that is not in front of two digits stands for itself, like other characters. -/
theorem Percent.decode_cons {d : Char} {rest : List Char}
    (literal : ∀ a b more x y, d = '%' → rest = a :: b :: more → hexValue? a = some x →
      hexValue? b ≠ some y) : decode (d :: rest) = String.utf8EncodeChar d ++ decode rest := by
  by_cases sign : d = '%'
  · subst sign
    match rest with
    | [] | [_] => simp [decode]
    | a :: b :: more =>
      have percent : String.utf8EncodeChar '%' = [0x25] := by decide
      rw [decode, percent]
      cases left : hexValue? a with
      | none => rfl
      | some x =>
        cases right : hexValue? b with
        | none => rfl
        | some y => exact absurd right (literal a b more x y rfl rfl left)
  · rw [decode]
    intro a b more same
    exact absurd same sign

/-- A character at the end that is no hexadecimal digit is decoded by itself. -/
theorem Percent.decode_concat {c : Char} (plain : hexValue? c = none) (cs : List Char) :
    decode (cs ++ [c]) = decode cs ++ String.utf8EncodeChar c := by
  induction cs using decode.induct with
  | case1 a b rest x y left right inductionHypothesis =>
    simp [decode, left, right, inductionHypothesis]
  | case2 a b rest undecodable inductionHypothesis =>
    have both (more : List Char) :
        decode ('%' :: a :: b :: more) = String.utf8EncodeChar '%' ++ decode (a :: b :: more) := by
      apply decode_cons
      rintro _ _ _ x y - ⟨⟩ left right
      exact undecodable x y left right
    simp only [List.cons_append] at inductionHypothesis ⊢
    rw [both, both, inductionHypothesis, List.append_assoc]
  | case3 d rest other inductionHypothesis =>
    have alone : decode (d :: rest) = String.utf8EncodeChar d ++ decode rest :=
      decode_cons fun a b more x y sign two => absurd (other a b more sign two) id
    rw [alone, List.cons_append, decode_cons, inductionHypothesis, List.append_assoc]
    rintro a b more x y sign two left right
    -- The second digit is the appended character or stands in the text.
    match rest with
    | [] => cases two
    | [_] =>
      cases two
      cases plain.symm.trans right
    | _ :: _ :: _ => exact other _ _ _ sign rfl
  | case4 => simp [decode]

/-- A byte that does not go on a character is read as if it began one, behind a hole. -/
theorem Utf8.decodeFrom_refused {o : Open} {b : UInt8} (refused : next o b = .refused)
    (rest : List UInt8) : decodeFrom (some o) (b :: rest) = none :: decodeFrom none (b :: rest) := by
  simp only [decodeFrom, refused]
  cases first b <;> rfl

/-- Inside a character the next byte is not plain. -/
def Utf8.Open.Bounded (o : Open) : Prop := 0x80 ≤ o.least.toNat

theorem Utf8.bounded_first {b : UInt8} {o : Open} (opens : first b = .opens o) : o.Bounded := by
  unfold first at opens
  dsimp only at opens
  split_ifs at opens <;> cases opens <;> simp [Open.Bounded]

theorem Utf8.bounded_next {b : UInt8} {o o' : Open} (opens : next o b = .opens o') :
    o'.Bounded := by
  unfold next at opens
  dsimp only at opens
  split_ifs at opens
  cases opens
  simp [Open.Bounded]

/-- A plain byte at the end is a character of its own, whatever comes before it. -/
theorem Utf8.decodeFrom_concat {b : UInt8} (plain : b.toNat < 0x80) (bytes : List UInt8)
    (state : Option Open) (bounded : ∀ o, state = some o → o.Bounded) :
    ∃ front, decodeFrom state (bytes ++ [b]) = front ++ [some (Char.ofNat b.toNat)] := by
  induction bytes generalizing state with
  | nil =>
    have alone : decodeFrom none [b] = [some (Char.ofNat b.toNat)] := by
      simp [decodeFrom, first, plain]
    cases state with
    | none => exact ⟨[], alone⟩
    | some o =>
      have least := bounded o rfl
      have refused : next o b = .refused := by
        have below : ¬ o.least ≤ b := by
          rw [UInt8.le_iff_toNat_le]
          simp only [Open.Bounded] at least
          omega
        simp [next, below]
      exact ⟨[none], by rw [List.nil_append, decodeFrom_refused refused, alone]; rfl⟩
  | cons b' rest inductionHypothesis =>
    -- Behind `b'` the decoder is between characters or inside one; either way the invariant holds.
    obtain ⟨front, closed⟩ := inductionHypothesis none (by simp)
    have going (o : Open) (least : o.Bounded) := inductionHypothesis (some o) (by simpa)
    have fresh : ∃ front, decodeFrom none (b' :: (rest ++ [b])) =
        front ++ [some (Char.ofNat b.toNat)] := by
      rw [decodeFrom]
      cases moved : first b' with
      | character c => exact ⟨some c :: front, by simp [closed]⟩
      | opens o => exact going o (bounded_first moved)
      | refused => exact ⟨none :: front, by simp [closed]⟩
    cases state with
    | none => exact fresh
    | some o =>
      rw [List.cons_append]
      cases moved : next o b' with
      | character c => exact ⟨some c :: front, by simp [decodeFrom, moved, closed]⟩
      | opens o' =>
        rw [decodeFrom, moved]
        exact going o' (bounded_next moved)
      | refused =>
        obtain ⟨front', again⟩ := fresh
        exact ⟨none :: front', by rw [decodeFrom_refused moved, again, List.cons_append]⟩

theorem Utf8.allOf?_concat (c : Char) (front : List (Option Char)) :
    allOf? (front ++ [some c]) = (allOf? front).map (· ++ [c]) := by
  induction front with
  | nil => rfl
  | cons head rest inductionHypothesis =>
    cases head with
    | none => rfl
    | some d =>
      rw [List.cons_append, allOf?, allOf?, inductionHypothesis]
      cases allOf? rest <;> rfl

end Text

theorem Domain.toAscii?_concat {c : Char} (dust : isDust c = true) (cs : List Char) :
    toAscii? (cs ++ [c]) = none := by
  simp only [isDust, decide_eq_true_eq] at dust
  have unmapped : map? c = none := by
    simp [map?, mapAscii?, forbidden, dust, show c.toNat < 0x80 by omega]
  -- One character that cannot be mapped spoils the whole name.
  have all : mapAll? (cs ++ [c]) = none := by
    induction cs with
    | nil => simp [mapAll?, unmapped]
    | cons d rest inductionHypothesis =>
      rw [List.cons_append, mapAll?, inductionHypothesis]
      cases map? d <;> rfl
  rw [toAscii?, all]
  rfl

theorem Host.parse_concat {c : Char} (dust : isDust c = true) (cs : List Char) :
    ∃ e, parse (cs ++ [c]) = .error e := by
  have named : (Text.Utf8.allOf? (Text.Utf8.decode (Text.Percent.decode (cs ++ [c])))).bind
      Domain.toAscii? = none := by
    have small := dust
    simp only [isDust, decide_eq_true_eq] at small
    have byte : String.utf8EncodeChar c = [UInt8.ofNat c.toNat] := by
      have plain : c.val.toNat ≤ 0x7F := by
        change c.toNat ≤ 0x7F
        omega
      unfold String.utf8EncodeChar
      exact if_pos plain
    have value : (UInt8.ofNat c.toNat).toNat = c.toNat := by
      rw [UInt8.toNat_ofNat_of_lt']
      simp only [UInt8.size]
      omega
    obtain ⟨front, decoded⟩ := Text.Utf8.decodeFrom_concat (b := UInt8.ofNat c.toNat) (by omega)
      (Text.Percent.decode cs) none (by simp)
    rw [Text.Percent.decode_concat (Text.hexValue?_of_dust dust), byte, Text.Utf8.decode, decoded,
      value, Char.ofNat_toNat, Text.Utf8.allOf?_concat]
    cases Text.Utf8.allOf? front with
    | none => rfl
    | some name => exact Domain.toAscii?_concat dust name
  unfold parse
  -- In brackets the last character would have to be the closing one; outside them it is in the name.
  split
  · rename_i rest shape
    have last : rest.getLast? ≠ some ']' := by
      cases cs with
      | nil =>
        cases shape
        cases dust
      | cons d cs =>
        cases shape
        intro closed
        change (cs ++ [c]).getLast? = some ']' at closed
        rw [List.getLast?_concat] at closed
        cases closed
        cases dust
    exact ⟨_, if_neg last⟩
  · rw [named]
    exact ⟨_, rfl⟩

namespace Url

/-! ## Authorities end in no blank -/

theorem portDigits_concat {c : Char} (plain : Text.digitValue? c = none) (cs : List Char)
    (value : Nat) : ∃ e, portDigits value (cs ++ [c]) = .error e := by
  induction cs generalizing value with
  | nil => exact ⟨_, by rw [List.nil_append, portDigits, plain]⟩
  | cons d rest inductionHypothesis =>
    rw [List.cons_append, portDigits]
    cases Text.digitValue? d with
    | none => exact ⟨_, rfl⟩
    | some digit =>
      dsimp only
      split
      · exact ⟨_, rfl⟩
      · exact inductionHypothesis _

/-- What ends an authority ends its host or its port. -/
theorem cutHost_concat {c : Char} (other : c ≠ ':') (bracket : Bool) (cs : List Char) :
    (∃ host, cutHost bracket (cs ++ [c]) = (host ++ [c], [])) ∨
      ∃ host port, cutHost bracket (cs ++ [c]) = (host, ':' :: (port ++ [c])) := by
  induction cs generalizing bracket with
  | nil => exact .inl ⟨[], by simp [cutHost, other]⟩
  | cons d rest inductionHypothesis =>
    rw [List.cons_append, cutHost]
    split
    · rename_i ends
      exact .inr ⟨[], rest, by rw [ends.1]⟩
    · obtain ⟨host, cut⟩ | ⟨host, port, cut⟩ := inductionHypothesis _ <;> rw [cut]
      · exact .inl ⟨d :: host, rfl⟩
      · exact .inr ⟨d :: host, port, rfl⟩

theorem cutLast?_concat {mark c : Char} (other : c ≠ mark) (cs : List Char) :
    cutLast? mark (cs ++ [c]) =
      (cutLast? mark cs).map fun (front, rest) => (front, rest ++ [c]) := by
  rw [cutLast?, cutLast?, List.reverse_append, List.reverse_singleton, List.singleton_append,
    Text.cut?, if_neg other]
  cases Text.cut? mark cs.reverse with
  | none => rfl
  | some both => simp

/-- The host and the port behind credentials. -/
def readPlace (scheme front cs : List Char) : Except UrlFault Authority := do
  let (name, password) := credentials front
  let (hostText, rest) := cutHost false cs
  let host ← readHost scheme hostText
  if host = .domain [] ∧ (!rest.isEmpty ∨ !name.isEmpty ∨ password.isSome) then .error .emptyHost
  else
    let port ← readPort scheme (rest.drop 1)
    return ⟨name, password, host, port⟩

theorem readAuthority_eq (scheme cs : List Char) (followed : Bool) :
    readAuthority scheme cs followed =
      match cutLast? '@' cs with
      | none => readPlace scheme [] cs
      | some ([], []) => if followed then .error .emptyHost else readPlace scheme [] []
      | some ([], rest) => readPlace scheme [] rest
      | some (front, rest) => readPlace scheme front rest := by
  unfold readAuthority
  rcases cutLast? '@' cs with - | ⟨- | ⟨c, front⟩, - | ⟨d, rest⟩⟩
  case some.nil.nil => cases followed <;> rfl
  all_goals rfl

variable {scheme : List Char}

/-- A host must be named where the scheme is known. -/
theorem readPlace_nil (known : isKnown scheme = true) (front : List Char) :
    readPlace scheme front [] = .error .emptyHost := by
  have host : readHost scheme [] = .error .emptyHost := by simp [readHost, known]
  simp [readPlace, cutHost, host, bind, Except.bind]

theorem readAuthority_nil (known : isKnown scheme = true) (followed : Bool) :
    readAuthority scheme [] followed = .error .emptyHost := by
  rw [readAuthority_eq]
  exact readPlace_nil known []

theorem readPlace_concat (known : isKnown scheme = true) {c : Char} (dust : isDust c = true)
    (front cs : List Char) : ∃ e, readPlace scheme front (cs ++ [c]) = .error e := by
  have other : c ≠ ':' := by
    rintro rfl
    cases dust
  -- The blank ends the host, which is refused, or the port, whose digits it breaks off.
  obtain ⟨host, cut⟩ | ⟨host, port, cut⟩ := cutHost_concat other false cs
  · obtain ⟨e, refused⟩ := Host.parse_concat dust host
    refine ⟨e, ?_⟩
    simp [readPlace, cut, readHost, known, refused, bind, Except.bind]
  · obtain ⟨e, refused⟩ := portDigits_concat (Text.digitValue?_of_dust dust) port 0
    unfold readPlace
    rw [cut]
    dsimp only [bind, Except.bind]
    cases readHost scheme host with
    | error e' => exact ⟨e', rfl⟩
    | ok named =>
      dsimp only
      split
      · exact ⟨_, rfl⟩
      · refine ⟨e, ?_⟩
        simp [readPort, refused, bind, Except.bind]

theorem readAuthority_concat (known : isKnown scheme = true) {c : Char} (dust : isDust c = true)
    (cs : List Char) (followed : Bool) :
    ∃ e, readAuthority scheme (cs ++ [c]) followed = .error e := by
  have other : c ≠ '@' := by
    rintro rfl
    cases dust
  rw [readAuthority_eq, cutLast?_concat other]
  rcases cutLast? '@' cs with - | ⟨- | ⟨d, front⟩, rest⟩
  · exact readPlace_concat known dust [] cs
  · cases rest with
    | nil => exact readPlace_concat known dust [] []
    | cons d rest => exact readPlace_concat known dust [] (d :: rest)
  · exact readPlace_concat known dust (d :: front) rest

/-- Where a host must be named it does not matter what follows the authority. -/
theorem readAuthority_followed (known : isKnown scheme = true) {cs : List Char}
    {followed followed' : Bool} {a : Authority} (read : readAuthority scheme cs followed = .ok a) :
    readAuthority scheme cs followed' = .ok a := by
  rw [readAuthority_eq] at read ⊢
  generalize cutLast? '@' cs = cut at read ⊢
  rcases cut with - | ⟨- | ⟨d, front⟩, - | ⟨d', rest⟩⟩
  case some.nil.nil =>
    cases followed with
    | false =>
      rw [readPlace_nil known] at read
      cases read
    | true => cases read
  all_goals exact read

end Url

end RegistryCache
