import Mathlib.Data.List.Forall2
import RegistryCache.Json.Decoder
import RegistryCache.Proofs.Json.RoundTrip

/-! # What records are read as

A decoder of records takes a value apart: the fields of an object by their names, the elements of an array
by their places (`fullParts?_eq_some_iff`).  Each of the parts is then read by itself, a number of 64 bits
from digits, and a text that may be absent from `null` or from nothing at all.
-/

namespace RegistryCache

namespace Json

/-! ## Numbers of 64 bits -/

/-- Digits that stand for a number of 64 bits. -/
def Spells (digits : String) (w : UInt64) : Prop :=
  AreDigits digits.toList ∧ Nat.ofDigitChars 10 digits.toList 0 = w.toNat

theorem moreDigits?_eq_some_iff {cs : List Char} {start n : Nat} :
    Text.moreDigits? start cs = some n ↔
      (∀ c ∈ cs, c.isDigit = true) ∧ Nat.ofDigitChars 10 cs start = n := by
  induction cs generalizing start with
  | nil => simp [Text.moreDigits?, Nat.ofDigitChars]
  | cons c cs inductionHypothesis =>
    have digit : c.isDigit = true ↔ '0' ≤ c ∧ c ≤ '9' := by
      simp [Char.isDigit, Char.le_def, UInt32.le_iff_toNat_le]
    by_cases digits : '0' ≤ c ∧ c ≤ '9'
    · simp [Text.moreDigits?, Text.digitValue?, digits, inductionHypothesis, digit,
        Nat.ofDigitChars_cons, Nat.mul_comm]
    · simp [Text.moreDigits?, Text.digitValue?, digits, digit]

theorem digits?_eq_some_iff {cs : List Char} {n : Nat} :
    Text.digits? cs = some n ↔ AreDigits cs ∧ Nat.ofDigitChars 10 cs 0 = n := by
  cases cs with
  | nil => simp [Text.digits?, AreDigits]
  | cons c cs => simp [Text.digits?, AreDigits, moreDigits?_eq_some_iff]

theorem ofNat64?_eq_some_iff {n : Nat} {w : UInt64} : Text.ofNat64? n = some w ↔ n = w.toNat := by
  unfold Text.ofNat64?
  constructor
  · intro read
    split at read
    · rename_i small
      cases read
      simp [Nat.mod_eq_of_lt small]
    · cases read
  · rintro rfl
    simp [w.toNat_lt_size]

theorem asWord?_eq_some_iff {v : Json} {w : UInt64} :
    asWord? v = some w ↔ ∃ digits, v = .number digits ∧ Spells digits w := by
  cases v with
  | number digits =>
    simp [asWord?, Option.bind_eq_some_iff, digits?_eq_some_iff, ofNat64?_eq_some_iff, Spells]
  | null | bool | string | array | object => simp [asWord?]

theorem head?_toDigits {n : Nat} (nonzero : n ≠ 0) : (Nat.toDigits 10 n).head? ≠ some '0' := by
  induction n using Nat.strongRecOn with
  | ind n inductionHypothesis =>
    by_cases small : n < 10
    · rw [Nat.toDigits_of_lt_base small]
      interval_cases n <;> simp_all [Nat.digitChar]
    · rw [Nat.toDigits_of_base_le (by omega) (by omega)]
      have shorter := inductionHypothesis (n / 10) (by omega) (by omega)
      rwa [List.head?_append_of_ne_nil _ Nat.toDigits_ne_nil]

theorem areDigits_toString (n : Nat) : AreDigits (toString n).toList := by
  rw [Nat.toString_eq_repr, Nat.toList_repr]
  exact ⟨Nat.toDigits_ne_nil, fun c => Nat.isDigit_of_mem_toDigits (by decide) (by decide)⟩

theorem ofDigitChars_toString (n : Nat) : Nat.ofDigitChars 10 (toString n).toList 0 = n := by
  rw [Nat.toString_eq_repr, Nat.toList_repr, Nat.ofDigitChars_ten_toDigits]

theorem wellWritten_ofNat (n : Nat) : (ofNat n).WellWritten := by
  have counted : (toString n).toList = ['0'] ∨
      AreDigits (toString n).toList ∧ (toString n).toList.head? ≠ some '0' := by
    by_cases zero : n = 0
    · subst zero
      exact .inl rfl
    · refine .inr ⟨areDigits_toString n, ?_⟩
      rw [Nat.toString_eq_repr, Nat.toList_repr]
      exact head?_toDigits zero
  have numeral := Numeral.intro (.inl rfl) counted (.inl rfl) (.inl rfl)
  simp only [List.nil_append, List.append_nil] at numeral
  exact .number numeral

theorem WellWritten.record {fields : List (String × Json)}
    (each : ∀ field ∈ fields, field.2.WellWritten) : (Json.record fields).WellWritten := by
  refine .object fun field member => ?_
  obtain ⟨⟨name, v⟩, there, rfl⟩ := List.mem_map.mp member
  exact each (name, v) there

theorem spells_toString (w : UInt64) : Spells (toString w.toNat) w :=
  ⟨areDigits_toString _, ofDigitChars_toString _⟩

/-! ## Records -/

theorem namedFields?_map (named : List (String × Json)) :
    namedFields? (named.map fun (name, v) => (some name, v)) = some named := by
  induction named with
  | nil => rfl
  | cons field rest inductionHypothesis => simp [namedFields?, inductionHypothesis]

theorem eq_map_of_namedFields? {fields : List (Option String × Json)} {named : List (String × Json)}
    (read : namedFields? fields = some named) :
    fields = named.map fun (name, v) => (some name, v) := by
  induction fields generalizing named with
  | nil =>
    cases read
    rfl
  | cons field rest inductionHypothesis =>
    obtain ⟨name, v⟩ := field
    cases name with
    | none => cases read
    | some name =>
      cases later : namedFields? rest with
      | none => simp [namedFields?, later] at read
      | some more =>
        simp only [namedFields?, later] at read
        cases read
        rw [inductionHypothesis later]
        rfl

/-- The values that stand under a name. -/
def under (name : String) (fields : List (String × Json)) : List Json :=
  (fields.filter (·.1 = name)).map Prod.snd

/-- A record and its parts.  In an object the known fields stand in any order, none of them twice, some
    perhaps not at all, and others may stand among them.  In an array all of them stand in their order. -/
inductive HasParts (known : List String) : Json → List (Option Json) → Prop where
  | object {fields : List (String × Json)} {parts : List (Option Json)}
      (each : List.Forall₂ (fun name part => under name fields = part.toList) known parts) :
      HasParts known (.record fields) parts
  | array {elements : List Json} (full : elements.length = known.length) :
      HasParts known (.array elements) (elements.map some)

theorem mapM_eq_some_iff {α β : Type} {f : α → Option β} {as : List α} {bs : List β} :
    as.mapM f = some bs ↔ List.Forall₂ (fun a b => f a = some b) as bs := by
  induction as generalizing bs with
  | nil => cases bs <;> simp
  | cons a as inductionHypothesis =>
    cases bs with
    | nil => simp [List.mapM_cons, Option.bind_eq_some_iff]
    | cons b bs => simp [List.mapM_cons, Option.bind_eq_some_iff, inductionHypothesis]

/-- What is read under a name, unless it stands there twice. -/
theorem part_eq_some_iff {name : String} {fields : List (String × Json)} {part : Option Json} :
    (match fields.filter (·.1 = name) with
      | [] => some none
      | [(_, v)] => some (some v)
      | _ => none) = some part ↔ under name fields = part.toList := by
  unfold under
  generalize fields.filter (·.1 = name) = own
  rcases own with - | ⟨first, - | ⟨second, rest⟩⟩ <;> cases part <;> simp

theorem parts?_record {known : List String} {fields : List (String × Json)}
    {parts : List (Option Json)} :
    parts? known (.record fields) = some parts ↔
      List.Forall₂ (fun name part => under name fields = part.toList) known parts := by
  simp only [parts?, record, namedFields?_map, Option.bind_eq_bind, Option.bind_some,
    mapM_eq_some_iff]
  exact (congrArg (List.Forall₂ · known parts)
    (funext₂ fun _ _ => propext part_eq_some_iff)).to_iff

theorem fullParts?_eq_some_iff {known : List String} {v : Json} {parts : List (Option Json)} :
    fullParts? known v = some parts ↔ HasParts known v parts := by
  constructor
  · intro read
    cases v with
    | array elements =>
      by_cases short : elements.length ≤ known.length
      · have full : elements.length = known.length := by
          by_contra other
          have missing : known.length - elements.length ≠ 0 := by omega
          simp [fullParts?, parts?, short, isArray, missing] at read
        simp [fullParts?, parts?, full, isArray] at read
        exact read ▸ .array full
      · simp [fullParts?, parts?, short] at read
    | object fields =>
      cases names : namedFields? fields with
      | none => simp [fullParts?, parts?, names] at read
      | some named =>
        obtain rfl := eq_map_of_namedFields? names
        have read : parts? known (.record named) = some parts := by
          simpa [fullParts?, isArray, record] using read
        exact .object (parts?_record.mp read)
    | null | bool | number | string => cases read
  · intro has
    cases has with
    | object each =>
      have read := parts?_record.mpr each
      simpa [fullParts?, isArray, record] using read
    | array full =>
      simp [fullParts?, parts?, full, isArray]

/-! ## The values of fields -/

/-- A text that may be absent: it is missing, or `null`, or there. -/
inductive SpellsText : Option Json → Option String → Prop where
  | missing : SpellsText none none
  | null : SpellsText (some .null) none
  | text (s : String) : SpellsText (some (ofString s)) (some s)

theorem asString?_eq_some_iff {v : Json} {s : String} : asString? v = some s ↔ v = ofString s := by
  cases v <;> simp [asString?, ofString]

theorem asBool?_eq_some_iff {v : Json} {b : Bool} : asBool? v = some b ↔ v = .bool b := by
  cases v <;> simp [asBool?]

theorem required?_eq_some_iff {α : Type} {decode : Json → Option α} {part : Option Json} {a : α} :
    required? decode part = some a ↔ ∃ v, part = some v ∧ decode v = some a := by
  cases part <;> simp [required?]

theorem optional?_eq_some_iff {part : Option Json} {text : Option String} :
    optional? asString? part = some text ↔ SpellsText part text := by
  constructor
  · intro read
    cases part with
    | none =>
      cases read
      exact .missing
    | some v =>
      cases v with
      | null =>
        cases read
        exact .null
      | string content =>
        cases content with
        | none => cases read
        | some s =>
          cases read
          exact .text s
      | bool | number | array | object => cases read
  · rintro (_ | _ | _) <;> rfl

end Json

end RegistryCache
