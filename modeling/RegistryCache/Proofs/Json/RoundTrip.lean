import Mathlib.Tactic.IntervalCases
import RegistryCache.Json.Reader

/-! # Written values are read back

The text of a value is read as this value, whatever follows it: a string character by character, a number
by its grammar (`Numeral`), and what is made of them by induction.  The reader's bound counts two for every
character, which is enough (`WellWritten.reads`).  The main statement is `Json.parse?_render`.
-/

namespace RegistryCache.Json

/-! ## Strings -/

theorem pieces?_short {c e : Char} (short : escaped? e = some c) (rest : List Char) :
    pieces? ('\\' :: e :: rest) = (pieces? rest).map fun (ps, rest) => (.char c :: ps, rest) := by
  have other : e ≠ 'u' := by
    rintro rfl
    cases short
  rw [pieces?]
  · cases read : pieces? rest <;> simp [short]
  · intro a b c d rest' same
    exact absurd same other

theorem unit?_hexDigit {n : Nat} (small : n < 0x20) :
    unit? '0' '0' (Text.hexDigit (n / 16)) (Text.hexDigit (n % 16)) = some n := by
  interval_cases n <;> rfl

theorem pieces?_unit {n : Nat} (small : n < 0x20) (rest : List Char) :
    pieces? ('\\' :: 'u' :: '0' :: '0' :: Text.hexDigit (n / 16) :: Text.hexDigit (n % 16) :: rest) =
      (pieces? rest).map fun (ps, rest) => (.unit n :: ps, rest) := by
  rw [pieces?, unit?_hexDigit small]
  cases read : pieces? rest <;> simp

theorem pieces?_plain {c : Char} (plain : c ≠ '"' ∧ c ≠ '\\' ∧ ¬ c.toNat < 0x20)
    (rest : List Char) :
    pieces? (c :: rest) = (pieces? rest).map fun (ps, rest) => (.char c :: ps, rest) := by
  obtain ⟨unquoted, unescaped, visible⟩ := plain
  rw [pieces?]
  · cases read : pieces? rest <;> simp [unescaped, visible]
  · exact unquoted
  · intro a b c d rest' same
    exact absurd same unescaped
  · intro e rest' same
    exact absurd same unescaped

theorem assemble?_unit {c : Char} (small : c.toNat < 0x20) (ps : List Piece) :
    assemble? (.unit c.toNat :: ps) = (assemble? ps).map (c :: ·) := by
  have high : isHigh c.toNat = false := by
    simp [isHigh]
    omega
  have low : isLow c.toNat = false := by
    simp [isLow]
    omega
  rcases ps with - | ⟨next | next, ps⟩ <;> simp [assemble?, high, low, Char.ofNat_toNat]

/-- A part of a string stands for a character: it is what is read where the character is written. -/
structure Piece.StandsFor (piece : Piece) (c : Char) : Prop where
  read : ∀ rest, pieces? (escape c ++ rest) =
    (pieces? rest).map fun (ps, rest) => (piece :: ps, rest)
  meaning : ∀ ps, assemble? (piece :: ps) = (assemble? ps).map (c :: ·)

theorem exists_piece (c : Char) : ∃ piece : Piece, piece.StandsFor c := by
  have short {e : Char} (written : escape c = ['\\', e]) (stands : escaped? e = some c) :
      ∃ piece : Piece, piece.StandsFor c := by
    refine ⟨.char c, fun rest => ?_, fun ps => rfl⟩
    rw [written]
    exact pieces?_short stands rest
  have written := escape.eq_def c
  split_ifs at written with quote backslash newline carriage tab back feed control
  · exact short written (by rw [quote]; rfl)
  · exact short written (by rw [backslash]; rfl)
  · exact short written (by rw [newline]; rfl)
  · exact short written (by rw [carriage]; rfl)
  · exact short written (by rw [tab]; rfl)
  · have stands : c = '\x08' := by
      rw [← Char.ofNat_toNat c, back]
    exact short written (by rw [stands]; rfl)
  · have stands : c = '\x0c' := by
      rw [← Char.ofNat_toNat c, feed]
    exact short written (by rw [stands]; rfl)
  · refine ⟨.unit c.toNat, fun rest => ?_, assemble?_unit control⟩
    rw [written]
    exact pieces?_unit control rest
  · refine ⟨.char c, fun rest => ?_, fun ps => rfl⟩
    rw [written]
    exact pieces?_plain ⟨quote, backslash, control⟩ rest

theorem pieces?_escaped (cs rest : List Char) :
    ∃ ps, pieces? (cs.flatMap escape ++ '"' :: rest) = some (ps, rest) ∧ assemble? ps = some cs := by
  induction cs with
  | nil => exact ⟨[], by simp [pieces?], rfl⟩
  | cons c cs inductionHypothesis =>
    obtain ⟨ps, read, stands⟩ := inductionHypothesis
    obtain ⟨piece, first⟩ := exists_piece c
    refine ⟨piece :: ps, ?_, ?_⟩
    · rw [List.flatMap_cons, List.append_assoc, first.read, read]
      rfl
    · rw [first.meaning, stands]
      rfl

/-- A quoted string is read back, also one that stands for no text. -/
theorem stringRest?_quote (content : Option String) (rest : List Char) :
    ∃ inner, quote content ++ rest = '"' :: inner ∧ stringRest? inner = some (content, rest) := by
  cases content with
  | none =>
    refine ⟨_, rfl, ?_⟩
    simp [stringRest?, pieces?, unit?, Text.hexValue?, assemble?, isHigh, isLow]
  | some s =>
    obtain ⟨ps, read, stands⟩ := pieces?_escaped s.toList rest
    refine ⟨s.toList.flatMap escape ++ '"' :: rest, by simp [quote], ?_⟩
    simp [stringRest?, read, stands]

/-! ## Numbers -/

def AreDigits (ds : List Char) : Prop := ds ≠ [] ∧ ∀ c ∈ ds, c.isDigit = true

/-- A number as the grammar has it: a sign, a whole part that begins with a zero only if it is zero,
    decimals, and an exponent; all but the whole part may be missing. -/
inductive Numeral : List Char → Prop where
  | intro {sign whole decimals power : List Char} (signed : sign = [] ∨ sign = ['-'])
      (counted : whole = ['0'] ∨ AreDigits whole ∧ whole.head? ≠ some '0')
      (divided : decimals = [] ∨ ∃ ds, AreDigits ds ∧ decimals = '.' :: ds)
      (raised : power = [] ∨ ∃ mark sign ds, (mark = 'e' ∨ mark = 'E') ∧
        (sign = [] ∨ sign = ['+'] ∨ sign = ['-']) ∧ AreDigits ds ∧ power = mark :: (sign ++ ds)) :
      Numeral (sign ++ whole ++ decimals ++ power)

/-- Nothing follows, or a mark that ends a value. -/
def Ends (rest : List Char) : Prop :=
  ∀ c, rest.head? = some c → c = ',' ∨ c = ']' ∨ c = '\x7d'

theorem digitsOf?_append {ds rest : List Char} (digits : AreDigits ds)
    (stops : ∀ c, rest.head? = some c → c.isDigit = false) :
    digitsOf? (ds ++ rest) = some (ds, rest) := by
  have taken : rest.takeWhile Char.isDigit = [] := by
    cases rest with
    | nil => rfl
    | cons c rest => simp [stops c rfl]
  have dropped : rest.dropWhile Char.isDigit = rest := by
    cases rest with
    | nil => rfl
    | cons c rest => simp [stops c rfl]
  rw [digitsOf?, List.takeWhile_append_of_pos digits.2, List.dropWhile_append_of_pos digits.2, taken,
    dropped]
  simp [digits.1]

theorem whole?_append {whole rest : List Char}
    (counted : whole = ['0'] ∨ AreDigits whole ∧ whole.head? ≠ some '0')
    (stops : ∀ c, rest.head? = some c → c.isDigit = false) :
    whole? (whole ++ rest) = some (whole, rest) := by
  obtain rfl | ⟨digits, nonzero⟩ := counted
  · cases rest with
    | nil => rfl
    | cons c rest => simp [whole?, stops c rfl]
  · rw [whole?]
    · exact digitsOf?_append digits stops
    · intro rest' same
      cases whole with
      | nil => exact digits.1 rfl
      | cons c whole =>
        cases same
        exact nonzero rfl

theorem AreDigits.head {ds : List Char} (digits : AreDigits ds) :
    ∃ c rest, ds = c :: rest ∧ c.isDigit = true := by
  cases ds with
  | nil => exact absurd rfl digits.1
  | cons c rest => exact ⟨c, rest, rfl, digits.2 c List.mem_cons_self⟩

theorem exponentSign_append {sign ds rest : List Char}
    (signed : sign = [] ∨ sign = ['+'] ∨ sign = ['-']) (digits : AreDigits ds) :
    exponentSign (sign ++ ds ++ rest) = (sign, ds ++ rest) := by
  obtain rfl | rfl | rfl := signed
  · obtain ⟨c, ds, rfl, digit⟩ := digits.head
    rw [List.nil_append, List.cons_append, exponentSign]
    · rintro _ ⟨rfl, -⟩
      cases digit
    · rintro _ ⟨rfl, -⟩
      cases digit
  · rfl
  · rfl

/-- What follows the whole part of a number: its other parts, or what ends a value. -/
def isStop (c : Char) : Bool := c ∈ ['.', 'e', 'E', ',', ']', '\x7d']

theorem isDigit_of_isStop {c : Char} (stop : isStop c = true) : c.isDigit = false := by
  simp only [isStop, decide_eq_true_eq, List.mem_cons, List.not_mem_nil, or_false] at stop
  rcases stop with rfl | rfl | rfl | rfl | rfl | rfl <;> rfl

theorem exponent?_append {power rest : List Char}
    (raised : power = [] ∨ ∃ mark sign ds, (mark = 'e' ∨ mark = 'E') ∧
      (sign = [] ∨ sign = ['+'] ∨ sign = ['-']) ∧ AreDigits ds ∧ power = mark :: (sign ++ ds))
    (ends : Ends rest) :
    exponent? (power ++ rest) = some (power, rest) ∧
      ∀ c, (power ++ rest).head? = some c → isStop c = true ∧ c ≠ '.' := by
  obtain rfl | ⟨mark, sign, ds, marked, signed, digits, rfl⟩ := raised
  · cases rest with
    | nil => exact ⟨rfl, nofun⟩
    | cons c rest =>
      obtain rfl | rfl | rfl := ends c rfl
      all_goals exact ⟨rfl, by rintro _ ⟨⟩; decide⟩
  · have stops (c : Char) (next : rest.head? = some c) : c.isDigit = false := by
      obtain rfl | rfl | rfl := ends c next <;> rfl
    rw [List.cons_append, exponent?, if_pos marked, exponentSign_append signed digits]
    refine ⟨by simp [digitsOf?_append digits stops], ?_⟩
    rintro c ⟨⟩
    obtain rfl | rfl := marked <;> decide

theorem decimals?_append {decimals rest : List Char}
    (divided : decimals = [] ∨ ∃ ds, AreDigits ds ∧ decimals = '.' :: ds)
    (stops : ∀ c, rest.head? = some c → isStop c = true ∧ c ≠ '.') :
    decimals? (decimals ++ rest) = some (decimals, rest) ∧
      ∀ c, (decimals ++ rest).head? = some c → isStop c = true := by
  obtain rfl | ⟨ds, digits, rfl⟩ := divided
  · refine ⟨?_, fun c next => (stops c next).1⟩
    rw [List.nil_append, decimals?]
    rintro rest' rfl
    exact (stops '.' rfl).2 rfl
  · refine ⟨?_, ?_⟩
    · have read := digitsOf?_append digits fun c next => isDigit_of_isStop (stops c next).1
      simp [decimals?, read]
    · rintro c ⟨⟩
      decide

theorem number?_append {cs rest : List Char} (numeral : Numeral cs) (ends : Ends rest) :
    number? (cs ++ rest) = some (String.ofList cs, rest) := by
  obtain ⟨signed, counted, divided, raised⟩ := numeral
  obtain ⟨power, stops⟩ := exponent?_append raised ends
  obtain ⟨decimals, stops⟩ := decimals?_append divided stops
  have whole := whole?_append counted fun c next => isDigit_of_isStop (stops c next)
  simp only [List.append_assoc]
  obtain rfl | rfl := signed
  · rw [number?]
    · simp [whole, decimals, power]
    · -- the whole part begins with a digit
      intro rest' same
      obtain rfl | ⟨digits, -⟩ := counted
      · cases same
      · obtain ⟨c, ds, rfl, digit⟩ := digits.head
        cases same
        cases digit
  · simp [number?, whole, decimals, power]

theorem Numeral.head {cs : List Char} (numeral : Numeral cs) :
    ∃ c rest, cs = c :: rest ∧ (c = '-' ∨ c.isDigit = true) := by
  obtain ⟨signed, counted, -, -⟩ := numeral
  obtain rfl | rfl := signed
  · obtain rfl | ⟨digits, -⟩ := counted
    · exact ⟨'0', _, rfl, .inr rfl⟩
    · obtain ⟨c, ds, rfl, digit⟩ := digits.head
      exact ⟨c, _, rfl, .inr digit⟩
  · exact ⟨'-', _, rfl, .inl rfl⟩

/-! ## Values -/

/-- A value of which every number is written as a number. -/
inductive WellWritten : Json → Prop where
  | null : WellWritten .null
  | bool (b : Bool) : WellWritten (.bool b)
  | number {digits : String} (numeral : Numeral digits.toList) : WellWritten (.number digits)
  | string (content : Option String) : WellWritten (.string content)
  | array {elements : List Json} (each : ∀ v ∈ elements, WellWritten v) :
      WellWritten (.array elements)
  | object {fields : List (Option String × Json)} (each : ∀ field ∈ fields, WellWritten field.2) :
      WellWritten (.object fields)

/-- A value is read back from its text, whatever follows it, by a reader whose bound is large enough. -/
def Reads (v : Json) : Prop :=
  ∀ bound rest, 2 * v.renderChars.length ≤ bound → Ends rest →
    value? bound (v.renderChars ++ rest) = some (v, rest)

theorem isSpace_of_numeral {c : Char} (begins : c = '-' ∨ c.isDigit = true) :
    isSpace c = false := by
  by_contra space
  simp only [isSpace, Bool.not_eq_false, Bool.or_eq_true, beq_iff_eq] at space
  obtain ((rfl | rfl) | rfl) | rfl := space <;> exact absurd begins (by decide)

theorem skipSpace_cons {c : Char} (visible : isSpace c = false) (cs : List Char) :
    skipSpace (c :: cs) = c :: cs := by
  simp [skipSpace, visible]

theorem value?_of_numeral {c : Char} (begins : c = '-' ∨ c.isDigit = true) (bound : Nat)
    (cs : List Char) :
    value? (bound + 1) (c :: cs) = (number? (c :: cs)).map fun (digits, rest) => (.number digits, rest) := by
  have visible : skipSpace (c :: cs) = c :: cs := skipSpace_cons (isSpace_of_numeral begins) cs
  rw [value?, visible]
  split
  case h_7 => rfl
  all_goals
    rename_i same
    cases same
    exact absurd begins (by decide)

theorem reads_number {digits : String} (numeral : Numeral digits.toList) : Reads (.number digits) := by
  intro bound rest enough ends
  obtain ⟨c, cs, written, begins⟩ := numeral.head
  have read := number?_append numeral ends
  rw [renderChars] at enough ⊢
  rw [written] at read enough ⊢
  obtain - | bound := bound
  · simp at enough
  · rw [List.cons_append, value?_of_numeral begins, ← List.cons_append, read, ← written,
      String.ofList_toList]
    rfl

theorem reads_string (content : Option String) : Reads (.string content) := by
  intro bound rest enough ends
  obtain ⟨inner, written, read⟩ := stringRest?_quote content rest
  rw [renderChars] at enough ⊢
  obtain - | bound := bound
  · cases content <;> simp [quote] at enough
  · rw [written, value?]
    simp [skipSpace, isSpace, read]

theorem WellWritten.head {v : Json} (written : v.WellWritten) :
    ∃ c cs, v.renderChars = c :: cs ∧ isSpace c = false ∧ c ≠ ']' := by
  cases written with
  | null => exact ⟨_, _, by rw [renderChars], rfl, by decide⟩
  | bool b => cases b <;> exact ⟨_, _, by rw [renderChars], rfl, by decide⟩
  | number numeral =>
    obtain ⟨c, cs, equal, begins⟩ := numeral.head
    refine ⟨c, cs, by rw [renderChars, equal], isSpace_of_numeral begins, ?_⟩
    rintro rfl
    exact absurd begins (by decide)
  | string content =>
    obtain ⟨inner, equal, -⟩ := stringRest?_quote content []
    exact ⟨'"', inner, by rw [renderChars, ← equal, List.append_nil], rfl, by decide⟩
  | array each => exact ⟨_, _, by rw [renderChars], rfl, by decide⟩
  | object each => exact ⟨_, _, by rw [renderChars], rfl, by decide⟩

theorem ends_cons {c : Char} (mark : c = ',' ∨ c = ']' ∨ c = '\x7d') (rest : List Char) :
    Ends (c :: rest) := by
  rintro _ ⟨⟩
  exact mark

theorem elements?_renderElements {v : Json} {elements : List Json}
    (each : ∀ w ∈ v :: elements, Reads w) (bound : Nat) (rest : List Char)
    (enough : 2 * (renderElements (v :: elements)).length ≤ bound) :
    elements? bound (renderElements (v :: elements) ++ rest) = some (v :: elements, rest) := by
  induction elements generalizing v bound with
  | nil =>
    obtain - | bound := bound
    · simp [renderElements] at enough
    · have read := each v List.mem_cons_self bound (']' :: rest) (by
        simp [renderElements] at enough
        omega) (ends_cons (by simp) rest)
      simp [renderElements, elements?, read, skipSpace, isSpace]
  | cons w elements inductionHypothesis =>
    obtain - | bound := bound
    · simp [renderElements] at enough
    · simp only [renderElements, List.length_append, List.length_cons] at enough
      have first := each v List.mem_cons_self bound (',' :: (renderElements (w :: elements) ++ rest))
        (by omega) (ends_cons (by simp) _)
      have later := inductionHypothesis (fun u member => each u (List.mem_cons_of_mem _ member)) bound
        (by omega)
      simp [renderElements, elements?, first, later, skipSpace, isSpace]

theorem fields?_renderFields {name : Option String} {v : Json}
    {fields : List (Option String × Json)} (each : ∀ field ∈ (name, v) :: fields, Reads field.2)
    (bound : Nat) (rest : List Char)
    (enough : 2 * (renderFields ((name, v) :: fields)).length ≤ bound) :
    fields? bound (renderFields ((name, v) :: fields) ++ rest) = some ((name, v) :: fields, rest) := by
  have reads : v.Reads := each (name, v) List.mem_cons_self
  induction fields generalizing name v bound with
  | nil =>
    obtain - | bound := bound
    · simp [renderFields] at enough
    · simp only [renderFields, List.length_append, List.length_cons] at enough
      obtain ⟨inner, written, read⟩ :=
        stringRest?_quote name (':' :: (v.renderChars ++ '\x7d' :: rest))
      have first := reads bound ('\x7d' :: rest) (by omega) (ends_cons (by simp) rest)
      simp [renderFields, fields?, written, read, first, skipSpace, isSpace]
  | cons field fields inductionHypothesis =>
    obtain ⟨name', w⟩ := field
    obtain - | bound := bound
    · simp [renderFields] at enough
    · simp only [renderFields, List.length_append, List.length_cons] at enough
      have first := reads bound (',' :: (renderFields ((name', w) :: fields) ++ rest))
        (by omega) (ends_cons (by simp) _)
      have later := inductionHypothesis (fun other member => each other (List.mem_cons_of_mem _ member))
        bound (by omega) (each (name', w) (by simp))
      obtain ⟨inner, written, read⟩ := stringRest?_quote name
        (':' :: (v.renderChars ++ ',' :: (renderFields ((name', w) :: fields) ++ rest)))
      simp [renderFields, fields?, written, read, first, later, skipSpace, isSpace]

theorem value?_of_element {c : Char} (visible : isSpace c = false) (opened : c ≠ ']') (bound : Nat)
    (cs : List Char) :
    value? (bound + 1) ('[' :: c :: cs) =
      (elements? bound (c :: cs)).map fun (vs, rest) => (.array vs, rest) := by
  simp only [value?, skipSpace_cons (show isSpace '[' = false from rfl), skipSpace_cons visible]
  split
  · rename_i same
    cases same
    exact absurd rfl opened
  · rfl

theorem reads_array {elements : List Json} (written : ∀ v ∈ elements, v.WellWritten)
    (each : ∀ v ∈ elements, v.Reads) : Reads (.array elements) := by
  intro bound rest enough ends
  rw [renderChars] at enough ⊢
  obtain - | bound := bound
  · simp at enough
  cases elements with
  | nil => simp [renderElements, value?, skipSpace, isSpace]
  | cons v elements =>
    simp only [List.length_cons] at enough
    have inner := elements?_renderElements each bound rest (by omega)
    -- what is read first is an element, and no closing bracket
    obtain ⟨c, cs, text, visible, opened⟩ : ∃ c cs, renderElements (v :: elements) ++ rest = c :: cs ∧
        isSpace c = false ∧ c ≠ ']' := by
      obtain ⟨c, cs, text, visible, opened⟩ := (written v List.mem_cons_self).head
      cases elements <;> exact ⟨c, _, by rw [renderElements, text]; rfl, visible, opened⟩
    rw [text] at inner
    rw [List.cons_append, text, value?_of_element visible opened, inner]
    rfl

theorem reads_object {fields : List (Option String × Json)} (each : ∀ field ∈ fields, field.2.Reads) :
    Reads (.object fields) := by
  intro bound rest enough ends
  rw [renderChars] at enough ⊢
  obtain - | bound := bound
  · simp at enough
  cases fields with
  | nil => simp [renderFields, value?, skipSpace, isSpace]
  | cons field fields =>
    obtain ⟨name, v⟩ := field
    simp only [List.length_cons] at enough
    have inner := fields?_renderFields each bound rest (by omega)
    -- what is read first is the quote of a name, and no closing bracket
    obtain ⟨cs, text⟩ : ∃ cs, renderFields ((name, v) :: fields) ++ rest = '"' :: cs := by
      obtain ⟨inner, quoted, -⟩ := stringRest?_quote name []
      rw [List.append_nil] at quoted
      cases fields <;> exact ⟨_, by rw [renderFields, quoted]; rfl⟩
    rw [text] at inner
    rw [List.cons_append, text, value?, skipSpace_cons (by decide)]
    simp [skipSpace_cons (c := '"') (by decide), inner]

/-- A value of which every number is written as one is read back from its text. -/
theorem WellWritten.reads {v : Json} (written : v.WellWritten) : v.Reads := by
  induction written with
  | null =>
    intro bound rest enough ends
    obtain - | bound := bound
    · simp [renderChars] at enough
    · simp [renderChars, value?, skipSpace, isSpace]
  | bool b =>
    intro bound rest enough ends
    obtain - | bound := bound
    · cases b <;> simp [renderChars] at enough
    · cases b <;> simp [renderChars, value?, skipSpace, isSpace]
  | number numeral => exact reads_number numeral
  | string content => exact reads_string content
  | array written each => exact reads_array written each
  | object written each => exact reads_object each

theorem parse?_render {v : Json} (written : v.WellWritten) : parse? v.render = some v := by
  have read := written.reads (2 * v.renderChars.length + 1) [] (by omega) nofun
  rw [List.append_nil] at read
  simp [parse?, render, parseChars?, read, skipSpace]

end RegistryCache.Json
