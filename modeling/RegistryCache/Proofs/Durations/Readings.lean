import RegistryCache.Proofs.Durations.Rounding
import RegistryCache.Proofs.Json.Records

/-! # What durations are shown as

A job reports how long it took in one of four forms.  A person who reads such a text back
(`Duration.Reading.read?`) is off by less than one unit of the last place that is shown, and by
nothing in whole seconds where there is a minute or more (`Duration.Reading.Tells`).  Minutes and
seconds stay below sixty, except that the last fifty milliseconds before a minute are rounded up to
`60.0s`.  The main statement is `Duration.text_tells`.
-/

namespace RegistryCache.Duration

/-! ## Reading -/

/-- The numbers that a text shows, in one of four forms. -/
inductive Reading where
  | millis (millis : Nat)
  | tenths (seconds tenth : Nat)
  | minutes (minutes seconds : Nat)
  | hours (hours minutes seconds : Nat)
  deriving DecidableEq, Repr

namespace Reading

/-- A number and what follows it. -/
def number? (cs : List Char) : Option (Nat × List Char) :=
  (Json.digitsOf? cs).map fun (digits, rest) => (Nat.ofDigitChars 10 digits 0, rest)

/-- A number of seconds at the end of a text. -/
def seconds? (cs : List Char) : Option Nat :=
  match number? cs with
  | some (n, ['s']) => some n
  | _ => none

/-- Reads a text such as `250ms`, `1.5s`, `2m5s` or `1h2m5s`. -/
def read? (text : String) : Option Reading :=
  match number? text.toList with
  | some (n, ['.', c, 's']) => (Text.digitValue? c).map (.tenths n)
  | some (n, 'm' :: rest) =>
    if rest = ['s'] then some (.millis n) else (seconds? rest).map (.minutes n)
  | some (n, 'h' :: rest) =>
    match number? rest with
    | some (m, 'm' :: rest) => (seconds? rest).map (.hours n m)
    | _ => none
  | _ => none

/-- The nanoseconds that a reading comes to. -/
def nanos : Reading → Nat
  | millis n => n * 1000000
  | tenths seconds tenth => seconds * 1000000000 + tenth * 100000000
  | minutes m seconds => (m * 60 + seconds) * 1000000000
  | hours h m seconds => (h * 3600 + m * 60 + seconds) * 1000000000

/-- One unit of the last place that is shown, in nanoseconds. -/
def unit : Reading → Nat
  | millis _ => 1000000
  | tenths _ _ => 100000000
  | minutes _ _ | hours _ _ _ => 1000000000

/-- What hours, minutes and seconds add up to, where there are at least minutes. -/
def wholeSeconds? : Reading → Option Nat
  | millis _ | tenths _ _ => none
  | minutes m seconds => some (m * 60 + seconds)
  | hours h m seconds => some (h * 3600 + m * 60 + seconds)

/-- No component makes up one of the next larger unit.  Days are not shown, so hours may be of any
    number. -/
def InRange : Reading → Prop
  | millis n => n < 1000
  | tenths seconds _ => seconds < 60
  | minutes m seconds | hours _ m seconds => m < 60 ∧ seconds < 60

instance : DecidablePred InRange
  | millis n => inferInstanceAs (Decidable (n < 1000))
  | tenths seconds _ => inferInstanceAs (Decidable (seconds < 60))
  | minutes m seconds | hours _ m seconds => inferInstanceAs (Decidable (m < 60 ∧ seconds < 60))

/-- What is read agrees with a duration as closely as the places shown allow, and exactly in whole
    seconds where there is a minute or more. -/
structure Tells (r : Reading) (d : Duration) : Prop where
  place : r.unit =
    if d.secs.toNat = 0 then 1000000 else if d.secs.toNat < 60 then 100000000 else 1000000000
  close : |(r.nanos : ℤ) - d.inNanos| < r.unit
  whole : 60 ≤ d.secs.toNat → r.wholeSeconds? = some d.secs.toNat

theorem number?_toString (n : Nat) (mark : Char) (ends : mark.isDigit = false)
    (rest : List Char) : number? ((toString n).toList ++ mark :: rest) = some (n, mark :: rest) := by
  have digits : Json.digitsOf? ((toString n).toList ++ mark :: rest) =
      some ((toString n).toList, mark :: rest) := by
    refine Json.digitsOf?_append (Json.areDigits_toString n) ?_
    rintro _ ⟨⟩
    exact ends
  simp only [number?, digits, Option.map_some, Json.ofDigitChars_toString]

theorem seconds?_toString (n : Nat) : seconds? ((toString n).toList ++ ['s']) = some n := by
  simp only [seconds?, number?_toString n 's' rfl]

theorem digitValue?_digitChar {n : Nat} (small : n < 10) : Text.digitValue? n.digitChar = some n := by
  revert n
  decide

theorem read?_millis (n : Nat) : read? s!"{n}ms" = some (.millis n) := by
  have shown : s!"{n}ms".toList = (toString n).toList ++ 'm' :: ['s'] := by simp [toString]
  simp only [read?, shown, number?_toString n 'm' rfl, if_true]

theorem read?_tenths (n : Nat) {tenth : Nat} (small : tenth < 10) :
    read? s!"{n}.{tenth}s" = some (.tenths n tenth) := by
  have shown : s!"{n}.{tenth}s".toList = (toString n).toList ++ '.' :: [tenth.digitChar, 's'] := by
    simp [toString, Nat.toDigits_of_lt_base small]
  simp only [read?, shown, number?_toString n '.' rfl, digitValue?_digitChar small,
    Option.map_some]

theorem read?_minutes (m n : Nat) : read? s!"{m}m{n}s" = some (.minutes m n) := by
  have shown : s!"{m}m{n}s".toList =
      (toString m).toList ++ 'm' :: ((toString n).toList ++ ['s']) := by
    simp [toString]
  -- A second number follows the mark, so this is not the end of a number of milliseconds.
  have further : (toString n).toList ++ ['s'] ≠ ['s'] := by simp
  simp only [read?, shown, number?_toString m 'm' rfl, if_neg further,
    seconds?_toString, Option.map_some]

theorem read?_hours (h m n : Nat) : read? s!"{h}h{m}m{n}s" = some (.hours h m n) := by
  have shown : s!"{h}h{m}m{n}s".toList = (toString h).toList ++
      'h' :: ((toString m).toList ++ 'm' :: ((toString n).toList ++ ['s'])) := by
    simp [toString]
  simp only [read?, shown, number?_toString h 'h' rfl,
    number?_toString m 'm' rfl, seconds?_toString, Option.map_some]

end Reading

/-- The numbers in the text of a duration. -/
def reading (d : Duration) : Reading :=
  let s := d.secs.toNat
  if s = 0 then .millis d.inMillis
  else if s < 60 then .tenths (d.tenths / 10) (d.tenths % 10)
  else if s < 3600 then .minutes (s / 60) (s % 60)
  else .hours (s / 3600) (s % 3600 / 60) (s % 60)

theorem read?_text (d : Duration) : Reading.read? d.text = some d.reading := by
  unfold text reading
  dsimp only
  split_ifs
  · exact Reading.read?_millis _
  · exact Reading.read?_tenths _ (Nat.mod_lt _ (by decide))
  · exact Reading.read?_minutes _ _
  · exact Reading.read?_hours _ _ _

theorem reading_of_zero {d : Duration} (zero : d.secs.toNat = 0) :
    d.reading = .millis d.inMillis :=
  if_pos zero

theorem reading_of_short {d : Duration} (nonzero : d.secs.toNat ≠ 0) (short : d.secs.toNat < 60) :
    d.reading = .tenths (d.tenths / 10) (d.tenths % 10) :=
  (if_neg nonzero).trans (if_pos short)

/-! ## How close a reading is -/

theorem wholeSeconds?_reading {d : Duration} (long : 60 ≤ d.secs.toNat) :
    d.reading.wholeSeconds? = some d.secs.toNat := by
  unfold reading
  dsimp only
  split_ifs
  · omega
  · omega
  · rw [Reading.wholeSeconds?, Nat.div_add_mod']
  · rw [Reading.wholeSeconds?, Option.some.injEq]
    omega

/-- Where whole seconds are shown, they are all that is shown. -/
theorem Reading.nanos_eq_of_wholeSeconds? {r : Reading} {seconds : Nat}
    (whole : r.wholeSeconds? = some seconds) :
    r.nanos = seconds * 1000000000 ∧ r.unit = 1000000000 := by
  cases r with
  | millis n => cases whole
  | tenths n tenth => cases whole
  | minutes m n =>
    cases whole
    exact ⟨rfl, rfl⟩
  | hours h m n =>
    cases whole
    exact ⟨rfl, rfl⟩

theorem tells_reading (d : Duration) : d.reading.Tells d := by
  have length := d.inNanos_between
  by_cases zero : d.secs.toNat = 0
  · rw [reading_of_zero zero]
    refine ⟨(if_pos zero).symm, ?_, by omega⟩
    have millis : d.inMillis = d.inNanos / 1000000 := rfl
    rw [abs_sub_lt_iff, Reading.nanos, Reading.unit]
    omega
  · by_cases short : d.secs.toNat < 60
    · rw [reading_of_short zero short]
      refine ⟨by rw [if_neg zero, if_pos short]; rfl, ?_, by omega⟩
      have nearest := abs_le.mp (tenths_nearest short)
      rw [abs_sub_lt_iff, Reading.nanos, Reading.unit]
      omega
    · -- Both other forms show whole seconds, so they need no cases of their own.
      have whole := wholeSeconds?_reading (Nat.not_lt.mp short)
      obtain ⟨value, unit⟩ := Reading.nanos_eq_of_wholeSeconds? whole
      refine ⟨by rw [if_neg zero, if_neg short, unit], ?_, fun _ => whole⟩
      rw [abs_sub_lt_iff, value, unit]
      omega

/-! ## Components out of range -/

/-- A duration below a minute that is at least as near to a minute as to the tenth before. -/
def RoundsToMinute (d : Duration) : Prop := d.secs.toNat < 60 ∧ 59950000000 ≤ d.inNanos

theorem inRange_reading_iff (d : Duration) : d.reading.InRange ↔ ¬ d.RoundsToMinute := by
  have length := d.inNanos_between
  by_cases zero : d.secs.toNat = 0
  · rw [reading_of_zero zero, Reading.InRange, RoundsToMinute]
    have millis : d.inMillis = d.inNanos / 1000000 := rfl
    omega
  · by_cases short : d.secs.toNat < 60
    · rw [reading_of_short zero short, Reading.InRange, RoundsToMinute, ← le_tenths_iff short]
      omega
    · unfold reading RoundsToMinute
      dsimp only
      rw [if_neg zero, if_neg short]
      split_ifs
      · rw [Reading.InRange]
        omega
      · rw [Reading.InRange]
        omega

theorem text_of_roundsToMinute {d : Duration} (late : d.RoundsToMinute) : d.text = "60.0s" := by
  obtain ⟨short, late⟩ := late
  have length := d.inNanos_between
  have nonzero : d.secs.toNat ≠ 0 := by omega
  have shown : d.tenths = 600 := le_antisymm (tenths_le short) ((le_tenths_iff short).mpr late)
  simp only [text, if_neg nonzero, if_pos short, shown]
  rfl

/-- The text of a duration is read back with less than one unit of the last place shown between them,
    and without any loss in whole seconds from a minute on.  Its components are in range if and only if
    the duration is not one of those that round to a minute, which are all shown as `60.0s`. -/
theorem text_tells (d : Duration) :
    ∃ r, Reading.read? d.text = some r ∧ r.Tells d ∧ (r.InRange ↔ ¬ d.RoundsToMinute) ∧
      (d.RoundsToMinute → d.text = "60.0s") :=
  ⟨d.reading, read?_text d, tells_reading d, inRange_reading_iff d, text_of_roundsToMinute⟩

/-- A nanosecond before the minute, sixty seconds are shown. -/
theorem sixty_seconds_shown :
    text ⟨59, 999999999⟩ = "60.0s" ∧ Reading.read? "60.0s" = some (.tenths 60 0) ∧
      ¬ (Reading.tenths 60 0).InRange :=
  ⟨by decide +kernel, by decide +kernel, by decide⟩

end RegistryCache.Duration
