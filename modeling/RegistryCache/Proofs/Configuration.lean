import RegistryCache.Config.Codec
import RegistryCache.Proofs.Json.Records

/-! # The configuration as text

A configuration is written in one way and may be read from many: the fields of an object in another order
and with others among them, arrays in place of objects, texts that are `null` or left out
(`AppConfig.Spelled`).  Whichever it was read from, it is written so that it is read again.  The main
statement is `AppConfig.survives_json`.
-/

namespace RegistryCache

open Json (HasParts Spells SpellsText ofString ofNat ofOption record required? asString? asBool?
  fullParts?_eq_some_iff required?_eq_some_iff optional?_eq_some_iff asWord?_eq_some_iff
  asString?_eq_some_iff asBool?_eq_some_iff spells_toString wellWritten_ofNat)

/-! ## The parts of a configuration -/

namespace RefreshPolicy

/-- What a policy may be written as. -/
inductive Spelled : Json → RefreshPolicy → Prop where
  | intro {v : Json} {catalog tags most : String} {p : RefreshPolicy}
      (parts : HasParts fieldNames v
        [some (.number catalog), some (.number tags), some (.number most)])
      (catalogInterval : Spells catalog p.catalogInterval) (tagsInterval : Spells tags p.tagsInterval)
      (onlineMax : Spells most p.onlineMax) : Spelled v p

theorem ofJson?_eq_some_iff {v : Json} {p : RefreshPolicy} : ofJson? v = some p ↔ Spelled v p := by
  constructor
  · intro read
    cases parts : Json.fullParts? fieldNames v with
    | none => simp [ofJson?, parts] at read
    | some found =>
      have has := fullParts?_eq_some_iff.mp parts
      simp only [ofJson?, parts, Option.bind_eq_bind, Option.bind_some] at read
      split at read
      · simp only [Option.bind_eq_some_iff, required?_eq_some_iff, asWord?_eq_some_iff] at read
        obtain ⟨_, ⟨_, rfl, _, rfl, catalog⟩, _, ⟨_, rfl, _, rfl, tags⟩, _, ⟨_, rfl, _, rfl, most⟩,
          same⟩ := read
        cases same
        exact .intro has catalog tags most
      · cases read
  · rintro ⟨parts, catalog, tags, most⟩
    have read := fullParts?_eq_some_iff.mpr parts
    simp [ofJson?, read, required?, asWord?_eq_some_iff.mpr ⟨_, rfl, catalog⟩,
      asWord?_eq_some_iff.mpr ⟨_, rfl, tags⟩, asWord?_eq_some_iff.mpr ⟨_, rfl, most⟩]

theorem spelled_toJson (p : RefreshPolicy) : Spelled p.toJson p :=
  .intro (.object (by simp [fieldNames, Json.under, ofNat])) (spells_toString _) (spells_toString _)
    (spells_toString _)

theorem wellWritten_toJson (p : RefreshPolicy) : p.toJson.WellWritten :=
  .record (by simp [fieldNames, wellWritten_ofNat])

end RefreshPolicy

namespace RegistryConfig

/-- What a connection may be written as. -/
inductive Spelled : Json → RegistryConfig → Prop where
  | intro {v : Json} {username password passwordFile : Option Json} {timeout pageSize : String}
      {c : RegistryConfig}
      (parts : HasParts fieldNames v [some (ofString c.address), username, password, passwordFile,
        some (.bool c.skipTls), some (.number timeout), some (.number pageSize)])
      (user : SpellsText username c.username) (secret : SpellsText password c.password)
      (file : SpellsText passwordFile c.passwordFile) (wait : Spells timeout c.timeout)
      (size : Spells pageSize c.pageSize) : Spelled v c

theorem ofJson?_eq_some_iff {v : Json} {c : RegistryConfig} : ofJson? v = some c ↔ Spelled v c := by
  constructor
  · intro read
    cases parts : Json.fullParts? fieldNames v with
    | none => simp [ofJson?, parts] at read
    | some found =>
      have has := fullParts?_eq_some_iff.mp parts
      simp only [ofJson?, parts, Option.bind_eq_bind, Option.bind_some] at read
      split at read
      · simp only [Option.bind_eq_some_iff, required?_eq_some_iff, asWord?_eq_some_iff,
          asString?_eq_some_iff, asBool?_eq_some_iff, optional?_eq_some_iff] at read
        obtain ⟨_, ⟨_, rfl, rfl⟩, _, user, _, secret, _, file, _, ⟨_, rfl, rfl⟩, _,
          ⟨_, rfl, _, rfl, wait⟩, _, ⟨_, rfl, _, rfl, size⟩, same⟩ := read
        cases same
        exact .intro has user secret file wait size
      · cases read
  · rintro ⟨parts, user, secret, file, wait, size⟩
    have read := fullParts?_eq_some_iff.mpr parts
    simp [ofJson?, read, required?, asString?, asBool?, ofString, optional?_eq_some_iff.mpr user,
      optional?_eq_some_iff.mpr secret, optional?_eq_some_iff.mpr file,
      asWord?_eq_some_iff.mpr ⟨_, rfl, wait⟩, asWord?_eq_some_iff.mpr ⟨_, rfl, size⟩]

theorem spelled_toJson (c : RegistryConfig) : Spelled c.toJson c := by
  have text (s : Option String) : SpellsText (some (ofOption ofString s)) s := by
    cases s with
    | none => exact .null
    | some s => exact .text s
  exact .intro (.object (by simp [fieldNames, Json.under, ofNat])) (text _) (text _) (text _)
    (spells_toString _) (spells_toString _)

theorem wellWritten_toJson (c : RegistryConfig) : c.toJson.WellWritten := by
  have text (s : Option String) : (ofOption ofString s).WellWritten := by
    cases s with
    | none => exact .null
    | some s => exact .string _
  exact .record (by simp [fieldNames, wellWritten_ofNat, text, Json.WellWritten.bool, ofString,
    Json.WellWritten.string])

end RegistryConfig

namespace AppConfig

/-- What a configuration may be written as. -/
inductive Spelled : Json → AppConfig → Prop where
  | intro {v registry refresh : Json} {c : AppConfig}
      (parts : HasParts fieldNames v
        [some registry, some refresh, some (.bool c.verbose), some (.bool c.quiet)])
      (connection : c.registry.Spelled registry) (policy : c.refresh.Spelled refresh) : Spelled v c

theorem ofJson?_eq_some_iff {v : Json} {c : AppConfig} : ofJson? v = some c ↔ Spelled v c := by
  constructor
  · intro read
    cases parts : Json.fullParts? fieldNames v with
    | none => simp [ofJson?, parts] at read
    | some found =>
      have has := fullParts?_eq_some_iff.mp parts
      simp only [ofJson?, parts, Option.bind_eq_bind, Option.bind_some] at read
      split at read
      · simp only [Option.bind_eq_some_iff, required?_eq_some_iff, asBool?_eq_some_iff,
          RegistryConfig.ofJson?_eq_some_iff, RefreshPolicy.ofJson?_eq_some_iff] at read
        obtain ⟨_, ⟨_, rfl, connection⟩, _, ⟨_, rfl, policy⟩, _, ⟨_, rfl, rfl⟩, _, ⟨_, rfl, rfl⟩,
          same⟩ := read
        cases same
        exact .intro has connection policy
      · cases read
  · rintro ⟨parts, connection, policy⟩
    have read := fullParts?_eq_some_iff.mpr parts
    simp [ofJson?, read, required?, asBool?, RegistryConfig.ofJson?_eq_some_iff.mpr connection,
      RefreshPolicy.ofJson?_eq_some_iff.mpr policy]

theorem spelled_toJson (c : AppConfig) : Spelled c.toJson c :=
  .intro (.object (by simp [fieldNames, Json.under])) c.registry.spelled_toJson
    c.refresh.spelled_toJson

theorem wellWritten_toJson (c : AppConfig) : c.toJson.WellWritten :=
  .record (by simp [fieldNames, Json.WellWritten.bool, RegistryConfig.wellWritten_toJson,
    RefreshPolicy.wellWritten_toJson])

theorem parse?_render {v : Json} {c : AppConfig} (written : v.WellWritten) (spelled : Spelled v c) :
    parse? v.render = some c := by
  rw [parse?, Json.parse?_render written]
  exact ofJson?_eq_some_iff.mpr spelled

/-- A configuration survives being written: its text is read, and gives back the same configuration,
    whatever characters its texts have, whatever is absent, and however large its numbers are.  The texts
    that are read as a configuration are those of the values that spell it, and every such value is read
    from its text; so a configuration that was read from any spelling survives as well. -/
theorem survives_json :
    (∀ c : AppConfig, parse? c.text = some c) ∧
    (∀ text (c : AppConfig), parse? text = some c ↔ ∃ v, Json.parse? text = some v ∧ Spelled v c) ∧
    (∀ (v : Json) (c : AppConfig), v.WellWritten → Spelled v c → parse? v.render = some c) ∧
    (∀ text (c : AppConfig), parse? text = some c → parse? c.text = some c) := by
  have written (c : AppConfig) : parse? c.text = some c :=
    parse?_render c.wellWritten_toJson c.spelled_toJson
  refine ⟨written, ?_, fun v c => parse?_render, fun text c _ => written c⟩
  intro text c
  simp only [parse?, Option.bind_eq_some_iff, ofJson?_eq_some_iff]

/-- The fields are in another order, there is one that nobody knows, the policy is an array, and of the
    texts that may be absent one is `null` and two are left out. -/
theorem survives_json_respelled :
    let v : Json := record [("quiet", .bool false),
      ("colours", .array [.number "-1.5e3", .string none]),
      ("refresh", .array [ofNat 10, ofNat 0, ofNat 18446744073709551615]), ("verbose", .bool true),
      ("registry", record [("timeout", ofNat 30), ("password", .null),
        ("address", ofString "http://\"\\\n\x07é"), ("skip_tls", .bool true),
        ("catalog_page_size", ofNat 100)])]
    let c : AppConfig := ⟨⟨"http://\"\\\n\x07é", none, none, none, true, 30, 100⟩,
      ⟨10, 0, 18446744073709551615⟩, true, false⟩
    v.WellWritten ∧ Spelled v c ∧ parse? v.render = some c ∧ parse? c.text = some c := by
  intro v c
  have unknown : (Json.number "-1.5e3").WellWritten :=
    .number (show Json.Numeral (['-'] ++ ['1'] ++ ['.', '5'] ++ ['e', '3']) from
      .intro (.inr rfl) (.inr ⟨by simp [Json.AreDigits], by simp⟩)
        (.inr ⟨['5'], by simp [Json.AreDigits], rfl⟩)
        (.inr ⟨'e', [], ['3'], .inl rfl, .inl rfl, by simp [Json.AreDigits], rfl⟩))
  have text (s : String) : (ofString s).WellWritten := .string _
  have array {elements : List Json} (each : ∀ w ∈ elements, w.WellWritten) :
      (Json.array elements).WellWritten := .array each
  have written : v.WellWritten := by
    refine .record ?_
    simp only [List.forall_mem_cons]
    refine ⟨.bool _, array ?_, array ?_, .bool _, .record ?_, by simp⟩
    · simp [unknown, Json.WellWritten.string]
    · simp [wellWritten_ofNat]
    · simp [wellWritten_ofNat, Json.WellWritten.null, Json.WellWritten.bool, text]
  have policy : c.refresh.Spelled (.array [ofNat 10, ofNat 0, ofNat 18446744073709551615]) :=
    .intro (.array rfl) (spells_toString 10) (spells_toString 0) (spells_toString 18446744073709551615)
  have connection : c.registry.Spelled (record [("timeout", ofNat 30), ("password", .null),
      ("address", ofString c.registry.address), ("skip_tls", .bool true),
      ("catalog_page_size", ofNat 100)]) :=
    .intro (.object (by simp [RegistryConfig.fieldNames, Json.under, ofNat, c])) .missing .null
      .missing (spells_toString 30) (spells_toString 100)
  have spelled : Spelled v c :=
    .intro (.object (by simp [fieldNames, Json.under, c])) connection policy
  obtain ⟨-, -, read, again⟩ := survives_json
  have first := read v c written spelled
  exact ⟨written, spelled, first, again _ c first⟩

end AppConfig

end RegistryCache
