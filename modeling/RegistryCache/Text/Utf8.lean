/-! # UTF-8

Reading bytes as characters.  `decode` gives every character and, for each longest run of bytes that
begins none, a hole.  Strict reading (`text?`) refuses holes, tolerant reading (`tolerant`) puts a
replacement in their place.  `encode` is the way back.
-/

namespace RegistryCache.Text.Utf8

/-- Where reading stands inside a character: the bits so far, how many bytes are still to come, and
    between which bounds the next one must lie. -/
structure Open where
  bits : Nat
  missing : Nat
  least : UInt8
  greatest : UInt8
  deriving DecidableEq, Repr

/-- What a byte does. -/
inductive Move where
  | character (c : Char)
  | opens (state : Open)
  | refused
  deriving DecidableEq, Repr

/-- A byte where a character begins. -/
def first (b : UInt8) : Move :=
  let n := b.toNat
  if n < 0x80 then .character (Char.ofNat n)
  else if 0xC2 ≤ n ∧ n ≤ 0xDF then .opens ⟨n % 0x20, 1, 0x80, 0xBF⟩
  else if n = 0xE0 then .opens ⟨0, 2, 0xA0, 0xBF⟩
  else if n = 0xED then .opens ⟨0xD, 2, 0x80, 0x9F⟩
  else if 0xE1 ≤ n ∧ n ≤ 0xEF then .opens ⟨n % 0x10, 2, 0x80, 0xBF⟩
  else if n = 0xF0 then .opens ⟨0, 3, 0x90, 0xBF⟩
  else if 0xF1 ≤ n ∧ n ≤ 0xF3 then .opens ⟨n % 8, 3, 0x80, 0xBF⟩
  else if n = 0xF4 then .opens ⟨4, 3, 0x80, 0x8F⟩
  else .refused

/-- A byte inside a character. -/
def next (state : Open) (b : UInt8) : Move :=
  if state.least ≤ b ∧ b ≤ state.greatest then
    let bits := state.bits * 0x40 + b.toNat % 0x40
    if state.missing ≤ 1 then .character (Char.ofNat bits)
    else .opens ⟨bits, state.missing - 1, 0x80, 0xBF⟩
  else .refused

/-- The characters that bytes stand for; a run that begins none is a hole. -/
def decodeFrom : Option Open → List UInt8 → List (Option Char)
  | none, [] => []
  | some _, [] => [none]
  | none, b :: rest =>
    match first b with
    | .character c => some c :: decodeFrom none rest
    | .opens state => decodeFrom (some state) rest
    | .refused => none :: decodeFrom none rest
  | some state, b :: rest =>
    match next state b with
    | .character c => some c :: decodeFrom none rest
    | .opens state => decodeFrom (some state) rest
    | .refused =>
      match first b with
      | .character c => none :: some c :: decodeFrom none rest
      | .opens state => none :: decodeFrom (some state) rest
      | .refused => none :: none :: decodeFrom none rest

/-- The characters that bytes stand for; a run that begins none is a hole. -/
def decode (bytes : List UInt8) : List (Option Char) := decodeFrom none bytes

/-- All characters, if there is no hole. -/
def allOf? : List (Option Char) → Option (List Char)
  | [] => some []
  | none :: _ => none
  | some c :: rest => (allOf? rest).map (c :: ·)

/-- The text that bytes stand for, if they are text throughout. -/
def text? (bytes : List UInt8) : Option String := (allOf? (decode bytes)).map String.ofList

/-- The text that bytes stand for, with a replacement in place of each hole. -/
def withHoles (replacement : List Char) (bytes : List UInt8) : List Char :=
  (decode bytes).flatMap fun
    | some c => [c]
    | none => replacement

/-- The text without a byte order mark in front. -/
def withoutMark : List Char → List Char
  | '\uFEFF' :: rest => rest
  | cs => cs

/-- The text that bytes stand for, read as far as possible: no mark in front, and the replacement
    character where there is no text. -/
def tolerant (bytes : List UInt8) : String :=
  String.ofList (withoutMark (withHoles ['\uFFFD'] bytes))

def encode (cs : List Char) : List UInt8 := cs.flatMap String.utf8EncodeChar

end RegistryCache.Text.Utf8
