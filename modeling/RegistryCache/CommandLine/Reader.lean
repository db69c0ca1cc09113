import RegistryCache.CommandLine.Flag

/-! # Reading command lines

A line is read word by word at two places: before the command and behind it.  What a flag takes is
written behind an equals sign, right behind a short flag, or as the next word, and in the last case it
is looked at only when the next flag or word comes, or at the end.  Two dashes end all flags.  Flags
may stand at either place, but only once at each; the one behind the command counts.
-/

namespace RegistryCache.CommandLine

/-- Why a line is not carried out: what is wrong with it, or that it asks for information. -/
inductive Refusal where
  | unknownArgument
  | unknownCommand
  | missingWord
  | missingCommand
  | repeated
  | badValue
  | missingValue
  | unwantedValue
  | help
  | version
  | empty
  deriving DecidableEq, Repr

/-- A flag that is given, with what it takes. -/
inductive Setting where
  | on (s : Switch)
  | text (t : TextFlag) (value : String)
  | number (n : NumberFlag) (value : UInt64)
  deriving DecidableEq, Repr

/-- The flag of a setting. -/
def Setting.flag : Setting → Flag
  | .on s => .switch s
  | .text t _ => .text t
  | .number n _ => .number n

/-- A flag whose value is still to come, or still to be looked at. -/
structure Pending where
  flag : Flag
  value : Option String
  deriving DecidableEq, Repr

/-- What has been read at one place. -/
structure Gathered where
  settings : List Setting
  words : List String
  pending : Option Pending
  deriving DecidableEq, Repr

namespace Gathered

def nothing : Gathered := ⟨[], [], none⟩

/-- Whether a flag waits for its value. -/
def isWaiting (g : Gathered) : Bool :=
  match g.pending with
  | some ⟨_, none⟩ => true
  | _ => false

/-- Adds a setting, unless there is one for its flag. -/
def add (g : Gathered) (s : Setting) : Except Refusal Gathered :=
  if g.settings.any (·.flag = s.flag) then .error .repeated
  else .ok { g with settings := g.settings ++ [s] }

/-- Adds a flag with its value.  That the flag stands there a second time is found before its value
    is looked at. -/
def addValue (g : Gathered) (flag : Flag) (value : String) : Except Refusal Gathered :=
  match flag with
  | .text t => g.add (.text t value)
  | .number n =>
    match Text.word? value with
    | some w => g.add (.number n w)
    | none => if g.settings.any (·.flag = flag) then .error .repeated else .error .badValue
  | _ => .error .unwantedValue

/-- Looks at the value that is pending. -/
def settle (g : Gathered) : Except Refusal Gathered :=
  match g.pending with
  | none => .ok g
  | some ⟨_, none⟩ => .error .missingValue
  | some ⟨flag, some value⟩ => { g with pending := none }.addValue flag value

/-- A flag stands there, with its value where that is attached to it. -/
def takeFlag (g : Gathered) (flag : Flag) (value : Option String) : Except Refusal Gathered := do
  match flag, value with
  | .help, none => do
    let _ ← g.settle
    .error .help
  | .version, none => do
    let _ ← g.settle
    .error .version
  | .switch s, none => (← g.settle).add (.on s)
  | .help, some _ | .version, some _ | .switch _, some _ => .error .unwantedValue
  | _, some value => (← g.settle).addValue flag value
  | _, none => return { (← g.settle) with pending := some ⟨flag, none⟩ }

/-- Short flags stand there, one behind the other. -/
def takeShort (place : Place) (g : Gathered) : List Char → Except Refusal Gathered
  | [] => .ok g
  | c :: rest =>
    match place.shortFlag? c with
    | none => .error .unknownArgument
    | some (.text t) => g.takeFlag (.text t) (attached rest)
    | some (.number n) => g.takeFlag (.number n) (attached rest)
    | some flag => do takeShort place (← g.takeFlag flag none) rest
where
  /-- The value attached to a short flag, with or without an equals sign. -/
  attached : List Char → Option String
    | [] => none
    | '=' :: value => some (String.ofList value)
    | value => some (String.ofList value)

/-- A long flag stands there. -/
def takeLong (place : Place) (g : Gathered) (cs : List Char) : Except Refusal Gathered :=
  let (name, value) := match Text.cut? '=' cs with
    | some (name, value) => (name, some (String.ofList value))
    | none => (cs, none)
  match place.longFlag? (String.ofList name) with
  | some flag => g.takeFlag flag value
  | none => .error .unknownArgument

/-- A word stands there that is neither flag nor value. -/
def takeWord (verb : Verb) (g : Gathered) (word : String) : Except Refusal Gathered :=
  if g.words.length < verb.mostWords then do
    let g ← g.settle
    return { g with words := g.words ++ [word] }
  else .error .unknownArgument

end Gathered

/-! ## Words -/

/-- What a word looks like. -/
inductive Shape where
  | escape
  | long (cs : List Char)
  | short (cs : List Char)
  | plain
  deriving DecidableEq, Repr

/-- Sorts words by their dashes; one dash alone is a plain word. -/
def shape (word : String) : Shape :=
  match word.toList with
  | ['-', '-'] => .escape
  | '-' :: '-' :: rest => .long rest
  | ['-'] => .plain
  | '-' :: rest => .short rest
  | _ => .plain

/-! ## Behind the command -/

/-- Reads what stands behind a command; the flag says that two dashes have ended all flags. -/
def readBehind (verb : Verb) : Bool → Gathered → List String → Except Refusal Gathered
  | _, g, [] => g.settle
  | true, g, word :: rest => do readBehind verb true (← g.takeWord verb word) rest
  | false, g, word :: rest =>
    match shape word with
    | .escape => readBehind verb true g rest
    | .long cs => do readBehind verb false (← g.takeLong (.behind verb) cs) rest
    | .short cs => do readBehind verb false (← g.takeShort (.behind verb) cs) rest
    | .plain =>
      match g.pending with
      | some ⟨flag, none⟩ =>
        readBehind verb false { g with pending := some ⟨flag, some word⟩ } rest
      | _ => do readBehind verb false (← g.takeWord verb word) rest

/-! ## Before the command -/

/-- What stands before the command, and the command with what stands behind it. -/
structure Front where
  gathered : Gathered
  rest : Option (Verb × List String)
  deriving DecidableEq, Repr

/-- What is answered to a request for help on some words. -/
def helpOn : List String → Refusal
  | [] => .help
  | [word] => if (Verb.ofName? word).isSome ∨ word = "help" then .help else .unknownCommand
  | _ => .unknownCommand

/-- Whether a word names a command, or asks for help on one. -/
def isCommand (word : String) : Bool := (Verb.ofName? word).isSome || word == "help"

/-- Reads what stands before the command. -/
def readFront : Gathered → List String → Except Refusal Front
  | g, [] => .ok ⟨g, none⟩
  | g, word :: rest =>
    match if g.isWaiting then none else Verb.ofName? word with
    | some verb => .ok ⟨g, some (verb, rest)⟩
    | none =>
      if !g.isWaiting && word == "help" then .error (helpOn rest)
      else match shape word with
        | .escape =>
          match rest with
          | [] => .ok ⟨g, none⟩
          | word :: _ => .error (if isCommand word then .unknownArgument else .unknownCommand)
        | .long cs => do readFront (← g.takeLong .front cs) rest
        | .short cs => do readFront (← g.takeShort .front cs) rest
        | .plain =>
          match g.pending with
          | some ⟨flag, none⟩ => readFront { g with pending := some ⟨flag, some word⟩ } rest
          | _ => .error .unknownCommand

/-! ## The whole line -/

/-- A line that can be carried out. -/
structure Reading where
  verb : Verb
  words : List String
  /-- The settings, those behind the command first. -/
  settings : List Setting
  deriving DecidableEq, Repr

def read (line : List String) : Except Refusal Reading := do
  let front ← readFront .nothing line
  match front.rest with
  | some (verb, rest) =>
    let behind ← readBehind verb false .nothing rest
    if behind.words.length < verb.leastWords then .error .missingWord
    else
      let before ← front.gathered.settle
      return ⟨verb, behind.words, behind.settings ++ before.settings⟩
  | none =>
    let before ← front.gathered.settle
    .error (if before.settings.isEmpty then .empty else .missingCommand)

end RegistryCache.CommandLine
