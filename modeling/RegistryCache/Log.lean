/-! # Notices and how they are printed

The cache reports what it does as `Notice`s, which say how important a message is and which part of
the program speaks.  How chatty the program is decides only which of them become lines:
`Notice.lines` turns one into what is printed, on which of the two output streams.
-/

namespace RegistryCache

/-- How important a message is, and with it how it is marked. -/
inductive Level where
  | section | debug | verbose | detail | info | success | warning | error
  deriving DecidableEq, Repr

/-- How chatty the program is.  Being quiet wins over being verbose. -/
structure Verbosity where
  verbose : Bool
  quiet : Bool
  deriving DecidableEq, Repr

namespace Verbosity

def silent : Verbosity := ⟨false, true⟩

def normal : Verbosity := ⟨false, false⟩

def full : Verbosity := ⟨true, false⟩

end Verbosity

/-- The two places that a line can go to. -/
inductive Stream where
  | out | err
  deriving DecidableEq, Repr

/-- Printed text; a line break follows it. -/
structure Line where
  stream : Stream
  text : String
  deriving DecidableEq, Repr

/-- A message, and the part of the program that it comes from where that is said. -/
structure Notice where
  level : Level
  component : Option String
  text : String
  deriving DecidableEq, Repr

namespace Notice

/-- The message with its component in front. -/
def body (n : Notice) : String :=
  match n.component with
  | some component => s!"[{component}] {n.text}"
  | none => n.text

/-- Whether a message of this level is printed. -/
def shownAt (v : Verbosity) : Level → Bool
  | .debug | .verbose | .detail => v.verbose && !v.quiet
  | .section | .info | .success | .warning => !v.quiet
  | .error => true

/-- The text that is printed for the message. -/
def line (n : Notice) : Line :=
  match n.level with
  | .section => ⟨.out, s!"\n=== {n.text} ==="⟩
  | .debug => ⟨.out, s!"🐛 DEBUG: {n.body}"⟩
  | .verbose => ⟨.out, s!"📝 {n.body}"⟩
  | .detail => ⟨.out, s!"   {n.body}"⟩
  | .info => ⟨.out, s!"ℹ️  {n.body}"⟩
  | .success => ⟨.out, s!"✅ {n.body}"⟩
  | .warning => ⟨.out, s!"⚠️  WARNING: {n.body}"⟩
  | .error => ⟨.err, s!"❌ ERROR: {n.body}"⟩

/-- What is printed for the message: its line, or nothing. -/
def lines (v : Verbosity) (n : Notice) : List Line :=
  if shownAt v n.level then [n.line] else []

end Notice

/-! ## Output of a whole run -/

/-- What a run prints: notices, which the verbosity filters, and results, which it does not. -/
inductive Output where
  | notice (n : Notice)
  | result (text : String)
  deriving DecidableEq, Repr

/-- What is printed for one output. -/
def Output.lines (v : Verbosity) : Output → List Line
  | .notice n => n.lines v
  | .result text => [⟨.out, text⟩]

/-- The text that reaches one of the streams, every line with its break. -/
def Line.transcript (stream : Stream) (lines : List Line) : String :=
  String.join ((lines.filter (·.stream = stream)).map fun line => line.text ++ "\n")

end RegistryCache
