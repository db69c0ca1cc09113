import RegistryCache.Text.Basic

/-! # Links to the next page

A listing that goes on names its next page in a list of links.  Commas separate links, semicolons
separate the target of a link from its parameters.  The first link that is marked as the next one and
whose target stands in angle brackets counts.
-/

namespace RegistryCache.Link

open Text (after? cut? pieces trim)

/-- The parameter that marks the next page, with quotes. -/
def quotedMark : List Char := ['r', 'e', 'l', '=', '"', 'n', 'e', 'x', 't', '"']

/-- The parameter that marks the next page, without quotes. -/
def plainMark : List Char := ['r', 'e', 'l', '=', 'n', 'e', 'x', 't']

/-- Whether a parameter marks the next page: with quotes, blanks inside do not count. -/
def marksNext (parameter : List Char) : Bool :=
  (trim parameter).filter (· ≠ ' ') == quotedMark || trim parameter == plainMark

/-- What stands between angle brackets. -/
def bracketed? (cs : List Char) : Option (List Char) :=
  match after? ['<'] cs with
  | some rest => if rest.getLast? = some '>' then some rest.dropLast else none
  | none => none

/-- The target of a link that is marked as the next page. -/
def target? (link : List Char) : Option (List Char) :=
  match cut? ';' link with
  | some (target, params) =>
    if (pieces ';' params).any marksNext then bracketed? (trim target) else none
  | none => none

/-- The target of the first link that is marked as the next page. -/
def next? (header : String) : Option String :=
  ((pieces ',' header.toList).findSome? target?).map String.ofList

end RegistryCache.Link
