import UriRouting.Pattern.Reading
import UriRouting.Pattern.Walk
/-!
# Patterns

A pattern is kept with the text that it was read from, which is also how it is stored and compared.
It is searched for anywhere in a text; of all matches the leftmost counts, and among those the
preferred one.
-/

namespace UriRouting

/-- A pattern together with its text. -/
structure Pattern where
  /-- The text of the pattern. -/
  source : String
  /-- The pattern that the text stands for. -/
  node : Pattern.Node

namespace Pattern

/-- Reads a pattern. -/
def ofSource (source : String) : Except PatternFault Pattern :=
  (Node.parse source).map fun node => ⟨source, node⟩

/-- Whether the pattern matches somewhere in a text. -/
def matchesIn (pattern : Pattern) (text : String) : Bool :=
  (pattern.node.network.firstWalk? text.toList.toArray).isSome

/-- The characters of a text between two places. -/
def slice (text : Array Char) (start stop : Nat) : String :=
  String.ofList (text.extract start stop).toList

/-- What the groups of a match captured. -/
structure Captures where
  /-- The text that was searched. -/
  text : Array Char
  /-- The spans of the match, the latest first. -/
  spans : List Span

/-- The text that a group captured last, if it took part in the match. -/
def Captures.get? (captures : Captures) (name : String) : Option String :=
  (captures.spans.find? (·.name == name)).map fun span =>
    slice captures.text span.start span.stop

/-- The captures of the leftmost match in a text, if there is one. -/
def search (pattern : Pattern) (text : String) : Option Captures :=
  let chars := text.toList.toArray
  (pattern.node.network.firstWalk? chars).map fun walk => ⟨chars, walk.spans⟩

/-- The characters that have a meaning of their own in a pattern. -/
def isMeta (c : Char) : Bool :=
  "\\.+*?()|[]\x7b\x7d^$#&-~".contains c

/-- A text written as a pattern that matches just this text. -/
def escape (cs : List Char) : List Char :=
  cs.flatMap fun c => if isMeta c then ['\\', c] else [c]

end Pattern

end UriRouting
