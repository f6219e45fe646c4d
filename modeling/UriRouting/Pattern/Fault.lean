/-!
# Why a text is no pattern
-/

namespace UriRouting.Pattern

/-- Why a text is no pattern. -/
inductive PatternFault where
  | danglingEscape
  | unknownEscape
  | backreference
  | badCodePoint
  | badWordBoundary
  | unclosedClass
  | badClassRange
  | badClassEscape
  | unclosedGroup
  | unopenedGroup
  | badGroupName
  | duplicateGroupName
  | badFlags
  | lookAround
  | nothingToRepeat
  | badCount
  | tooDeep
  | tooBig
deriving DecidableEq

/-- The greatest size of a pattern, in bytes. -/
def maxSize : Nat := 10485760

/-- What is wrong with the text of a pattern. A pattern that is too big has a text with nothing wrong
in it. -/
def PatternFault.inText? : PatternFault → Option String
  | .danglingEscape => some "incomplete escape sequence"
  | .unknownEscape => some "unrecognized escape sequence"
  | .backreference => some "backreferences are not supported"
  | .badCodePoint => some "invalid hexadecimal code point"
  | .badWordBoundary => some "unrecognized word boundary assertion"
  | .unclosedClass => some "unclosed character class"
  | .badClassRange => some "invalid character class range"
  | .badClassEscape => some "invalid escape sequence in character class"
  | .unclosedGroup => some "unclosed group"
  | .unopenedGroup => some "unopened group"
  | .badGroupName => some "invalid capture group name"
  | .duplicateGroupName => some "duplicate capture group name"
  | .badFlags => some "invalid flags"
  | .lookAround => some "look-around is not supported"
  | .nothingToRepeat => some "repetition operator missing expression"
  | .badCount => some "invalid repetition count"
  | .tooDeep => some "exceeded the maximum nesting depth"
  | .tooBig => none

/-- The fault in words. -/
def PatternFault.message (fault : PatternFault) : String :=
  match fault.inText? with
  | some words => "regex parse error: " ++ words
  | none => s!"Compiled regex exceeds size limit of {maxSize} bytes."

end UriRouting.Pattern
