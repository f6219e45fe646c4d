/-!
# Universally unique identifiers

An identifier is written with 32 hexadecimal digits, or with hyphens in groups of 8, 4, 4, 4 and 12.
The hyphenated form may stand in braces or after `urn:uuid:`, whose letters may have any case. The
thirteenth digit is the version.
-/

namespace UriRouting.Text

/-- Whether a character is a hexadecimal digit. -/
def isHexDigit (c : Char) : Bool :=
  c.isDigit || ('a' ≤ c && c ≤ 'f') || ('A' ≤ c && c ≤ 'F')

/-- Joins groups of the given sizes that have a hyphen between each two of them. -/
def joinGroups : List Nat → List Char → Option (List Char)
  | [], _ => none
  | [size], cs => if cs.length = size then some cs else none
  | size :: sizes, cs =>
    match cs.drop size with
    | '-' :: rest => (joinGroups sizes rest).map (cs.take size ++ ·)
    | _ => none

/-- The digits of the hyphenated form. -/
def hyphenatedDigits (cs : List Char) : Option (List Char) :=
  joinGroups [8, 4, 4, 4, 12] cs

/-- The prefix of the form as a resource name. -/
def uuidUrn : List Char :=
  "urn:uuid:".toList

/-- The digits of an identifier in any of its forms. -/
def uuidDigits (cs : List Char) : Option (List Char) :=
  let digits :=
    if cs.length = 32 then some cs
    else if cs.head? = some '\x7b' && cs.getLast? = some '\x7d' then
      hyphenatedDigits (cs.drop 1).dropLast
    else if (cs.take uuidUrn.length).map Char.toLower = uuidUrn then
      hyphenatedDigits (cs.drop uuidUrn.length)
    else hyphenatedDigits cs
  digits.filter (·.all isHexDigit)

/-- Whether a text is an identifier of version 4. -/
def isUuidVersion4 (cs : List Char) : Bool :=
  (uuidDigits cs).any fun digits => digits[12]? == some '4'

end UriRouting.Text
