import UriRouting.Template.Tree
import UriRouting.Pattern
/-!
# The pattern of a template

A request is tested as one text: its host, a separator, and its path. The pattern of a template
matches the whole of such a text. Literals stand for themselves, a variable is a named group for one
or more characters of its side, and an optional segment is a group that may be left out. The host is
matched in any case, and a template without a host accepts every host.
-/

namespace UriRouting

/-- The two sides of a template. -/
inductive Side where
  | host
  | path
deriving DecidableEq

namespace Side

/-- The characters that the text of a variable cannot hold: a path variable stays in its segment, a
host variable in its label. -/
def forbids : Side → Char → Bool
  | .path, c => c == '/'
  | .host, c => c == '.' || c == '\x00'

/-- The pattern for the text of a variable. -/
def variablePattern : Side → List Char
  | .path => "[^/]+".toList
  | .host => "[^.\\x00]+".toList

end Side

namespace Tree

mutual

/-- The pattern of a tree. -/
def patternChars (side : Side) : Tree → List Char
  | .sequence parts => patternCharsOf side parts
  | .literal text => Pattern.escape text.toList
  | .variable name _ _ => "(?P<".toList ++ name.toList ++ '>' :: side.variablePattern ++ [')']
  | .optional parts => "(?:".toList ++ patternCharsOf side parts ++ [')', '?']

/-- The pattern of parts one after another. -/
def patternCharsOf (side : Side) : List Tree → List Char
  | [] => []
  | part :: parts => patternChars side part ++ patternCharsOf side parts

end

end Tree

namespace Template

/-- The character between host and path. -/
def separator : Char := '\x00'

/-- The pattern of the host. -/
def hostPattern : Option Tree → List Char
  | some host => "(?i:".toList ++ host.patternChars .host ++ [')']
  | none => "[^\\x00]*".toList

/-- The pattern of a path template and a host template. -/
def patternSource (path : Tree) (host : Option Tree) : String :=
  String.ofList ('^' :: hostPattern host ++ "\\x00".toList ++ path.patternChars .path ++ ['$'])

/-- A path without the slashes in front. -/
def stripSlashes (path : String) : String :=
  String.ofList (path.toList.dropWhile (· == '/'))

/-- A path without a slash in front is left as it is. -/
theorem stripSlashes_eq_self {path : String} (h : path.toList.head? ≠ some '/') :
    stripSlashes path = path := by
  rw [stripSlashes]
  cases hpath : path.toList with
  | nil => rw [List.dropWhile_nil, ← hpath, String.ofList_toList]
  | cons c cs =>
    have hc : ¬ (c == '/') = true := by simpa [hpath] using h
    rw [List.dropWhile_cons, if_neg hc, ← hpath, String.ofList_toList]

/-- Of a path with one slash in front the rest is left. -/
theorem stripSlashes_append {text : String} (h : text.toList.head? ≠ some '/') :
    stripSlashes ("/" ++ text) = text := by
  have hstrip : stripSlashes ("/" ++ text) = stripSlashes text := by
    rw [stripSlashes, String.toList_append, show "/".toList = ['/'] from rfl, List.singleton_append,
      List.dropWhile_cons_of_pos rfl, stripSlashes]
  rw [hstrip, stripSlashes_eq_self h]

/-- The text that a request is tested as. -/
def subject (host path : String) : String :=
  host ++ separator.toString ++ stripSlashes path

theorem toList_subject (host path : String) :
    (subject host path).toList = host.toList ++ separator :: (stripSlashes path).toList := by
  rw [subject, String.toList_append, String.toList_append, Char.toString_eq_singleton,
    String.toList_singleton, List.append_assoc, List.singleton_append]

end Template

end UriRouting
