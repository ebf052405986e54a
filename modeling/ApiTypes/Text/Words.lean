import ApiTypes.Text.Case

/-! Splitting a text into words at separators and at changes of case, and joining them again. -/

namespace ApiTypes.Text

/-- The runs between characters that fail a condition; `run` is the current one in reverse. -/
def runsFrom (keep : Char → Bool) (run : List Char) : List Char → List (List Char)
  | [] => [run.reverse]
  | char :: rest =>
    if keep char then runsFrom keep (char :: run) rest
    else run.reverse :: runsFrom keep [] rest

/-- The runs between characters that fail a condition, the empty ones included. -/
def runs (keep : Char → Bool) (text : List Char) : List (List Char) := runsFrom keep [] text

/-- The case last shown by the letters of the current word. -/
inductive CaseMode where
  | undecided
  | lower
  | upper
deriving DecidableEq

/-- The case shown once a character is read; a character without case changes nothing. -/
def CaseMode.after (mode : CaseMode) (char : Char) : CaseMode :=
  if isLowercase char then .lower else if isUppercase char then .upper else mode

/--
Splits a run of letters and digits into words. A word ends before an upper-case letter that
follows lower case, and before the last of several upper-case letters that lower case follows.
The word read so far is held in reverse.
-/
def splitCase (mode : CaseMode) (word : List Char) : List Char → List (List Char)
  | [] => []
  | [char] => [(char :: word).reverse]
  | char :: next :: rest =>
    if mode.after char = .lower && isUppercase next then
      (char :: word).reverse :: splitCase .undecided [] (next :: rest)
    else if mode = .upper && isUppercase char && isLowercase next then
      word.reverse :: splitCase .undecided [char] (next :: rest)
    else splitCase (mode.after char) (char :: word) (next :: rest)

/-- The words of a text. -/
def words (text : List Char) : List (List Char) :=
  (runs isAlphanumeric text).flatMap (splitCase .undecided [])

/-- The words with capitals, without a separator. -/
def pascalCase (text : List Char) : List Char := (words text).flatMap capitalize

/-- The words with capitals but for the first, without a separator. -/
def camelCase (text : List Char) : List Char :=
  match words text with
  | [] => []
  | first :: rest => lower first ++ rest.flatMap capitalize

/-- The words in lower case, separated by underscores. -/
def snakeCase (text : List Char) : List Char := ['_'].intercalate ((words text).map lower)

/-- The words in upper case, separated by underscores. -/
def screamingCase (text : List Char) : List Char := ['_'].intercalate ((words text).map upper)

end ApiTypes.Text
