import ApiTypes.Text.Words

/-! Names in their casings, and the identifiers that declared types may take. -/

namespace ApiTypes

/-- A name of the document together with its casings. -/
structure CasedName where
  /-- The name as the document gives it. -/
  given : String
  pascal : String
  camel : String
  snake : String
  screaming : String
deriving DecidableEq, Inhabited

namespace CasedName

/-- Letters and digits of a name, with an underscore for every stretch between two of them. -/
def joinRuns : Bool → List Char → List Char
  | _, [] => []
  | separated, char :: rest =>
    if Text.isAlphanumeric char then
      if separated then '_' :: char :: joinRuns false rest else char :: joinRuns false rest
    else joinRuns true rest

/-- The text whose words make up the casings: a leading digit and an empty name are patched. -/
def wordSource (name : List Char) : List Char :=
  match joinRuns false (name.dropWhile fun char => !Text.isAlphanumeric char) with
  | [] => "unnamed".toList
  | joined =>
    if name.head?.any fun char => char.isDigit then '_' :: joined else joined

/-- All casings of a name. -/
def of (given : String) : CasedName :=
  let source := wordSource given.toList
  { given
    pascal := String.ofList (Text.pascalCase source)
    camel := String.ofList (Text.camelCase source)
    snake := String.ofList (Text.snakeCase source)
    screaming := String.ofList (Text.screamingCase source) }

end CasedName

/-- Identifiers that clash with the built-in names of common target languages. -/
def reservedTypeNames : List String :=
  ["Any", "Array", "Box", "Err", "False", "Map", "Never", "None", "Null", "Object", "Ok", "Option",
    "Promise", "Record", "Result", "Self", "Some", "String", "True", "Type", "Unknown", "Vec"]

/-- Whether a character may stand in the name of a type. -/
def isTypeNameChar (char : Char) : Bool := char.isAlphanum || char == '_'

/--
The type name for a candidate: its capitalised words without foreign characters, with an underscore
before a leading digit and after a reserved name.
-/
def typeName (reserved : List String) (candidate : String) : String :=
  let kept := (CasedName.of candidate).pascal.toList.filter isTypeNameChar
  let named := if kept.isEmpty then "Unnamed".toList else kept
  let headed := if named.head?.any fun char => char.isDigit then '_' :: named else named
  let name := String.ofList headed
  if reservedTypeNames.contains name || reserved.contains name then name ++ "_" else name

end ApiTypes
