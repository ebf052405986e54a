/-! Tokens of JSON pointers, and the pointers of a document's components. -/

namespace ApiTypes.Pointer

/-- Escapes the two characters that have a meaning in pointers. -/
def escapeChars : List Char → List Char
  | [] => []
  | '~' :: rest => '~' :: '0' :: escapeChars rest
  | '/' :: rest => '~' :: '1' :: escapeChars rest
  | char :: rest => char :: escapeChars rest

/-- Reads the two escapes back; a tilde before anything else stands for itself. -/
def unescapeChars : List Char → List Char
  | [] => []
  | '~' :: '0' :: rest => '~' :: unescapeChars rest
  | '~' :: '1' :: rest => '/' :: unescapeChars rest
  | char :: rest => char :: unescapeChars rest

/-- A text as a single pointer token. -/
def escape (token : String) : String := String.ofList (escapeChars token.toList)

/-- The text behind a pointer token. -/
def unescape (token : String) : String := String.ofList (unescapeChars token.toList)

/-- What all pointers into one section of the components begin with. -/
def sectionPrefix (kind : String) : String := "#/components/" ++ kind ++ "/"

/-- The pointer of a component schema. -/
def ofSchema (name : String) : String := sectionPrefix "schemas" ++ escape name

/-- The rest of a text after a given beginning. -/
def after? : List Char → List Char → Option (List Char)
  | [], text => some text
  | _ :: _, [] => none
  | expected :: more, char :: rest => if expected = char then after? more rest else none

/-- The token of a pointer into a section of the components. -/
def token? (kind path : String) : Option (List Char) :=
  after? (sectionPrefix kind).toList path.toList

/-- The component schema that a pointer names: exactly one token below the section. -/
def schemaName? (path : String) : Option String :=
  match token? "schemas" path with
  | none => none
  | some token =>
    if token.isEmpty || token.contains '/' then none
    else some (String.ofList (unescapeChars token))

/-- The component that a pointer into a section names, whatever follows the section. -/
def componentName? (kind path : String) : Option String :=
  (token? kind path).map fun token => String.ofList (unescapeChars token)

end ApiTypes.Pointer
