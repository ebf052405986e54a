import ApiTypes.Text.Words

/-! Names of operations derived from their method and path. -/

namespace ApiTypes

namespace Route

/-- Whether a path segment is a parameter in braces. -/
def isParameter (segment : List Char) : Bool :=
  segment.head? == some '\x7b' && segment.getLast? == some '\x7d'

/-- The verb for a method in upper case; a path that ends in a parameter names a single thing. -/
def verb (method : String) (single : Bool) : String :=
  match method with
  | "GET" => if single then "get" else "list"
  | "POST" => "create"
  | "PUT" => "update"
  | "DELETE" => "delete"
  | "PATCH" => "patch"
  | "OPTIONS" => "options"
  | "HEAD" => "head"
  | "TRACE" => "trace"
  | other => other

/-- The singular of a word by its ending. -/
def singular (word : List Char) : List Char :=
  let endsWith (ending : String) : Bool := ending.toList.isSuffixOf word
  if endsWith "ies" && 3 < word.length then word.dropLast.dropLast.dropLast ++ ['y']
  else if endsWith "ses" || endsWith "xes" || endsWith "zes" then word.dropLast.dropLast
  else if endsWith "s" && !endsWith "ss" && 1 < word.length then word.dropLast
  else word

/-- Capitalises the parts, the last one in the singular if the path names a single thing. -/
def resource (single : Bool) : List (List Char) → List Char
  | [] => []
  | [last] => Text.pascalCase (if single then singular last else last)
  | part :: rest => Text.pascalCase part ++ resource single rest

end Route

/-- The operation name for a method and a path, such as `listUsers` for `GET /users`. -/
def routeName (method path : String) : String :=
  let segments := (Text.runs (· != '/') path.toList).filter fun segment => !segment.isEmpty
  let single := segments.getLast?.any Route.isParameter
  let parts := segments.filter fun segment => !Route.isParameter segment
  let verb := Route.verb (String.ofList (Text.upper method.toList)) single
  verb ++ String.ofList (Route.resource single parts)

end ApiTypes
