/-! Files as a command sees them. -/

namespace ApiTypes

/-- What is found at a path. -/
inductive FileContent where
  | absent
  /-- There is something that cannot be read as text. -/
  | unreadable (reason : String)
  | text (content : String)

/-- The path of a file within a folder, as the names on the way to it. -/
abbrev Place := List String

/-- Where a path leads, seen from a folder. -/
inductive Target where
  /-- Somewhere in the folder. -/
  | within (place : Place)
  /-- To a folder that this one is in. -/
  | above
  /-- To a device that is always empty and keeps nothing. -/
  | sink
  /-- To nothing that is known. -/
  | nowhere

/-- A folder held in memory: the texts of its files, by their paths. -/
structure Folder where
  files : List (Place × String)

namespace Folder

/-- The text of a file. -/
def file? (folder : Folder) (place : Place) : Option String := folder.files.lookup place

/-- Whether a place is a folder: the whole one, or one that a file is in. -/
def isFolder (folder : Folder) (place : Place) : Bool :=
  place.isEmpty || folder.files.any fun (path, _) => place.isPrefixOf path && place != path

/-- How many bytes a name may have. -/
def nameLimit : Nat := 255

/-- Where the steps of a path lead. Every step but the last one has to lead to a folder. -/
def follow (folder : Folder) : Target → List String → Target
  | target, [] => target
  | .above, name :: rest =>
    if name.isEmpty || name == "." || name == ".." then folder.follow .above rest else .nowhere
  | .within place, name :: rest =>
    if !folder.isFolder place || nameLimit < name.utf8ByteSize then .nowhere
    else if name.isEmpty || name == "." then folder.follow (.within place) rest
    else if name != ".." then folder.follow (.within (place ++ [name])) rest
    else if place.isEmpty then folder.follow .above rest
    else folder.follow (.within place.dropLast) rest
  | target, _ :: _ => target

/-- Where a path leads; one from the root begins above the whole folder. -/
def locate (folder : Folder) (path : String) : Target :=
  if path.isEmpty then .nowhere
  else if path == "/dev/null" then .sink
  else folder.follow (if path.startsWith "/" then .above else .within []) (path.splitOn "/")

/-- Why a folder cannot be read or written like a file. -/
def isFolderReason : String := "Is a directory (os error 21)"

/-- Why a file cannot be written in a folder that does not exist. -/
def isMissingReason : String := "No such file or directory (os error 2)"

/-- What is found where a path leads. -/
def look (folder : Folder) (path : String) : FileContent :=
  match folder.locate path with
  | .nowhere => .absent
  | .above => .unreadable isFolderReason
  | .sink => .text ""
  | .within place =>
    if folder.isFolder place then .unreadable isFolderReason
    else match folder.file? place with
      | some content => .text content
      | none => .absent

/-- The folder with a text where a path leads, or the reason why it cannot be there. -/
def write (folder : Folder) (path content : String) : Except String Folder :=
  match folder.locate path with
  | .nowhere => .error isMissingReason
  | .above => .error isFolderReason
  | .sink => .ok folder
  | .within place =>
    if folder.isFolder place then .error isFolderReason
    else if folder.files.any fun (found, _) => found == place then
      .ok ⟨folder.files.map fun (found, old) => (found, if found == place then content else old)⟩
    else .ok ⟨folder.files ++ [(place, content)]⟩

/-- The files that are new or differ from those before. -/
def changesSince (folder before : Folder) : List (Place × String) :=
  folder.files.filter fun (place, content) => before.file? place != some content

end Folder

end ApiTypes
