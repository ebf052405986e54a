import ApiTypes.Synthesis

/-! A short summary of what is derived from a document. -/

namespace ApiTypes

namespace Output

/-- The diagnostics of a severity. -/
def count (output : Output) (severity : Severity) : Nat :=
  (output.diagnostics.filter fun diagnostic => diagnostic.cause.severity = severity).length

/-- The declarations with their kinds and the names they mention, the operations, and how many
diagnostics there are; all members in the order of their names. -/
def summary (output : Output) : Data :=
  let declaration (found : Declaration) : Data :=
    .record
      [("kind", .text found.shape.label), ("name", .text found.name),
        ("references", Data.texts found.mentions)]
  let operation (found : OperationBinding) : Data :=
    .record
      [("method", .text found.method.name), ("name", .text found.name.camel),
        ("path", .text found.path)]
  .record
    [("declarations", .list (output.declarations.map declaration)),
      ("diagnostics", .record
        [("errors", Data.natural (output.count .error)),
          ("infos", Data.natural (output.count .info)),
          ("warnings", Data.natural (output.count .warning))]),
      ("names", Data.sortedRecord
        (output.names.entries.map fun (name, emitted) => (name, .text emitted))),
      ("operations", .list (output.operations.map operation)),
      ("version", .text output.version.name)]

end Output

end ApiTypes
