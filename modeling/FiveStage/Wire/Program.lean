import FiveStage.Json.Record
import FiveStage.Store.Basic

namespace FiveStage

namespace Program

def toJson (program : Program) : Json :=
  .object [
    ("id", .ofNat program.id),
    ("title", .string program.title),
    ("assemblyText", .string program.source),
    ("createdAt", .ofNat program.createdAt),
    ("updatedAt", .ofNat program.updatedAt)]

def ofJson? (document : Json) : Option Program := do
  let record ← Json.Record.ofJson?
    ["id", "title", "assemblyText", "createdAt", "updatedAt"] document
  let id ← record.required "id" Json.nat?
  let title ← record.required "title" Json.string?
  let source ← record.required "assemblyText" Json.string?
  let createdAt ← record.required "createdAt" Json.nat?
  let updatedAt ← record.required "updatedAt" Json.nat?
  return { id, title, source, createdAt, updatedAt }

end Program

namespace ProgramEdit

-- Fields that stay as they are are left out.
def toJson (edit : ProgramEdit) : Json :=
  .object (
    Json.optionalMember "title" Json.string edit.title ++
    Json.optionalMember "assemblyText" Json.string edit.source)

def ofJson? (document : Json) : Option ProgramEdit := do
  let record ← Json.Record.ofJson? ["title", "assemblyText"] document
  let title ← record.orElse "title" none (Json.Record.nullable Json.string?)
  let source ← record.orElse "assemblyText" none (Json.Record.nullable Json.string?)
  return { title, source }

end ProgramEdit

end FiveStage
