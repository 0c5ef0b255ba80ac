import AccessPolicy.File
import AccessPolicy.Json.Reader
import AccessPolicy.Request

/-! Entities: subjects and resources that are described by JSON documents. -/

namespace AccessPolicy

open Json (Reader)

/-- A subject or resource. Every field may be absent from its description and is empty then. -/
structure Entity where
  id : String
  ownerId : String
  roles : List String
  tags : List String
  collaborators : List String
  attributes : KeyMap Json

namespace Entity

/-- An entity of which nothing is known. -/
def empty : Entity := ⟨"", "", [], [], [], .empty⟩

instance : Inhabited Entity := ⟨empty⟩

instance : RoleBearer Entity := ⟨roles⟩

instance : Identifiable Entity String := ⟨id⟩

instance : Ownable Entity String := ⟨ownerId⟩

instance : Attributable Entity Json := ⟨fun e key => e.attributes.get? key⟩

/-- An entity is a record of its fields; its owner may be spelt in two ways. -/
def reader : Reader Entity :=
  .record "struct Entity"
    [.of "id" .string fun id e => { e with id },
      (Reader.Field.of "owner_id" .string fun ownerId e => { e with ownerId }).withAlias "ownerId",
      .of "roles" (.list .string) fun roles e => { e with roles },
      .of "tags" (.list .string) fun tags e => { e with tags },
      .of "collaborators" (.list .string) fun collaborators e => { e with collaborators },
      .of "attributes" (.keyMap .any) fun attributes e => { e with attributes }]
    empty

end Entity

/-- Why an entity cannot be loaded from a file. -/
inductive EntityError where
  | file (error : FileError)
  | invalid (path : String) (error : Json.ReadError)
deriving Repr

/-- What the user is told about an error. -/
def EntityError.message : EntityError → String
  | file error => error.message
  | invalid path error => s!"invalid entity in {path}: {error.message}"

/-- The entity in the file at `path`, which holds a JSON text. -/
def Entity.load (files : Files) (path : String) : Except EntityError Entity := do
  let text ← (files path).read.mapError .file
  (reader.parse text).mapError (.invalid path)

end AccessPolicy
