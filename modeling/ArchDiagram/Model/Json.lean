import ArchDiagram.Model
import ArchDiagram.Json.Value

/-!
The object model as a JSON value. Nothing is left out: what is unknown is `null`, and what there is
none of is an empty collection. Entities are the entries of an object, in the order of their map.
-/

namespace ArchDiagram.Model

def textsJson (texts : List String) : Json.Value := .list (texts.map .text)

def stylesJson (styles : OrderedMap String) : Json.Value :=
  .object (styles.entries.map fun (key, value) => (key, .text value))

def placeJson : Option Place → Json.Value
  | some place => .object [("x", .number place.x), ("y", .number place.y)]
  | none => .null

def Field.json (field : Field) : Json.Value :=
  .object [
    ("name", .text field.name),
    ("type", .text field.type),
    ("visibility", .text field.visibility.word),
    ("is_static", .boolean field.isStatic),
    ("is_final", .boolean field.isFinal),
    ("default_value", .ofText? field.defaultValue)]

def Param.json (param : Param) : Json.Value :=
  .object [("name", .text param.name), ("type", .text param.type)]

def Method.json (method : Method) : Json.Value :=
  .object [
    ("name", .text method.name),
    ("params", .list (method.params.map Param.json)),
    ("return_type", .text method.returnType),
    ("visibility", .text method.visibility.word),
    ("is_static", .boolean method.isStatic),
    ("is_abstract", .boolean method.isAbstract)]

def Entity.json (entity : Entity) : Json.Value :=
  .object [
    ("id", .text entity.id),
    ("name", .text entity.name),
    ("kind", .text entity.kind.word),
    ("stereotype", .ofText? entity.stereotype),
    ("is_abstract", .boolean entity.isAbstract),
    ("package", .ofText? entity.package),
    ("fields", .list (entity.fields.map Field.json)),
    ("methods", .list (entity.methods.map Method.json)),
    ("enum_values", .list (entity.values.map fun value => .object [("name", .text value.name)])),
    ("extends_names", textsJson entity.extendsNames),
    ("implements_names", textsJson entity.implementsNames),
    ("position", placeJson entity.place),
    ("styles", stylesJson entity.styles),
    ("note", .ofText? entity.note)]

def Relation.json (relation : Relation) : Json.Value :=
  .object [
    ("id", .text relation.id),
    ("from", .text relation.source),
    ("to", .text relation.target),
    ("kind", .text relation.kind.word),
    ("is_reversed", .boolean relation.isReversed),
    ("label", .ofText? relation.label),
    ("from_mult", .ofText? relation.sourceMultiplicity),
    ("to_mult", .ofText? relation.targetMultiplicity),
    ("styles", stylesJson relation.styles)]

mutual

def Package.json : Package → Json.Value
  | .mk name entityNames subPackages =>
    .object [
      ("name", .text name),
      ("entity_names", textsJson entityNames),
      ("sub_packages", .list (packagesJson subPackages))]

def packagesJson : List Package → List Json.Value
  | [] => []
  | package :: rest => package.json :: packagesJson rest

end

def Note.json (note : Note) : Json.Value :=
  .object [("text", .text note.text), ("on_entity", .ofText? note.target)]

def Diagram.json (diagram : Diagram) : Json.Value :=
  .object [
    ("name", .text diagram.name),
    ("kind", .text diagram.kind.word),
    ("entities", .object (diagram.entities.entries.map fun (key, entity) => (key, entity.json))),
    ("relations", .list (diagram.relations.map Relation.json)),
    ("packages", .list (packagesJson diagram.packages)),
    ("notes", .list (diagram.notes.map Note.json))]

end ArchDiagram.Model

namespace ArchDiagram

def Model.json (model : Model) : Json.Value :=
  .object [("diagrams", .list (model.diagrams.map Model.Diagram.json))]

end ArchDiagram
