import ModelScopes.Codec.Record
import ModelScopes.Model.Basic

/-!
# Models as data

How values, bindings and models are written and taken. A value is an object with its kind as a tag beside its
field, or an array of the kind and the field. Since the tag may stand anywhere, the rest of the object is set aside
until the tag is known: it has to be readable as a whole, and its faults come after all faults of the object itself.
-/

namespace ModelScopes

namespace Value

/-- The kinds of values. -/
inductive Kind where
  | simple
  | component
  | manyToOne
  deriving DecidableEq, Repr

/-- The kinds with their tags. -/
def kinds : List (String × Kind) :=
  [("simple", .simple), ("component", .component), ("many_to_one", .manyToOne)]

/-- The member that holds the tag. -/
def tagField : String :=
  "kind"

/-- The one field of each kind of value, with the title under which messages know it. -/
def shape : Kind → Shape String
  | .simple => ⟨"struct SimpleValue", [.needed "type_name" .string id (fun s _ => s)], "", false⟩
  | .component =>
    ⟨"struct variant Value::Component", [.needed "class_name" .string id (fun s _ => s)], "", false⟩
  | .manyToOne =>
    ⟨"struct variant Value::ManyToOne", [.needed "referenced_entity" .string id (fun s _ => s)], "", false⟩

/-- The value of a kind. -/
def ofKind : Kind → String → Value
  | .simple => simple
  | .component => component
  | .manyToOne => manyToOne

/-- Takes the value from its content once its kind is known. -/
def decodeContent (frame : Frame) (kind : Kind) (content : Data) : Except Fault Value :=
  ((shape kind).decode { frame with dialect := .setAside } content).map (ofKind kind)

/-- The kind that a tag names. -/
def decodeTag (frame : Frame) (d : Data) : Except Fault Kind :=
  match d with
  | .string name => Codec.variantNamed kinds name
  | d => .error (d.mismatch frame "variant identifier")

/-- Looks for the tag among the members and sets the other members aside, in order. -/
def splitTag (frame : Frame) (tag : Option Kind) (aside : List (Option String × Data)) :
    List (Option String × Data) → Except Fault (Option Kind × List (Option String × Data))
  | [] => .ok (tag, aside.reverse)
  | (some name, d) :: rest =>
    if name = tagField then
      if tag.isSome then .error (.duplicateField tagField)
      else
        match decodeTag frame d with
        | .ok k => splitTag frame (some k) aside rest
        | .error e => .error e
    else if d.isReadable (maxDepth - frame.depth) then splitTag frame tag ((some name, d) :: aside) rest
    else .error .malformed
  | (none, _) :: _ => .error .malformed

/-- Takes a value from data. -/
def decode (frame : Frame) (d : Data) : Except Fault Value :=
  match d with
  | .list [] => .error (.missingField tagField)
  | .list (tag :: rest) =>
    match decodeTag frame.inner tag with
    | .error e => .error e
    | .ok kind =>
      if Data.allReadable (maxDepth - frame.inner.depth) rest then decodeContent frame kind (.list rest)
      else .error .malformed
  | .record members =>
    match splitTag frame.inner none [] members with
    | .error e => .error e
    | .ok (none, _) => .error (.missingField tagField)
    | .ok (some kind, content) => decodeContent frame kind (.record content)
  | d => .error (d.mismatch frame "internally tagged enum Value")

/-- Values, tagged with their kind. -/
def codec : Codec Value where
  encode
    | simple t => .record [(tagField, .string "simple"), ("type_name", .string t)]
    | component c => .record [(tagField, .string "component"), ("class_name", .string c)]
    | manyToOne e => .record [(tagField, .string "many_to_one"), ("referenced_entity", .string e)]
  decode := decode

end Value

/-- Properties as records. -/
def Property.shape : Shape Property where
  title := "struct PropertyBinding"
  fields :=
    [.needed "name" .string (·.name) (fun x p => { p with name := x }),
     .needed "value" Value.codec (·.value) (fun x p => { p with value := x })]
  blank := default
  openEnded := false

/-- Entities as records. -/
def Entity.shape : Shape Entity where
  title := "struct EntityBinding"
  fields :=
    [.needed "entity_name" .string (·.name) (fun x e => { e with name := x }),
     .optional "superclass" (.option .string) (·.superclass) (fun x e => { e with superclass := x }),
     .needed "properties" (.list Property.shape.codec) (·.properties) (fun x e => { e with properties := x }),
     .needed "cached" .bool (·.cached) (fun x e => { e with cached := x }),
     .optional "cache_concurrency_strategy" (.option .string) (·.strategy) (fun x e => { e with strategy := x })]
  blank := ⟨"", none, [], false, none⟩
  openEnded := false

/-- Collections as records. -/
def Collection.shape : Shape Collection where
  title := "struct CollectionBinding"
  fields :=
    [.needed "role" .string (·.role) (fun x c => { c with role := x }),
     .needed "element" Value.codec (·.element) (fun x c => { c with element := x }),
     .optional "cache_concurrency_strategy" (.option .string) (·.strategy) (fun x c => { c with strategy := x })]
  blank := ⟨"", .simple "", none⟩
  openEnded := false

/-- Models as records. -/
def Model.shape : Shape Model where
  title := "struct DomainModel"
  fields :=
    [.needed "id" .uuid (·.id) (fun x m => { m with id := x }),
     .needed "entity_bindings" (.orderedMap Entity.shape.codec) (·.entities) (fun x m => { m with entities := x }),
     .needed "collection_bindings" (.orderedMap Collection.shape.codec) (·.collections)
       (fun x m => { m with collections := x }),
     .needed "imports" (.orderedMap .string) (·.imports) (fun x m => { m with imports := x })]
  blank := .empty (.ofSerial 0)
  openEnded := false

end ModelScopes
