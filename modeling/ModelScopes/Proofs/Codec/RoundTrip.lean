import ModelScopes.Extension.Config
import ModelScopes.Model.Codec
import ModelScopes.Proofs.Codec.Laws
import ModelScopes.Registry
import ModelScopes.Spec.Basic

/-!
# Values that their JSON texts give back

Every type that is written as JSON is taken back from its compact text as it was: all fields, what is absent, lists
and maps in their order, and identities. The main statement is `json_texts_restore`.
-/

namespace ModelScopes

/-! ## Values of properties -/

namespace Value

/-- The content of each kind is taken back as it was. -/
lemma shape_faithful (kind : Kind) : (shape kind).codec.Faithful := by
  apply Shape.faithful
  · cases kind <;> decide
  · intro s
    cases kind with
    | simple => exact .needed Codec.string_faithful .nil
    | component => exact .needed Codec.string_faithful .nil
    | manyToOne => exact .needed Codec.string_faithful .nil

/-- The content that is left beside the tag gives the value of its kind back. -/
lemma decodeContent_encode (frame : Frame) (kind : Kind) (s : String) :
    decodeContent frame kind ((shape kind).encode s).toData = .ok (ofKind kind s) := by
  have content : (shape kind).decode { frame with dialect := .setAside } ((shape kind).encode s).toData = .ok s :=
    shape_faithful kind _ s
  rw [decodeContent, content]
  rfl

/-- A tag that comes first leaves one readable text beside it. -/
lemma splitTag_head {name tag s : String} {kind : Kind} (frame : Frame) (other : name ≠ tagField)
    (named : Codec.variantNamed kinds tag = .ok kind) :
    splitTag frame none [] [(some tagField, .string tag), (some name, .string s)] =
      .ok (some kind, [(some name, .string s)]) := by
  have tagged : decodeTag frame (.string tag) = .ok kind := named
  rw [splitTag, if_pos rfl, tagged]
  simp only
  rw [splitTag, if_neg other]
  rfl

/-- A tag with one other member is taken for the kind that it names, with this member for content. -/
lemma decode_tagged {name tag s : String} {kind : Kind} (frame : Frame) (other : name ≠ tagField)
    (named : Codec.variantNamed kinds tag = .ok kind) :
    decode frame (.record [(some tagField, .string tag), (some name, .string s)]) =
      decodeContent frame kind (.record [(some name, .string s)]) := by
  rw [decode, splitTag_head frame.inner other named]

/-- Values are taken back as they were. -/
lemma faithful : codec.Faithful := by
  intro frame v
  cases v with
  | simple t =>
    have tag : Codec.variantNamed kinds "simple" = .ok .simple := rfl
    exact (decode_tagged frame (by decide) tag).trans (decodeContent_encode frame .simple t)
  | component c =>
    have tag : Codec.variantNamed kinds "component" = .ok .component := rfl
    exact (decode_tagged frame (by decide) tag).trans (decodeContent_encode frame .component c)
  | manyToOne e =>
    have tag : Codec.variantNamed kinds "many_to_one" = .ok .manyToOne := rfl
    exact (decode_tagged frame (by decide) tag).trans (decodeContent_encode frame .manyToOne e)

end Value

/-! ## Types of records -/

/-- A text that may be absent is taken back, also if it is. -/
lemma Codec.text_or_absent_faithful : (Codec.option Codec.string).Faithful :=
  string_faithful.option (fun _ => nofun)

/-- The fields of a property make it again from a blank one. -/
lemma Property.refills (v : Property) : Shape.Refills v shape.fields shape.blank :=
  .needed Codec.string_faithful <| .needed Value.faithful .nil

/-- Properties are taken back as they were. -/
lemma Property.faithful : Property.shape.codec.Faithful :=
  Shape.faithful (by decide) Property.refills

/-- The fields of an entity make it again from a blank one. -/
lemma Entity.refills (v : Entity) : Shape.Refills v shape.fields shape.blank :=
  .needed Codec.string_faithful <| .optional Codec.text_or_absent_faithful <| .needed Property.faithful.list <|
    .needed Codec.bool_faithful <| .optional Codec.text_or_absent_faithful .nil

/-- Entities are taken back as they were. -/
lemma Entity.faithful : Entity.shape.codec.Faithful :=
  Shape.faithful (by decide) Entity.refills

/-- The fields of a collection make it again from a blank one. -/
lemma Collection.refills (v : Collection) : Shape.Refills v shape.fields shape.blank :=
  .needed Codec.string_faithful <| .needed Value.faithful <| .optional Codec.text_or_absent_faithful .nil

/-- Collections are taken back as they were. -/
lemma Collection.faithful : Collection.shape.codec.Faithful :=
  Shape.faithful (by decide) Collection.refills

/-- The fields of a model make it again from a blank one. -/
lemma Model.refills (v : Model) : Shape.Refills v shape.fields shape.blank :=
  .needed Codec.uuid_faithful <| .needed Entity.faithful.orderedMap <| .needed Collection.faithful.orderedMap <|
    .needed Codec.string_faithful.orderedMap .nil

/-- Models are taken back as they were. -/
lemma Model.faithful : Model.shape.codec.Faithful :=
  Shape.faithful (by decide) Model.refills

/-- Class names are taken back as they were. -/
lemma ClassName.faithful : ClassName.codec.Faithful :=
  Codec.string_faithful.imap fun _ => rfl

/-- Bundles are taken back as they were. -/
lemma Bundle.faithful : Bundle.codec.Faithful :=
  Codec.enumeration_faithful fun b => by cases b <;> rfl

/-- The fields of a query import make it again from a blank one. -/
lemma QueryImport.refills (v : QueryImport) : Shape.Refills v shape.fields shape.blank :=
  .needed Codec.string_faithful <| .needed ClassName.faithful .nil

/-- Query imports are taken back as they were. -/
lemma QueryImport.faithful : QueryImport.shape.codec.Faithful :=
  Shape.faithful (by decide) QueryImport.refills

/-- The fields of a scope key make it again from a blank one. -/
lemma ScopeKey.refills (v : ScopeKey) : Shape.Refills v shape.fields shape.blank :=
  .needed Codec.string_faithful <| .needed Codec.string_faithful .nil

/-- Scope keys are taken back as they were. -/
lemma ScopeKey.faithful : ScopeKey.shape.codec.Faithful :=
  Shape.faithful (by decide) ScopeKey.refills

/-- The fields of a registry make it again from a blank one. -/
lemma Registry.refills (v : Registry) : Shape.Refills v shape.fields shape.blank :=
  .needed Codec.uuid_faithful <| .needed Codec.settings_faithful .nil

/-- Registries are taken back as they were. -/
lemma Registry.faithful : Registry.shape.codec.Faithful :=
  Shape.faithful (by decide) Registry.refills

/-- The fields of a configuration make it again from a blank one. -/
lemma Config.refills (v : Config) : Shape.Refills v shape.fields shape.blank :=
  .optional Codec.string_faithful <| .optional Codec.bool_faithful <| .optional Codec.settings_faithful .nil

/-- Configurations are taken back as they were. -/
lemma Config.faithful : Config.shape.codec.Faithful :=
  Shape.faithful (by decide) Config.refills

/-- The fields of a spec make it again from a blank one. -/
lemma Spec.refills (v : Spec) : Shape.Refills v shape.fields shape.blank :=
  .optional Codec.string_faithful.list <| .optional Bundle.faithful.list <| .optional Codec.string_faithful.list <|
    .optional ClassName.faithful.list <| .optional Codec.string_faithful.list <|
    .optional Codec.string_faithful.list <| .optional QueryImport.faithful.list <|
    .optional ClassName.faithful.list <| .optional Codec.bool_faithful <| .optional Codec.string_faithful .nil

/-- Specs are taken back as they were. -/
lemma Spec.faithful : Spec.shape.codec.Faithful :=
  Shape.faithful (by decide) Spec.refills

/-! ## Main statement -/

/-- The compact JSON text of every value, binding, model, query import, key, registry, configuration and spec gives
the very same thing back. -/
theorem json_texts_restore :
    Value.codec.Restores ∧ Property.shape.codec.Restores ∧ Entity.shape.codec.Restores ∧
    Collection.shape.codec.Restores ∧ Model.shape.codec.Restores ∧ QueryImport.shape.codec.Restores ∧
    ScopeKey.shape.codec.Restores ∧ Registry.shape.codec.Restores ∧ Config.shape.codec.Restores ∧
    Spec.shape.codec.Restores ∧ ∀ s : Spec, Spec.ofJson (Spec.shape.codec.text s) = .ok s := by
  refine ⟨Value.faithful.restores, Property.faithful.restores, Entity.faithful.restores, Collection.faithful.restores,
    Model.faithful.restores, QueryImport.faithful.restores, ScopeKey.faithful.restores, Registry.faithful.restores,
    Config.faithful.restores, Spec.faithful.restores, fun s => ?_⟩
  rw [Spec.ofJson, Spec.faithful.restores s]
  rfl

end ModelScopes
