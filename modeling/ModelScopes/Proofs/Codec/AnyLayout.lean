import ModelScopes.Extension.Config
import ModelScopes.Model.Codec
import ModelScopes.Proofs.Codec.Layouts
import ModelScopes.Proofs.Json.Spelling
import ModelScopes.Registry
import ModelScopes.Spec.Basic

/-!
# Values in any layout

How a text lays out an object does not matter: with members in any order, the tag of a value in any place, blanks,
members that no field knows, and without what need not be given, it is taken for the same value. If anything else is
left out of an object, the first field that is missing is reported. The main statement is `any_layout`.
-/

namespace ModelScopes

/-! ## Values of properties -/

/-- Content that is set aside takes the same room. -/
lemma Frame.Holds.aside {frame : Frame} {d : Data} (ho : frame.Holds d) :
    Frame.Holds { frame with dialect := .setAside } d :=
  ⟨ho.whole, ho.room⟩

namespace Value

/-- The kind of a value. -/
def kind : Value → Kind
  | simple _ => .simple
  | component _ => .component
  | manyToOne _ => .manyToOne

/-- What a value holds beside its kind. -/
def content : Value → String
  | simple s | component s | manyToOne s => s

/-- The tag of a kind. -/
def Kind.tag : Kind → String
  | .simple => "simple"
  | .component => "component"
  | .manyToOne => "many_to_one"

/-- The member that holds the content of a kind. -/
def Kind.field : Kind → String
  | .simple => "type_name"
  | .component => "class_name"
  | .manyToOne => "referenced_entity"

/-- Objects with the tag and the content among members that can all be taken. One without its tag lacks it, and one
without its content lacks that. -/
def layout : Layout Value where
  whole v d := ∃ ms, d = .record ms ∧ Data.Keyed ms ∧ (∀ m ∈ ms, m.2.Takeable) ∧
    Data.given tagField ms = [.string v.kind.tag] ∧ Data.given v.kind.field ms = [.string v.content]
  lacks f v d := ∃ ms, d = .record ms ∧ Data.Keyed ms ∧ (∀ m ∈ ms, m.2.Takeable) ∧
    ((f = tagField ∧ Data.given tagField ms = []) ∨
      (f = v.kind.field ∧ Data.given tagField ms = [.string v.kind.tag] ∧ Data.given v.kind.field ms = []))

/-- A value is made again from its kind and its content. -/
lemma ofKind_kind (v : Value) : ofKind v.kind v.content = v := by
  cases v <;> rfl

/-- No kind has its content under the name of the tag. -/
lemma Kind.field_ne (k : Kind) : tagField ≠ k.field := by
  cases k <;> decide

/-- The tag of each kind is taken for the kind. -/
lemma Kind.decodeTag (frame : Frame) (k : Kind) : decodeTag frame (.string k.tag) = .ok k := by
  cases k <;> rfl

/-- The content of a kind is a record of one text. -/
lemma shape_lays (k : Kind) : (shape k).Lays [.of k.field true .text id fun s _ => s] := by
  refine ⟨?_, List.nodup_singleton _, ?_, List.pairwise_singleton _ _, fun _ _ => rfl⟩
  · cases k <;> exact .cons Codec.text_fits.needed .nil
  · exact List.forall_mem_singleton.mpr fun _ _ => rfl

variable {frame : Frame} {ms : List (Option String × Data)} {k : Kind}

/-- Members that are not the tag are set aside in order. -/
lemma splitTag_append (frame : Frame) (rest : List (Option String × Data)) (tag : Option Kind) :
    ∀ (ms aside : List (Option String × Data)), Data.Keyed ms → Data.given tagField ms = [] →
      (∀ m ∈ ms, m.2.isReadable (maxDepth - frame.depth)) →
        splitTag frame tag aside (ms ++ rest) = splitTag frame tag (ms.reverse ++ aside) rest
  | [], _, _, _, _ => rfl
  | (none, _) :: _, _, keyed, _, _ => absurd (keyed _ (List.mem_cons_self ..)) Bool.false_ne_true
  | (some name, d) :: ms, aside, keyed, untagged, readable => by
    have other : name ≠ tagField := fun eq => by
      rw [eq, Data.given_cons_self] at untagged
      cases untagged
    obtain ⟨here, readable⟩ := List.forall_mem_cons.mp readable
    rw [Data.given_cons_of_ne other] at untagged
    rw [List.cons_append, splitTag, if_neg other, if_pos here,
      splitTag_append frame rest tag ms _ (List.forall_mem_cons.mp keyed).2 untagged readable]
    simp

/-- Members that can be taken by themselves can be read where there is room for them. -/
lemma readable_of_takeable (ho : frame.Holds (.record ms)) (takeable : ∀ m ∈ ms, m.2.Takeable) :
    ∀ m ∈ ms, m.2.isReadable (maxDepth - frame.inner.depth) := fun m mem =>
  m.2.isReadable_mono (Nat.le_sub_of_add_le' (ho.members m mem).room) (takeable m mem)

/-- Without a tag, the tag is missing. -/
lemma decode_untagged (ho : frame.Holds (.record ms)) (keyed : Data.Keyed ms) (takeable : ∀ m ∈ ms, m.2.Takeable)
    (untagged : Data.given tagField ms = []) : decode frame (.record ms) = .error (.missingField tagField) := by
  have split := splitTag_append frame.inner [] none ms [] keyed untagged (readable_of_takeable ho takeable)
  rw [List.append_nil, List.append_nil] at split
  rw [decode, split, splitTag]

/-- With a tag in any place, the other members are taken for the content. -/
lemma exists_content (ho : frame.Holds (.record ms)) (keyed : Data.Keyed ms) (takeable : ∀ m ∈ ms, m.2.Takeable)
    (tagged : Data.given tagField ms = [.string k.tag]) :
    ∃ content, decode frame (.record ms) = decodeContent frame k (.record content) ∧ content ⊆ ms ∧
      ∀ name ≠ tagField, Data.given name content = Data.given name ms := by
  obtain ⟨before, after, rfl, none_before, none_after⟩ := Data.split_of_given tagged
  have readable := readable_of_takeable ho takeable
  refine ⟨before ++ after, ?_, fun m mem => ?_, fun name other => ?_⟩
  · have front := splitTag_append frame.inner ((some tagField, .string k.tag) :: after) none before []
      (fun m mem => keyed m (by simp [mem])) none_before (fun m mem => readable m (by simp [mem]))
    have back := splitTag_append frame.inner [] (some k) after (before.reverse ++ [])
      (fun m mem => keyed m (by simp [mem])) none_after (fun m mem => readable m (by simp [mem]))
    rw [List.append_nil] at front back
    rw [List.append_nil] at back
    rw [decode, front, splitTag, if_pos rfl, Kind.decodeTag]
    simp only [Option.isSome_none, Bool.false_eq_true, if_false, back, splitTag, List.reverse_append,
      List.reverse_reverse]
  · rw [List.mem_append] at mem
    simp only [List.mem_append, List.mem_cons]
    tauto
  · rw [Data.given_append, Data.given_append, Data.given_cons_of_ne other.symm]

/-- Values are taken in every layout. -/
theorem fits : codec.Fits layout where
  whole frame v d ho h := by
    obtain ⟨ms, rfl, keyed, takeable, tagged, given⟩ := h
    obtain ⟨content, run, sub, same⟩ := exists_content ho keyed takeable tagged
    have laid := (shape_lays v.kind).fits.whole { frame with dialect := .setAside } v.content (.record content)
      (ho.of_subset sub).aside ⟨content, rfl, fun m mem => keyed m (sub mem), List.forall_mem_singleton.mpr <|
        .inl ⟨_, (same _ v.kind.field_ne.symm).trans given, rfl⟩⟩
    show decode frame (.record ms) = .ok v
    rw [run, decodeContent]
    exact (congrArg _ laid).trans (congrArg _ v.ofKind_kind)
  lacks frame f v d ho h := by
    obtain ⟨ms, rfl, keyed, takeable, ⟨rfl, untagged⟩ | ⟨rfl, tagged, out⟩⟩ := h
    · exact decode_untagged ho keyed takeable untagged
    · obtain ⟨content, run, sub, same⟩ := exists_content ho keyed takeable tagged
      have none : Data.given v.kind.field content = [] := (same _ v.kind.field_ne.symm).trans out
      have missing := (shape_lays v.kind).fits.lacks { frame with dialect := .setAside } v.kind.field v.content
        (.record content) (ho.of_subset sub).aside ⟨content, rfl, fun m mem => keyed m (sub mem), .inl
          ⟨List.forall_mem_singleton.mpr <| .inr ⟨none, rfl⟩, by simp [FieldLayout.of, none]⟩⟩
      show decode frame (.record ms) = .error (.missingField v.kind.field)
      rw [run, decodeContent]
      exact congrArg _ missing

end Value

/-! ## Types of records -/

/-- Texts that may be absent. -/
lemma Codec.text_or_absent_fits : (Codec.option Codec.string).Fits (.option .text) :=
  text_fits.option (fun _ => nofun) (fun _ _ => False.elim)

/-- Class names as texts. -/
def Layout.className : Layout ClassName :=
  .imap .text ClassName.name

/-- A class name is taken from its text. -/
lemma ClassName.fits : ClassName.codec.Fits .className :=
  Codec.text_fits.imap fun _ => rfl

/-- Bundles by their names. -/
def Layout.bundle : Layout Bundle :=
  .scalar fun b d => d = .string b.name

/-- A bundle is taken from its name. -/
lemma Bundle.fits : Bundle.codec.Fits .bundle :=
  Codec.fits_scalar fun _ b _ eq => by rw [eq]; cases b <;> rfl

namespace Property

/-- The fields of a property. -/
def fieldLayouts : List (FieldLayout Property) :=
  [.of "name" true .text (·.name) fun x p => { p with name := x },
   .of "value" true Value.layout (·.value) fun x p => { p with value := x }]

/-- Properties as records. -/
def layout : Layout Property :=
  .record shape.blank fieldLayouts

/-- The layouts of the fields of a property are those of its shape. -/
lemma lays : shape.Lays fieldLayouts where
  fields := by
    simp only [shape, fieldLayouts]
    exact .cons Codec.text_fits.needed <| .cons Value.fits.needed .nil
  names := by decide
  again := by simp [fieldLayouts, FieldLayout.of]
  apart := by simp [fieldLayouts, FieldLayout.of, FieldLayout.Apart]
  all _ _ := by simp only [fieldLayouts, FieldLayout.of, List.foldl_cons, List.foldl_nil]

/-- Properties are taken in every layout. -/
lemma fits : shape.codec.Fits layout :=
  lays.fits

end Property

namespace Entity

/-- The fields of an entity. -/
def fieldLayouts : List (FieldLayout Entity) :=
  [.of "entity_name" true .text (·.name) fun x e => { e with name := x },
   .of "superclass" false (.option .text) (·.superclass) fun x e => { e with superclass := x },
   .of "properties" true (.list Property.layout) (·.properties) fun x e => { e with properties := x },
   .of "cached" true .flag (·.cached) fun x e => { e with cached := x },
   .of "cache_concurrency_strategy" false (.option .text) (·.strategy) fun x e => { e with strategy := x }]

/-- Entities as records. -/
def layout : Layout Entity :=
  .record shape.blank fieldLayouts

/-- The layouts of the fields of an entity are those of its shape. -/
lemma lays : shape.Lays fieldLayouts where
  fields := by
    simp only [shape, fieldLayouts]
    exact .cons Codec.text_fits.needed <| .cons Codec.text_or_absent_fits.optional <|
      .cons Property.fits.list.needed <| .cons Codec.flag_fits.needed <| .cons Codec.text_or_absent_fits.optional .nil
  names := by decide
  again := by simp [fieldLayouts, FieldLayout.of]
  apart := by simp [fieldLayouts, FieldLayout.of, FieldLayout.Apart]
  all _ _ := by simp only [fieldLayouts, FieldLayout.of, List.foldl_cons, List.foldl_nil]

/-- Entities are taken in every layout. -/
lemma fits : shape.codec.Fits layout :=
  lays.fits

end Entity

namespace Collection

/-- The fields of a collection. -/
def fieldLayouts : List (FieldLayout Collection) :=
  [.of "role" true .text (·.role) fun x c => { c with role := x },
   .of "element" true Value.layout (·.element) fun x c => { c with element := x },
   .of "cache_concurrency_strategy" false (.option .text) (·.strategy) fun x c => { c with strategy := x }]

/-- Collections as records. -/
def layout : Layout Collection :=
  .record shape.blank fieldLayouts

/-- The layouts of the fields of a collection are those of its shape. -/
lemma lays : shape.Lays fieldLayouts where
  fields := by
    simp only [shape, fieldLayouts]
    exact .cons Codec.text_fits.needed <| .cons Value.fits.needed <| .cons Codec.text_or_absent_fits.optional .nil
  names := by decide
  again := by simp [fieldLayouts, FieldLayout.of]
  apart := by simp [fieldLayouts, FieldLayout.of, FieldLayout.Apart]
  all _ _ := by simp only [fieldLayouts, FieldLayout.of, List.foldl_cons, List.foldl_nil]

/-- Collections are taken in every layout. -/
lemma fits : shape.codec.Fits layout :=
  lays.fits

end Collection

namespace Model

/-- The fields of a model. -/
def fieldLayouts : List (FieldLayout Model) :=
  [.of "id" true .uuid (·.id) fun x m => { m with id := x },
   .of "entity_bindings" true (.orderedMap Entity.layout) (·.entities) fun x m => { m with entities := x },
   .of "collection_bindings" true (.orderedMap Collection.layout) (·.collections)
     fun x m => { m with collections := x },
   .of "imports" true (.orderedMap .text) (·.imports) fun x m => { m with imports := x }]

/-- Models as records. -/
def layout : Layout Model :=
  .record shape.blank fieldLayouts

/-- The layouts of the fields of a model are those of its shape. -/
lemma lays : shape.Lays fieldLayouts where
  fields := by
    simp only [shape, fieldLayouts]
    exact .cons Codec.uuid_fits.needed <| .cons Entity.fits.orderedMap.needed <|
      .cons Collection.fits.orderedMap.needed <| .cons Codec.text_fits.orderedMap.needed .nil
  names := by decide
  again := by simp [fieldLayouts, FieldLayout.of]
  apart := by simp [fieldLayouts, FieldLayout.of, FieldLayout.Apart]
  all _ _ := by simp only [fieldLayouts, FieldLayout.of, List.foldl_cons, List.foldl_nil]

/-- Models are taken in every layout. -/
lemma fits : shape.codec.Fits layout :=
  lays.fits

end Model

namespace QueryImport

/-- The fields of a query import. -/
def fieldLayouts : List (FieldLayout QueryImport) :=
  [.of "name" true .text (·.name) fun x i => { i with name := x },
   .of "imported_class" true .className (·.importedClass) fun x i => { i with importedClass := x }]

/-- Query imports as records. -/
def layout : Layout QueryImport :=
  .record shape.blank fieldLayouts

/-- The layouts of the fields of a query import are those of its shape. -/
lemma lays : shape.Lays fieldLayouts where
  fields := by
    simp only [shape, fieldLayouts]
    exact .cons Codec.text_fits.needed <| .cons ClassName.fits.needed .nil
  names := by decide
  again := by simp [fieldLayouts, FieldLayout.of]
  apart := by simp [fieldLayouts, FieldLayout.of, FieldLayout.Apart]
  all _ _ := by simp only [fieldLayouts, FieldLayout.of, List.foldl_cons, List.foldl_nil]

/-- Query imports are taken in every layout. -/
lemma fits : shape.codec.Fits layout :=
  lays.fits

end QueryImport

namespace ScopeKey

/-- The fields of a key. -/
def fieldLayouts : List (FieldLayout ScopeKey) :=
  [.of "namespace" true .text (·.namespaceName) fun x k => { k with namespaceName := x },
   .of "unit" true .text (·.unit) fun x k => { k with unit := x }]

/-- Keys as records. -/
def layout : Layout ScopeKey :=
  .record shape.blank fieldLayouts

/-- The layouts of the fields of a scope key are those of its shape. -/
lemma lays : shape.Lays fieldLayouts where
  fields := by
    simp only [shape, fieldLayouts]
    exact .cons Codec.text_fits.needed <| .cons Codec.text_fits.needed .nil
  names := by decide
  again := by simp [fieldLayouts, FieldLayout.of]
  apart := by simp [fieldLayouts, FieldLayout.of, FieldLayout.Apart]
  all _ _ := by simp only [fieldLayouts, FieldLayout.of, List.foldl_cons, List.foldl_nil]

/-- Scope keys are taken in every layout. -/
lemma fits : shape.codec.Fits layout :=
  lays.fits

end ScopeKey

namespace Registry

/-- The fields of a registry. -/
def fieldLayouts : List (FieldLayout Registry) :=
  [.of "id" true .uuid (·.id) fun x r => { r with id := x },
   .of "settings" true .settings (·.settings) fun x r => { r with settings := x }]

/-- Registries as records. -/
def layout : Layout Registry :=
  .record shape.blank fieldLayouts

/-- The layouts of the fields of a registry are those of its shape. -/
lemma lays : shape.Lays fieldLayouts where
  fields := by
    simp only [shape, fieldLayouts]
    exact .cons Codec.uuid_fits.needed <| .cons Codec.settings_fits.needed .nil
  names := by decide
  again := by simp [fieldLayouts, FieldLayout.of]
  apart := by simp [fieldLayouts, FieldLayout.of, FieldLayout.Apart]
  all _ _ := by simp only [fieldLayouts, FieldLayout.of, List.foldl_cons, List.foldl_nil]

/-- Registries are taken in every layout. -/
lemma fits : shape.codec.Fits layout :=
  lays.fits

end Registry

namespace Config

/-- The fields of a configuration. -/
def fieldLayouts : List (FieldLayout Config) :=
  [.of "namespace" false .text (·.namespaceName) fun x c => { c with namespaceName := x },
   .of "inject_scope" false .flag (·.injectScope) fun x c => { c with injectScope := x },
   .of "registry_settings" false .settings (·.settings) fun x c => { c with settings := x }]

/-- Configurations as records. -/
def layout : Layout Config :=
  .record shape.blank fieldLayouts

/-- The layouts of the fields of a configuration are those of its shape. -/
lemma lays : shape.Lays fieldLayouts where
  fields := by
    simp only [shape, fieldLayouts]
    exact .cons Codec.text_fits.optional <| .cons Codec.flag_fits.optional <| .cons Codec.settings_fits.optional .nil
  names := by decide
  again := by simp [fieldLayouts, FieldLayout.of]
  apart := by simp [fieldLayouts, FieldLayout.of, FieldLayout.Apart]
  all _ _ := by simp only [fieldLayouts, FieldLayout.of, List.foldl_cons, List.foldl_nil]

/-- Configurations are taken in every layout. -/
lemma fits : shape.codec.Fits layout :=
  lays.fits

end Config

namespace Spec

/-- The fields of a spec. -/
def fieldLayouts : List (FieldLayout Spec) :=
  [.of "annotated_package_names" false (.list .text) (·.packages) fun x s => { s with packages := x },
   .of "standard_models" false (.list .bundle) (·.bundles) fun x s => { s with bundles := x },
   .of "model_descriptor_classes" false (.list .text) (·.descriptors) fun x s => { s with descriptors := x },
   .of "annotated_classes" false (.list .className) (·.classes) fun x s => { s with classes := x },
   .of "annotated_class_names" false (.list .text) (·.classNames) fun x s => { s with classNames := x },
   .of "xml_mappings" false (.list .text) (·.resources) fun x s => { s with resources := x },
   .of "extra_query_imports" false (.list QueryImport.layout) (·.imports) fun x s => { s with imports := x },
   .of "extra_query_import_classes" false (.list .className) (·.importClasses)
     fun x s => { s with importClasses := x },
   .of "override_cache_strategy" false .flag (·.overrideCache) fun x s => { s with overrideCache := x },
   .of "concurrency_strategy" false .text (·.strategy) fun x s => { s with strategy := x }]

/-- Specs as records. -/
def layout : Layout Spec :=
  .record shape.blank fieldLayouts

/-- The layouts of the fields of a spec are those of its shape. -/
lemma lays : shape.Lays fieldLayouts where
  fields := by
    simp only [shape, fieldLayouts]
    exact .cons Codec.text_fits.list.optional <| .cons Bundle.fits.list.optional <|
      .cons Codec.text_fits.list.optional <| .cons ClassName.fits.list.optional <|
      .cons Codec.text_fits.list.optional <| .cons Codec.text_fits.list.optional <|
      .cons QueryImport.fits.list.optional <| .cons ClassName.fits.list.optional <| .cons Codec.flag_fits.optional <|
      .cons Codec.text_fits.optional .nil
  names := by decide
  again := by simp [fieldLayouts, FieldLayout.of]
  apart := by simp [fieldLayouts, FieldLayout.of, FieldLayout.Apart]
  all _ _ := by simp only [fieldLayouts, FieldLayout.of, List.foldl_cons, List.foldl_nil]

/-- Specs are taken in every layout. -/
lemma fits : shape.codec.Fits layout :=
  lays.fits

end Spec

/-! ## Main statement -/

namespace Codec

variable {α : Type} {c : Codec α} {L : Layout α}

/-- Every text that spells a layout of a value gives the value, and every text that spells one without required fields
is refused by the first of them, as long as there is room for its containers. -/
def TakesAny (c : Codec α) (L : Layout α) : Prop :=
  ∀ v d text, Json.Spelling d text → d.nesting ≤ maxDepth →
    (L.whole v d → c.ofJson text = .ok v) ∧ ∀ f, L.lacks f v d → c.ofJson text = .error (.missingField f)

/-- What is taken in every layout is taken from every text that spells one. -/
lemma Fits.takesAny (fi : c.Fits L) : c.TakesAny L := by
  intro v d text spelling room
  obtain ⟨r, read, clean, whole⟩ := spelling.read
  have ho : (Frame.top .json).Holds d := ⟨whole, by simpa [Frame.top] using room⟩
  have run : c.ofJson text = finish (Json.endsClean (some r)) (c.decode (.top .json) d) := by rw [ofJson, read]
  refine ⟨fun h => ?_, fun f h => ?_⟩
  · rw [run, fi.whole _ v d ho h, finish, if_pos clean]
  · rw [run, fi.lacks _ f v d ho h, finish]

end Codec

/-- Texts of values, bindings, models, query imports, keys, registries, configurations and specs are taken in any layout
and any spelling, and reading a spec takes them likewise. -/
theorem any_layout :
    Value.codec.TakesAny Value.layout ∧ Property.shape.codec.TakesAny Property.layout ∧
    Entity.shape.codec.TakesAny Entity.layout ∧ Collection.shape.codec.TakesAny Collection.layout ∧
    Model.shape.codec.TakesAny Model.layout ∧ QueryImport.shape.codec.TakesAny QueryImport.layout ∧
    ScopeKey.shape.codec.TakesAny ScopeKey.layout ∧ Registry.shape.codec.TakesAny Registry.layout ∧
    Config.shape.codec.TakesAny Config.layout ∧ Spec.shape.codec.TakesAny Spec.layout ∧
    ∀ s d text, Json.Spelling d text → d.nesting ≤ maxDepth →
      (Spec.layout.whole s d → Spec.ofJson text = .ok s) ∧
      ∀ f, Spec.layout.lacks f s d →
        Spec.ofJson text = .error (.config (.unreadable "domain model spec" (.missingField f))) := by
  refine ⟨Value.fits.takesAny, Property.fits.takesAny, Entity.fits.takesAny, Collection.fits.takesAny,
    Model.fits.takesAny, QueryImport.fits.takesAny, ScopeKey.fits.takesAny, Registry.fits.takesAny,
    Config.fits.takesAny, Spec.fits.takesAny, fun s d text spelling room => ?_⟩
  obtain ⟨whole, lacks⟩ := Spec.fits.takesAny s d text spelling room
  refine ⟨fun h => ?_, fun f h => ?_⟩
  · rw [Spec.ofJson, whole h]
    rfl
  · rw [Spec.ofJson, lacks f h]
    rfl

open Json in
/-- The tag behind the content, a member that no field knows, and a blank. -/
theorem any_layout_tag_last :
    Value.codec.ofJson "\x7b\"type_name\":\"t\", \"x\":null,\"kind\":\"simple\"\x7d" = .ok (.simple "t") ∧
    Value.codec.ofJson "\x7b\"x\":null\x7d" = .error (.missingField "kind") := by
  have takes := any_layout.1
  have spelled : Spelling
      (.record [(some "type_name", .string "t"), (some "x", .null), (some "kind", .string "simple")])
      "\x7b\"type_name\":\"t\", \"x\":null,\"kind\":\"simple\"\x7d" :=
    ⟨[], .record <|
      .moreMembers (.member .none (.of_plain _ ['t', 'y', 'p', 'e', '_', 'n', 'a', 'm', 'e'] rfl) .none <|
        .string (.of_plain _ ['t'] rfl)) .none <|
      .moreMembers (.member (.more rfl .none) (.of_plain _ ['x'] rfl) .none .null) .none <|
      .lastMember (.member .none (.of_plain _ ['k', 'i', 'n', 'd'] rfl) .none <|
        .string (.of_plain _ ['s', 'i', 'm', 'p', 'l', 'e'] rfl)) .none, .none⟩
  have bare : Spelling (.record [(some "x", .null)]) "\x7b\"x\":null\x7d" :=
    ⟨[], .record <| .lastMember (.member .none (.of_plain _ ['x'] rfl) .none .null) .none, .none⟩
  refine ⟨(takes (.simple "t") _ _ spelled (by decide)).1 ⟨_, rfl, ?_, ?_, rfl, rfl⟩,
    (takes (.simple "t") _ _ bare (by decide)).2 _ ⟨_, rfl, ?_, ?_, .inl ⟨rfl, rfl⟩⟩⟩
  all_goals simp [Data.Keyed, Data.Takeable, Data.isReadable]

open Json in
/-- Beside the tag of a value, a member that no field knows has to be text that can be taken, though other records skip
it; a member without a readable key is refused everywhere; and an entity without its superclass is another entity. -/
theorem any_layout_confounds :
    let unpaired := "\x7b\"kind\":\"simple\",\"type_name\":\"t\",\"x\":\"\\ud800\"\x7d"
    (Spelling (.record [(some "kind", .string "simple"), (some "type_name", .string "t"), (some "x", .unreadable)])
        unpaired ∧ Value.codec.ofJson unpaired = .error .malformed) ∧
    (ScopeKey.shape.codec.ofJson "\x7b\"namespace\":\"n\",\"unit\":\"u\",\"x\":\"\\ud800\"\x7d" = .ok ⟨"n", "u"⟩ ∧
      ScopeKey.shape.codec.ofJson "\x7b\"namespace\":\"n\",\"unit\":\"u\",\"\\ud800\":null\x7d" =
        .error .malformed) ∧
    Entity.shape.codec.ofJson
        "\x7b\"entity_name\":\"A\",\"superclass\":\"B\",\"properties\":[],\"cached\":false\x7d" =
      .ok ⟨"A", some "B", [], false, none⟩ ∧
    Entity.shape.codec.ofJson "\x7b\"entity_name\":\"A\",\"properties\":[],\"cached\":false\x7d" =
      .ok ⟨"A", none, [], false, none⟩ := by
  refine ⟨⟨⟨[], .record <|
      .moreMembers (.member .none (.of_plain _ ['k', 'i', 'n', 'd'] rfl) .none <|
        .string (.of_plain _ ['s', 'i', 'm', 'p', 'l', 'e'] rfl)) .none <|
      .moreMembers (.member .none (.of_plain _ ['t', 'y', 'p', 'e', '_', 'n', 'a', 'm', 'e'] rfl) .none <|
        .string (.of_plain _ ['t'] rfl)) .none <|
      .lastMember (.member .none (.of_plain _ ['x'] rfl) .none <|
        .string (.high (u := 0xd800) rfl ⟨by decide, by decide⟩ (by simp) .done)) .none, .none⟩, ?_⟩, ⟨?_, ?_⟩, ?_, ?_⟩
  all_goals decide +kernel

end ModelScopes
