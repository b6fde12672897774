import ModelScopes.Proofs.Codec.AnyLayout
import ModelScopes.Proofs.Codec.Forms
import ModelScopes.Proofs.Codec.RoundTrip

/-!
# Values in either form

Each record in a text may be an array of its fields as well as an object, and both give the same value. Only specs and
configurations may leave out the last fields of an array, if they are at their defaults; any other array of a wrong
length is refused. The main statement is `either_form`.
-/

namespace ModelScopes

/-! ## Values of properties -/

namespace Value

/-- The kind of a value and its content as an array. -/
def array (v : Value) : Json :=
  .list [.string v.kind.tag, .string v.content]

/-- The object that is written, or the array of kind and content; it is miscounted if it has not two items. -/
def forms : Forms Value where
  gives v d := d = (codec.encode v).toData ∨ d = v.array.toData
  miscounts d := ∃ ds, d = .list ds ∧ ds.length ≠ 2

/-- A value is taken from the array of its kind and its content. -/
lemma decode_array (frame : Frame) (v : Value) : decode frame v.array.toData = .ok v := by
  cases v <;> rfl

/-- The content is the only item behind the tag. -/
lemma length_of_decodeContent {frame : Frame} {k : Kind} {ds : List Data} {v : Value}
    (h : decodeContent frame k (.list ds) = .ok v) : ds.length = 1 := by
  rw [decodeContent] at h
  cases taken : (shape k).decode { frame with dialect := .setAside } (.list ds) with
  | error => rw [taken] at h; cases h
  | ok s =>
    have aside : (Frame.inner { frame with dialect := .setAside }).dialect ≠ .toml := by simp [Frame.inner]
    have nodup : ((shape k).fields.map Field.name).Nodup := by cases k <;> decide
    have fields : (shape k).fields.length = 1 := by cases k <;> rfl
    have closed : ¬ (shape k).openEnded := by cases k <;> exact Bool.false_ne_true
    obtain ⟨le, early, -⟩ :=
      Shape.counts_of_decodeItems aside (fun _ mem => (shape k).admits_nil.takes nodup mem) taken
    rw [fields] at le early
    exact Nat.le_antisymm le (Nat.not_lt.mp fun lt => closed (early lt))

/-- Values are taken from objects and arrays, and from nothing that has an array of a wrong length. -/
lemma takes : codec.Takes forms where
  writes _ := .inl rfl
  gives frame v d h := by
    obtain rfl | rfl := h
    · exact faithful frame v
    · exact decode_array frame v
  counts frame v d _ h := by
    rintro ⟨ds, rfl, ne⟩
    change decode frame (.list ds) = .ok v at h
    cases ds with
    | nil => cases h
    | cons tag rest =>
      rw [decode] at h
      split at h
      case h_1 => cases h
      case h_2 k _ =>
        split at h
        case isFalse => cases h
        case isTrue => exact ne (congrArg Nat.succ (length_of_decodeContent h))

end Value

/-! ## Types of records -/

/-- Properties as records. -/
def Property.forms : Forms Property :=
  shape.forms [("value", Value.forms.part (·.value))]

/-- Entities as records. -/
def Entity.forms : Forms Entity :=
  shape.forms [("properties", Property.forms.list.part (·.properties))]

/-- Collections as records. -/
def Collection.forms : Forms Collection :=
  shape.forms [("element", Value.forms.part (·.element))]

/-- Models as records. -/
def Model.forms : Forms Model :=
  shape.forms [("entity_bindings", Entity.forms.orderedMap.part (·.entities)),
    ("collection_bindings", Collection.forms.orderedMap.part (·.collections))]

/-- Query imports as records. -/
def QueryImport.forms : Forms QueryImport :=
  shape.forms []

/-- Keys as records. -/
def ScopeKey.forms : Forms ScopeKey :=
  shape.forms []

/-- Registries as records. -/
def Registry.forms : Forms Registry :=
  shape.forms []

/-- Configurations as records. -/
def Config.forms : Forms Config :=
  shape.forms []

/-- Specs as records. -/
def Spec.forms : Forms Spec :=
  shape.forms [("extra_query_imports", QueryImport.forms.list.part (·.imports))]

/-- The fields of a property have names of their own and complete a blank one. -/
lemma Property.regular : shape.Regular :=
  ⟨by decide, refills, nofun⟩

/-- Properties are taken in either form. -/
lemma Property.takes : shape.codec.Takes forms :=
  regular.takes (List.forall_mem_singleton.mpr ⟨_, rfl, Value.takes.needed⟩)

/-- The fields of an entity have names of their own and complete a blank one. -/
lemma Entity.regular : shape.Regular :=
  ⟨by decide, refills, nofun⟩

/-- Entities are taken in either form, with their properties in either form. -/
lemma Entity.takes : shape.codec.Takes forms :=
  regular.takes (List.forall_mem_singleton.mpr ⟨_, rfl, Property.takes.list.needed⟩)

/-- The fields of a collection have names of their own and complete a blank one. -/
lemma Collection.regular : shape.Regular :=
  ⟨by decide, refills, nofun⟩

/-- Collections are taken in either form, with their elements in either form. -/
lemma Collection.takes : shape.codec.Takes forms :=
  regular.takes (List.forall_mem_singleton.mpr ⟨_, rfl, Value.takes.needed⟩)

/-- The fields of a model have names of their own and complete a blank one. -/
lemma Model.regular : shape.Regular :=
  ⟨by decide, refills, nofun⟩

/-- Models are taken in either form, with their bindings in either form. -/
lemma Model.takes : shape.codec.Takes forms :=
  regular.takes (List.forall_mem_cons.mpr ⟨⟨_, rfl, Entity.takes.orderedMap.needed⟩,
    List.forall_mem_singleton.mpr ⟨_, rfl, Collection.takes.orderedMap.needed⟩⟩)

/-- The fields of a query import have names of their own and complete a blank one. -/
lemma QueryImport.regular : shape.Regular :=
  ⟨by decide, refills, nofun⟩

/-- Query imports are taken in either form. -/
lemma QueryImport.takes : shape.codec.Takes forms :=
  regular.takes shape.admits_nil

/-- The fields of a scope key have names of their own and complete a blank one. -/
lemma ScopeKey.regular : shape.Regular :=
  ⟨by decide, refills, nofun⟩

/-- Scope keys are taken in either form. -/
lemma ScopeKey.takes : shape.codec.Takes forms :=
  regular.takes shape.admits_nil

/-- The fields of a registry have names of their own and complete a blank one. -/
lemma Registry.regular : shape.Regular :=
  ⟨by decide, refills, nofun⟩

/-- Registries are taken in either form. -/
lemma Registry.takes : shape.codec.Takes forms :=
  regular.takes shape.admits_nil

/-- The fields of a configuration keep out of each other, so that arrays of them may end early. -/
lemma Config.separate : shape.Separate where
  own := by
    simp only [shape, List.forall_mem_cons, List.not_mem_nil, false_implies, implies_true, and_true]
    exact ⟨Field.optional_own Codec.string_faithful fun _ => rfl, Field.optional_own Codec.bool_faithful fun _ => rfl,
      Field.optional_own Codec.settings_faithful fun _ => rfl⟩
  spares := by
    simp only [shape, List.pairwise_cons, List.forall_mem_cons, List.not_mem_nil, false_implies, implies_true, and_true,
      List.Pairwise.nil]
    and_intros <;> exact Field.optional_spares fun _ _ => rfl

/-- The fields of a configuration have names of their own, complete a blank one and are separate. -/
lemma Config.regular : shape.Regular :=
  ⟨by decide, refills, fun _ => separate⟩

/-- Configurations are taken in either form. -/
lemma Config.takes : shape.codec.Takes forms :=
  regular.takes shape.admits_nil

/-- The fields of a spec keep out of each other, so that arrays of them may end early. -/
lemma Spec.separate : shape.Separate where
  own := by
    simp only [shape, List.forall_mem_cons, List.not_mem_nil, false_implies, implies_true, and_true]
    exact ⟨Field.optional_own Codec.string_faithful.list fun _ => rfl,
      Field.optional_own Bundle.faithful.list fun _ => rfl,
      Field.optional_own Codec.string_faithful.list fun _ => rfl,
      Field.optional_own ClassName.faithful.list fun _ => rfl,
      Field.optional_own Codec.string_faithful.list fun _ => rfl,
      Field.optional_own Codec.string_faithful.list fun _ => rfl,
      Field.optional_own QueryImport.faithful.list fun _ => rfl,
      Field.optional_own ClassName.faithful.list fun _ => rfl,
      Field.optional_own Codec.bool_faithful fun _ => rfl,
      Field.optional_own Codec.string_faithful fun _ => rfl⟩
  spares := by
    simp only [shape, List.pairwise_cons, List.forall_mem_cons, List.not_mem_nil, false_implies, implies_true, and_true,
      List.Pairwise.nil]
    and_intros <;> exact Field.optional_spares fun _ _ => rfl

/-- The fields of a spec have names of their own, complete a blank one and are separate. -/
lemma Spec.regular : shape.Regular :=
  ⟨by decide, refills, fun _ => separate⟩

/-- Specs are taken in either form, with their query imports in either form. -/
lemma Spec.takes : shape.codec.Takes forms :=
  regular.takes (List.forall_mem_singleton.mpr ⟨_, rfl, QueryImport.takes.list.optional⟩)

/-! ## Main statement -/

/-- Every type is taken from objects and arrays alike. -/
structure TakesEitherForm : Prop where
  values : Value.codec.TakesEither Value.forms
  /-- The array of a value holds its kind and its content. -/
  value_arrays : ∀ v : Value, Value.codec.ofJson v.array.text = .ok v
  properties : Property.shape.TakesEither Property.forms
  entities : Entity.shape.TakesEither Entity.forms
  collections : Collection.shape.TakesEither Collection.forms
  models : Model.shape.TakesEither Model.forms
  query_imports : QueryImport.shape.TakesEither QueryImport.forms
  scope_keys : ScopeKey.shape.TakesEither ScopeKey.forms
  registries : Registry.shape.TakesEither Registry.forms
  configs : Config.shape.TakesEither Config.forms
  specs : Spec.shape.TakesEither Spec.forms
  /-- Reading a spec takes and refuses the same texts. -/
  spec_texts : ∀ d text, Json.Spelling d text → (∀ s, Spec.forms.gives s d → Spec.ofJson text = .ok s) ∧
    (Spec.forms.miscounts d → ∃ fault, Spec.ofJson text = .error (.config (.unreadable "domain model spec" fault)))

/-- Bindings, models, query imports, keys, registries, configurations and specs are taken from objects and arrays alike,
in any mixture and any spelling, and so are values, whose arrays hold the kind and the content. Only the arrays of
configurations and specs may end before fields that are at their defaults. Anything else that has an array of a wrong
length in the place of a record is refused, and reading a spec does likewise. -/
theorem either_form : TakesEitherForm where
  values := Value.takes.takesEither
  value_arrays v := by
    rw [Codec.ofJson_text, Value.takes.gives _ v _ (.inr rfl)]
    rfl
  properties := Property.regular.takesEither Property.takes
  entities := Entity.regular.takesEither Entity.takes
  collections := Collection.regular.takesEither Collection.takes
  models := Model.regular.takesEither Model.takes
  query_imports := QueryImport.regular.takesEither QueryImport.takes
  scope_keys := ScopeKey.regular.takesEither ScopeKey.takes
  registries := Registry.regular.takesEither Registry.takes
  configs := Config.regular.takesEither Config.takes
  specs := Spec.regular.takesEither Spec.takes
  spec_texts d text spelling := by
    obtain ⟨gives, refuses⟩ := Spec.takes.takesEither d text spelling
    refine ⟨fun s h => ?_, fun h => ?_⟩
    · rw [Spec.ofJson, gives s h]
      rfl
    · obtain ⟨fault, eq⟩ := refuses h
      exact ⟨fault, by rw [Spec.ofJson, eq]; rfl⟩

open Json in
/-- An array in an object, a configuration whose last two fields are at their defaults, and an entity that lacks only a
field which may be absent. -/
theorem either_form_mixed :
    let demo : Config := { Config.standard with namespaceName := "demo" }
    let entity : Entity := ⟨"A", none, [], false, none⟩
    Property.shape.codec.ofJson "\x7b\"name\":\"p\",\"value\":[\"simple\", \"t\"]\x7d" = .ok ⟨"p", .simple "t"⟩ ∧
    (Config.shape.array 1 demo).text = "[\"demo\"]" ∧ Config.shape.codec.ofJson "[\"demo\"]" = .ok demo ∧
    (Entity.shape.array 4 entity).text = "[\"A\",null,[],false]" ∧
    ∃ fault, Entity.shape.codec.ofJson "[\"A\",null,[],false]" = .error fault := by
  intro demo entity
  have spelled : Spelling (.record [(some "name", .string "p"), (some "value", .list [.string "simple", .string "t"])])
      "\x7b\"name\":\"p\",\"value\":[\"simple\", \"t\"]\x7d" :=
    ⟨[], .record <|
      .moreMembers (.member .none (.of_plain _ ['n', 'a', 'm', 'e'] rfl) .none <|
        .string (.of_plain _ ['p'] rfl)) .none <|
      .lastMember (.member .none (.of_plain _ ['v', 'a', 'l', 'u', 'e'] rfl) .none <| .list <|
        .item (.string (.of_plain _ ['s', 'i', 'm', 'p', 'l', 'e'] rfl)) .none <|
        .lastItem (.blank rfl <| .string (.of_plain _ ['t'] rfl)) .none) .none, .none⟩
  have gives : Property.forms.gives ⟨"p", .simple "t"⟩
      (.record [(some "name", .string "p"), (some "value", .list [.string "simple", .string "t"])]) :=
    .inl ⟨_, rfl, .cons ⟨rfl, rfl⟩ (.cons ⟨rfl, .inr rfl⟩ .nil)⟩
  have written : (Config.shape.array 1 demo).text = "[\"demo\"]" := by decide +kernel
  have written' : (Entity.shape.array 4 entity).text = "[\"A\",null,[],false]" := by decide +kernel
  have taken := either_form.configs.arrays demo 1 (by simp [Config.shape, Field.optional, Field.needed, demo])
  have refused := either_form.entities.short entity 4 (by decide) (by decide)
  rw [written] at taken
  rw [written'] at refused
  exact ⟨(either_form.properties.forms _ _ spelled).1 _ gives, written, taken, written', refused⟩

end ModelScopes
