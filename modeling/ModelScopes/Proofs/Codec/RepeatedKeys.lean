import ModelScopes.Proofs.Codec.AnyLayout
import ModelScopes.Proofs.Codec.Folding

/-!
# Keys that come more than once

In an object that is taken for a map a key may come more than once: the map is what inserting all entries in order
makes of it. In an object that is taken for a record no field may be given more than once, wherever the members stand
and whether they agree or not, and neither may the tag of a value or what it holds. The main statement is
`repeated_keys`.
-/

namespace ModelScopes

/-! ## Values -/

namespace Value

variable {frame : Frame} {tag tag' : Option Kind} {ms aside content : List (Option String × Data)} {k : Kind} {d : Data}

/-- An object that gives the tag more than once, or the field of the kind that its tag names. -/
inductive Repeats : Data → Prop where
  | tag {ms : List (Option String × Data)} : Data.Repeats tagField ms → Repeats (.record ms)
  | content {ms : List (Option String × Data)} (k : Kind) : .string k.tag ∈ Data.given tagField ms →
    Data.Repeats k.field ms → Repeats (.record ms)

/-- The members that are not the tag. -/
def others (ms : List (Option String × Data)) : List (Option String × Data) :=
  ms.filter fun m => m.1 != some tagField

/-- The members beside the tag give what all members give under another name. -/
lemma given_others {name : String} (ne : name ≠ tagField) (ms : List (Option String × Data)) :
    Data.given name (others ms) = Data.given name ms := by
  rw [Data.given, others, List.filter_filter, Data.given]
  congr 2
  funext m
  by_cases here : m.1 = some name
  · simp [here, ne]
  · simp [here]

/-- A member of another name is one of those beside the tag. -/
lemma others_cons_of_ne {name : String} (ne : name ≠ tagField) (d : Data) (ms : List (Option String × Data)) :
    others ((some name, d) :: ms) = (some name, d) :: others ms := by
  simp [others, ne]

/-- The tag is not one of the members beside it. -/
lemma others_cons_self (d : Data) (ms : List (Option String × Data)) :
    others ((some tagField, d) :: ms) = others ms := by
  simp [others]

/-- A tag that names a kind is its name. -/
lemma eq_of_decodeTag (h : decodeTag frame d = .ok k) : d = .string k.tag := by
  unfold decodeTag at h
  split at h
  case h_2 => cases h
  case h_1 name =>
    unfold Codec.variantNamed at h
    split at h
    case h_2 => cases h
    case h_1 e found =>
      cases h
      have named : e.1 = name := eq_of_beq (List.find?_some (p := fun e : String × Kind => e.1 == name) found)
      have tagged : ∀ e ∈ kinds, e.1 = e.2.tag := by decide
      rw [← named, tagged e (List.mem_of_find?_eq_some found)]

/-- Members that are split were given at most one tag, which names a kind. -/
lemma splitTag_eq_ok (h : splitTag frame tag aside ms = .ok (tag', content)) :
    content = aside.reverse ++ others ms ∧
      ((Data.given tagField ms = [] ∧ tag' = tag) ∨
        (tag = none ∧ ∃ k, Data.given tagField ms = [.string k.tag] ∧ tag' = some k)) := by
  -- on the members, with the tag that was given so far and those that were set aside
  induction ms generalizing tag aside with
  | nil =>
    cases h
    exact ⟨by simp [others], .inl ⟨rfl, rfl⟩⟩
  | cons m ms ih =>
    obtain ⟨_ | name, d⟩ := m
    · cases h
    rw [splitTag] at h
    split at h
    case isTrue same =>
      subst same
      split at h
      · cases h
      rename_i untagged
      split at h
      case h_2 => cases h
      case h_1 k named =>
        obtain ⟨eq, ⟨none, rfl⟩ | ⟨again, -⟩⟩ := ih h
        · refine ⟨by rw [eq, others_cons_self], .inr ⟨by simpa using untagged, k, ?_, rfl⟩⟩
          rw [Data.given_cons_self, none, eq_of_decodeTag named]
        · cases again
    case isFalse other =>
      split at h
      case isFalse => cases h
      case isTrue =>
        obtain ⟨eq, tags⟩ := ih h
        rw [Data.given_cons_of_ne other, others_cons_of_ne other]
        exact ⟨by simp [eq], tags⟩

/-- A value that is taken from an object was given one tag, and its content by the other members. -/
lemma exists_of_decode {v : Value} (h : decode frame (.record ms) = .ok v) :
    ∃ k : Kind, Data.given tagField ms = [.string k.tag] ∧ decodeContent frame k (.record (others ms)) = .ok v := by
  rw [decode] at h
  split at h
  case h_1 => cases h
  case h_2 => cases h
  case h_3 kind content split =>
    obtain ⟨rfl, ⟨-, untagged⟩ | ⟨-, k, tagged, same⟩⟩ := splitTag_eq_ok split
    · cases untagged
    · cases same
      exact ⟨kind, tagged, h⟩

/-- Two kinds have two tags. -/
lemma Kind.tag_injective {k k' : Kind} (same : k.tag = k'.tag) : k = k' := by
  cases k <;> cases k' <;> first | rfl | exact absurd same (by decide)

/-- The content of a kind is one field, which is a text. -/
lemma exists_field (k : Kind) : ∃ f ∈ (shape k).fields, f.name = k.field ∧ ((shape k).fields = [f]) ∧
    ∀ frame s w, f.store frame (.string s) w = .ok s := by
  cases k <;> exact ⟨_, List.mem_singleton_self _, rfl, rfl, fun _ _ _ => rfl⟩

/-- No value is taken from an object that gives the tag or the content more than once. -/
lemma refuses : codec.Refuses Repeats := by
  intro frame v d h repeats
  change decode frame d = .ok v at h
  cases repeats with
  | tag more =>
    obtain ⟨k, tagged, -⟩ := exists_of_decode h
    simp [Data.Repeats, tagged] at more
  | @content ms k mem more =>
    obtain ⟨k', tagged, taken⟩ := exists_of_decode h
    rw [tagged, List.mem_singleton, Data.string.injEq] at mem
    obtain rfl := Kind.tag_injective mem
    obtain ⟨f, fmem, named, -⟩ := exists_field k
    rw [decodeContent] at taken
    cases content : (shape k).decode { frame with dialect := .setAside } (.record (others ms)) with
    | error => rw [content] at taken; cases taken
    | ok s =>
      refine (Shape.given_of_decodeMembers content fmem).1 ?_
      rwa [Data.Repeats, named, given_others k.field_ne.symm]

/-! ## Faults of values -/

/-- The member can be split off by itself: it is a tag that names a kind, or it can be set aside. -/
def SplitsMember (frame : Frame) (m : Option String × Data) : Prop :=
  ∃ name, m.1 = some name ∧
    if name = tagField then ∃ k : Kind, m.2 = .string k.tag else m.2.isReadable (maxDepth - frame.depth)

/-- Members each of which can be split off are split, unless the tag is given again; then this is reported. -/
lemma splitTag_of_splits (splits : ∀ m ∈ ms, SplitsMember frame m) (tag : Option Kind)
    (aside : List (Option String × Data)) :
    (∃ r, splitTag frame tag aside ms = .ok r) ∨
      (splitTag frame tag aside ms = .error (.duplicateField tagField) ∧
        (Data.Repeats tagField ms ∨ (tag.isSome ∧ Data.given tagField ms ≠ []))) := by
  induction ms generalizing tag aside with
  | nil => exact .inl ⟨_, rfl⟩
  | cons m ms ih =>
    obtain ⟨⟨name, key, here⟩, later⟩ := List.forall_mem_cons.mp splits
    obtain ⟨key', d⟩ := m
    cases key
    rw [splitTag]
    by_cases same : name = tagField
    · subst same
      obtain ⟨k, rfl⟩ := by simpa using here
      rw [if_pos rfl, Data.Repeats, Data.given_cons_self]
      cases tag with
      | some k' => exact .inr ⟨rfl, .inr ⟨rfl, List.cons_ne_nil _ _⟩⟩
      | none =>
        simp only [Option.isSome_none, Bool.false_eq_true, if_false, Kind.decodeTag]
        rcases ih later (some k) aside with split | ⟨reported, more⟩
        · exact .inl split
        refine .inr ⟨reported, .inl ?_⟩
        rw [List.length_cons]
        rcases more with more | ⟨-, some⟩
        · exact Nat.lt_succ_of_lt more
        · exact Nat.succ_lt_succ (List.length_pos_of_ne_nil some)
    · rw [if_neg same] at here ⊢
      rw [if_pos here, Data.Repeats, Data.given_cons_of_ne same]
      exact ih later tag _

/-- If all members can be split off then a tag that is given again is reported. -/
lemma decode_of_repeated_tag (splits : ∀ m ∈ ms, SplitsMember frame.inner m) (more : Data.Repeats tagField ms) :
    decode frame (.record ms) = .error (.duplicateField tagField) := by
  rcases splitTag_of_splits splits none [] with ⟨⟨tag, content⟩, split⟩ | ⟨reported, -⟩
  · obtain ⟨-, ⟨none, -⟩ | ⟨-, k, one, -⟩⟩ := splitTag_eq_ok split
    · simp [Data.Repeats, none] at more
    · simp [Data.Repeats, one] at more
  · rw [decode, reported]

/-- If all members can be split off, and the content is text wherever it is given, then content that is given again is
reported. -/
lemma decode_of_repeated_content (splits : ∀ m ∈ ms, SplitsMember frame.inner m) (whole : ∀ m ∈ ms, m.2.isWhole)
    (tagged : Data.given tagField ms = [.string k.tag]) (texts : ∀ x ∈ Data.given k.field ms, ∃ s, x = .string s)
    (more : Data.Repeats k.field ms) : decode frame (.record ms) = .error (.duplicateField k.field) := by
  have split : splitTag frame.inner none [] ms = .ok (some k, others ms) := by
    rcases splitTag_of_splits splits none [] with ⟨⟨tag, content⟩, split⟩ | ⟨-, again⟩
    · obtain ⟨rfl, ⟨none, -⟩ | ⟨-, k', one, rfl⟩⟩ := splitTag_eq_ok split
      · rw [tagged] at none
        cases none
      · rw [tagged, List.singleton_inj, Data.string.injEq] at one
        rw [split, Kind.tag_injective one]
        rfl
    · simp [Data.Repeats, tagged] at again
  -- the content is one field of a record, for which the rule for repeated fields is known
  obtain ⟨f, fmem, named, only, stores⟩ := exists_field k
  have taken : ∀ m ∈ others ms, (shape k).TakesMember (Frame.inner { frame with dialect := .setAside }) m := by
    rintro ⟨key, d⟩ mem
    have mem : (key, d) ∈ ms := List.mem_of_mem_filter mem
    obtain ⟨name, rfl, -⟩ := splits _ mem
    refine ⟨name, rfl, ?_⟩
    by_cases here : name = k.field
    · obtain ⟨s, rfl⟩ := texts d (Data.mem_given.mpr (here ▸ mem))
      have found : (shape k).field? name = some f := by simp [Shape.field?, only, named, here]
      simp only [found]
      exact fun w => ⟨s, stores _ s w⟩
    · have unknown : (shape k).field? name = none := by simp [Shape.field?, only, named, Ne.symm here]
      simp only [unknown]
      exact whole _ mem
  have again : Data.Repeats f.name (others ms) := by
    rwa [Data.Repeats, named, given_others k.field_ne.symm]
  obtain ⟨g, gmem, -, reported⟩ := Shape.decode_of_repeats taken fmem again
  rw [only, List.mem_singleton] at gmem
  subst gmem
  rw [decode, split]
  simp only [decodeContent, reported, named]
  rfl

end Value

/-! ## Types of records -/

/-- What may be repeated inside the fields of a property. -/
def Property.inside : List (String × (Data → Prop)) :=
  [("value", Value.Repeats)]

/-- What may be repeated inside the fields of an entity. -/
def Entity.inside : List (String × (Data → Prop)) :=
  [("properties", Data.HasItem (Property.shape.Repeats Property.inside))]

/-- What may be repeated inside the fields of a collection. -/
def Collection.inside : List (String × (Data → Prop)) :=
  [("element", Value.Repeats)]

/-- What may be repeated inside the fields of a model. -/
def Model.inside : List (String × (Data → Prop)) :=
  [("entity_bindings", Data.HasMember (Entity.shape.Repeats Entity.inside)),
   ("collection_bindings", Data.HasMember (Collection.shape.Repeats Collection.inside))]

/-- What may be repeated inside the fields of a spec. -/
def Spec.inside : List (String × (Data → Prop)) :=
  [("extra_query_imports", Data.HasItem (QueryImport.shape.Repeats []))]

/-- No property is taken from an object that gives a field more than once, or from one with such a value. -/
lemma Property.refuses : shape.codec.Refuses (shape.Repeats inside) :=
  shape.refuses (by decide) (List.forall_mem_singleton.mpr ⟨_, rfl, Value.refuses.needed⟩)

/-- No entity is taken from an object that gives a field more than once, or from one with such a property. -/
lemma Entity.refuses : shape.codec.Refuses (shape.Repeats inside) :=
  shape.refuses (by decide) (List.forall_mem_singleton.mpr ⟨_, rfl, Property.refuses.list.needed⟩)

/-- No collection is taken from an object that gives a field more than once, or from one with such an element. -/
lemma Collection.refuses : shape.codec.Refuses (shape.Repeats inside) :=
  shape.refuses (by decide) (List.forall_mem_singleton.mpr ⟨_, rfl, Value.refuses.needed⟩)

/-- No model is taken from an object that gives a field more than once, or from one with such a binding. -/
lemma Model.refuses : shape.codec.Refuses (shape.Repeats inside) :=
  shape.refuses (by decide) (List.forall_mem_cons.mpr ⟨⟨_, rfl, Entity.refuses.orderedMap.needed⟩,
    List.forall_mem_singleton.mpr ⟨_, rfl, Collection.refuses.orderedMap.needed⟩⟩)

/-- No spec is taken from an object that gives a field more than once, or from one with such a query import. -/
lemma Spec.refuses : shape.codec.Refuses (shape.Repeats inside) :=
  shape.refuses (by decide) (List.forall_mem_singleton.mpr ⟨_, rfl,
    (QueryImport.shape.refuses (by decide) (List.forall_mem_nil _)).list.optional⟩)

/-! ## Texts -/

/-- What is refused is refused in every spelling. -/
lemma Codec.Refuses.text {α : Type} {c : Codec α} {bad : Data → Prop} (re : c.Refuses bad) {d : Data} {text : String}
    (spelling : Json.Spelling d text) (h : bad d) : ∃ fault, c.ofJson text = .error fault := by
  rw [Codec.ofJson_of_decode spelling]
  cases taken : c.decode (.top .json) d with
  | error fault => exact ⟨fault, rfl⟩
  | ok v => exact absurd h (re _ v d taken)

/-- Texts of a record type that give a field more than once, or have something inside that does, are refused; and if
each member can be taken by itself then such a field is reported. -/
structure Shape.RefusesRepeats {α : Type} (sh : Shape α) (inside : List (String × (Data → Prop))) : Prop where
  refused : ∀ d text, Json.Spelling d text → sh.Repeats inside d → ∃ fault, sh.codec.ofJson text = .error fault
  reported : ∀ ms text, Json.Spelling (.record ms) text → (∀ m ∈ ms, sh.TakesMember (Frame.top .json).inner m) →
    ∀ f ∈ sh.fields, Data.Repeats f.name ms →
      ∃ g ∈ sh.fields, Data.Repeats g.name ms ∧ sh.codec.ofJson text = .error (.duplicateField g.name)

/-- A record type that refuses repeated fields refuses texts with them, and reports one if it comes that far. -/
lemma Codec.Refuses.refusesRepeats {α : Type} {sh : Shape α} {inside : List (String × (Data → Prop))}
    (re : sh.codec.Refuses (sh.Repeats inside)) : sh.RefusesRepeats inside where
  refused _ _ spelling := re.text spelling
  reported ms text spelling taken f mem more := by
    obtain ⟨g, gmem, again, reported⟩ := Shape.decode_of_repeats taken mem more
    refine ⟨g, gmem, again, ?_⟩
    rw [Codec.ofJson_of_decode spelling]
    exact congrArg (Codec.finish true) reported

/-- Texts of values that give the tag more than once, or what the kind of the tag holds, are refused; and if each member
can be taken by itself then this is reported. -/
structure Value.RefusesRepeats : Prop where
  refused : ∀ d text, Json.Spelling d text → Repeats d → ∃ fault, codec.ofJson text = .error fault
  tag : ∀ ms text, Json.Spelling (.record ms) text → (∀ m ∈ ms, SplitsMember (Frame.top .json).inner m) →
    Data.Repeats tagField ms → codec.ofJson text = .error (.duplicateField tagField)
  content : ∀ ms text k, Json.Spelling (.record ms) text → (∀ m ∈ ms, SplitsMember (Frame.top .json).inner m) →
    Data.given tagField ms = [.string (Kind.tag k)] → (∀ x ∈ Data.given k.field ms, ∃ s, x = .string s) →
    Data.Repeats k.field ms → codec.ofJson text = .error (.duplicateField k.field)

/-- Values refuse texts with a repeated tag or repeated content, and report it if they come that far. -/
lemma Value.refusesRepeats : RefusesRepeats where
  refused _ _ spelling := refuses.text spelling
  tag ms text spelling splits more := by
    rw [Codec.ofJson_of_decode spelling]
    exact congrArg (Codec.finish true) (decode_of_repeated_tag splits more)
  content ms text k spelling splits tagged texts more := by
    obtain ⟨-, -, -, whole⟩ := spelling.read
    rw [Codec.ofJson_of_decode spelling]
    exact congrArg (Codec.finish true)
      (decode_of_repeated_content splits (Data.membersWhole_iff.mp whole) tagged texts more)

/-! ## Main statement -/

/-- What becomes of keys that come more than once: objects that are taken for maps or settings, and those that are taken
for records or values. -/
structure HandlesRepeats : Prop where
  /-- The maps of a model are what inserting all entries in order makes of them, however the text is written. -/
  models : ∀ d text, Json.Spelling d text → ∀ id es cs is, Model.Lists d id es cs is →
    Model.shape.codec.ofJson text = .ok ⟨id, .ofList es, .ofList cs, .ofList is⟩
  /-- Any lists of entries have such a text. -/
  listed_models : ∀ id es cs is, Model.shape.codec.ofJson (Model.listing id es cs is).text =
    .ok ⟨id, .ofList es, .ofList cs, .ofList is⟩
  /-- Each key stands where it came first, with the value that came last. -/
  maps : ∀ {α : Type} (es : List (String × α)), (OrderedMap.ofList es).Folds es
  /-- Under their own names and roles the entries make the model to which they are added one after another. -/
  added : ∀ (id : Uuid) (es : List Entity) (cs : List Collection) (is : List (String × String)),
    is.foldl (fun m i => m.addImport i.1 i.2) (cs.foldl Model.addCollection (es.foldl Model.addEntity (.empty id))) =
      ⟨id, .ofList (es.map fun e => (e.name, e)), .ofList (cs.map fun c => (c.role, c)), .ofList is⟩
  /-- The settings of a registry are what inserting all entries in order makes of them. -/
  registries : ∀ d text, Json.Spelling d text → ∀ id es, Registry.Lists d id es →
    Registry.shape.codec.ofJson text = .ok ⟨id, .ofList es⟩
  /-- Any list of settings has such a text. -/
  listed_registries : ∀ id es, Registry.shape.codec.ofJson (Registry.listing id es).text = .ok ⟨id, .ofList es⟩
  /-- Each name has the text that came last, in the order of the names. -/
  settings : ∀ es, (Settings.ofList es).Folds es
  /-- A name is given more than once just if members in two places give it, whatever they hold. -/
  places : ∀ name ms, Data.Repeats name ms ↔
    ∃ before d between d' after, ms = before ++ (some name, d) :: (between ++ (some name, d') :: after)
  values : Value.RefusesRepeats
  contents : ∀ k, (Value.shape k).RefusesRepeats []
  properties : Property.shape.RefusesRepeats Property.inside
  entities : Entity.shape.RefusesRepeats Entity.inside
  collections : Collection.shape.RefusesRepeats Collection.inside
  model_records : Model.shape.RefusesRepeats Model.inside
  query_imports : QueryImport.shape.RefusesRepeats []
  scope_keys : ScopeKey.shape.RefusesRepeats []
  registry_records : Registry.shape.RefusesRepeats []
  configs : Config.shape.RefusesRepeats []
  specs : Spec.shape.RefusesRepeats Spec.inside
  /-- Reading a spec refuses repeated fields likewise. -/
  spec_texts : ∀ d text, Json.Spelling d text → Spec.shape.Repeats Spec.inside d →
    ∃ fault, Spec.ofJson text = .error (.config (.unreadable "domain model spec" fault))

/-- Maps and settings are taken from objects in which keys come more than once: a model's maps are filled with the
entries in order, as when they are added one after another, and settings have the last text of each name, in the order
of the names. Records and values are not: all types refuse objects that give a field or a tag more than once. -/
theorem repeated_keys : HandlesRepeats where
  models d text spelling id es cs is li := Shape.ofJson_of_decode spelling (Model.decode_of_lists li)
  listed_models id es cs is := Shape.ofJson_text_of_decode (Model.decode_of_lists (Model.lists_listing id es cs is))
  maps := OrderedMap.folds_ofList
  added := Model.foldl_add
  registries d text spelling id es li := Shape.ofJson_of_decode spelling (Registry.decode_of_lists li)
  listed_registries id es := Shape.ofJson_text_of_decode (Registry.decode_of_lists (Registry.lists_listing id es))
  settings := Settings.folds_ofList
  places _ _ := Data.repeats_iff
  values := Value.refusesRepeats
  contents k := ((Value.shape k).refuses (by cases k <;> decide) (List.forall_mem_nil _)).refusesRepeats
  properties := Property.refuses.refusesRepeats
  entities := Entity.refuses.refusesRepeats
  collections := Collection.refuses.refusesRepeats
  model_records := Model.refuses.refusesRepeats
  query_imports := (QueryImport.shape.refuses (by decide) (List.forall_mem_nil _)).refusesRepeats
  scope_keys := (ScopeKey.shape.refuses (by decide) (List.forall_mem_nil _)).refusesRepeats
  registry_records := (Registry.shape.refuses (by decide) (List.forall_mem_nil _)).refusesRepeats
  configs := (Config.shape.refuses (by decide) (List.forall_mem_nil _)).refusesRepeats
  specs := Spec.refuses.refusesRepeats
  spec_texts d text spelling repeats := by
    obtain ⟨fault, refused⟩ := Spec.refuses.text spelling repeats
    refine ⟨fault, ?_⟩
    rw [Spec.ofJson, refused]
    rfl

open Json in
/-- A setting that comes again after a smaller name, and a namespace that is given again as it was. -/
theorem repeated_keys_given_again :
    Registry.shape.codec.ofJson (Registry.listing (.ofSerial 0) [("b", "1"), ("a", "2"), ("b", "3")]).text =
      .ok ⟨.ofSerial 0, .ofList [("a", "2"), ("b", "3")]⟩ ∧
    ScopeKey.shape.codec.ofJson "\x7b\"namespace\":\"n\",\"unit\":\"u\",\"namespace\":\"n\"\x7d" =
      .error (.duplicateField "namespace") := by
  have spelled : Spelling
      (.record [(some "namespace", .string "n"), (some "unit", .string "u"), (some "namespace", .string "n")])
      "\x7b\"namespace\":\"n\",\"unit\":\"u\",\"namespace\":\"n\"\x7d" :=
    ⟨[], .record <|
      .moreMembers (.member .none (.of_plain _ ['n', 'a', 'm', 'e', 's', 'p', 'a', 'c', 'e'] rfl) .none <|
        .string (.of_plain _ ['n'] rfl)) .none <|
      .moreMembers (.member .none (.of_plain _ ['u', 'n', 'i', 't'] rfl) .none <|
        .string (.of_plain _ ['u'] rfl)) .none <|
      .lastMember (.member .none (.of_plain _ ['n', 'a', 'm', 'e', 's', 'p', 'a', 'c', 'e'] rfl) .none <|
        .string (.of_plain _ ['n'] rfl)) .none, .none⟩
  refine ⟨(repeated_keys.listed_registries _ _).trans ?_, ?_⟩
  · have same : Settings.ofList [("b", "1"), ("a", "2"), ("b", "3")] = Settings.ofList [("a", "2"), ("b", "3")] := by
      decide +kernel
    rw [same]
  · obtain ⟨g, mem, again, reported⟩ := repeated_keys.scope_keys.reported _ _ spelled (by
      simp only [List.forall_mem_cons]
      exact ⟨⟨_, rfl, fun _ => ⟨_, rfl⟩⟩, ⟨_, rfl, fun _ => ⟨_, rfl⟩⟩, ⟨_, rfl, fun _ => ⟨_, rfl⟩⟩,
        List.forall_mem_nil _⟩)
      _ (List.mem_cons_self ..) (by decide)
    simp only [ScopeKey.shape, List.mem_cons, List.not_mem_nil, or_false] at mem
    obtain rfl | rfl := mem
    · exact reported
    · exact absurd again (by decide)

end ModelScopes
