import ModelScopes.Proofs.Toml.Documents

/-!
# A document for every value

Whatever characters its texts hold, every spec and every configuration can be written as a document: a character that
may not stand for itself is escaped by digits. The main statements are `Spec.exists_document` and
`Config.exists_document`.
-/

namespace ModelScopes.Toml

/-! ## Spellings -/

/-- The values of documents: texts, truth values and lists of texts. -/
inductive Simple : Data → Prop
  | text (s : String) : Simple (.string s)
  | flag (b : Bool) : Simple (.bool b)
  | texts (ss : List String) : Simple (.list (ss.map .string))

/-- Texts that are made from values make a simple list. -/
lemma Simple.mapped {α : Type} (text : α → String) (vs : List α) :
    Simple (.list (vs.map fun v => .string (text v))) := by
  have texts := Simple.texts (vs.map text)
  rwa [List.map_map] at texts

/-- A character of seven bits is escaped by its two low digits. -/
lemma escaped?_toChar {c : Char} (low : c.toNat < 0x80) :
    escaped? ['0', '0', Text.Hex.toChar (Fin.ofNat 16 (c.toNat / 16)), Text.Hex.toChar (Fin.ofNat 16 c.toNat)] =
      some c := by
  have zero : Text.Hex.ofChar? '0' = some 0 := rfl
  have digits : 16 * (c.toNat / 16 % 16) + c.toNat % 16 = c.toNat := by omega
  simp [escaped?, zero, Text.Hex.ofChar?_toChar, Text.Hex.value, digits, scalar?, show c.toNat < 0xd800 by omega]

/-- Every text can be spelled before any rest. -/
lemma exists_text (r : List Char) : ∀ s : List Char, ∃ cs, SpellsText s cs r
  | [] => ⟨_, .done⟩
  | c :: s => by
    obtain ⟨cs, sp⟩ := exists_text r s
    by_cases plain : isPlain c ∧ c ≠ '"' ∧ c ≠ '\\'
    · exact ⟨_, .plain plain.1 plain.2.1 plain.2.2 sp⟩
    · refine ⟨_, .short (escaped?_toChar ?_) sp⟩
      by_contra high
      refine plain ⟨?_, ?_, ?_⟩
      · simp only [isPlain, Bool.or_eq_true, Bool.and_eq_true, decide_eq_true_eq, bne_iff_ne]
        omega
      all_goals
        rintro rfl
        exact high (by decide)

/-- Every name can be spelled as a key. -/
lemma exists_key (k : String) (r : List Char) : ∃ cs, SpellsKey k cs r := by
  obtain ⟨cs, sp⟩ := exists_text r k.toList
  have name := SpellsName.quoted sp
  rw [String.ofList_toList] at name
  exact ⟨_, .none, name, .none⟩

/-- Every text can be spelled as a value. -/
lemma exists_string (s : String) (r : List Char) : ∃ cs, SpellsScalar (.string s) cs r := by
  obtain ⟨cs, sp⟩ := exists_text r s.toList
  have scalar := SpellsScalar.string sp
  rw [String.ofList_toList] at scalar
  exact ⟨_, scalar⟩

/-- Any texts can be spelled as items of a list. -/
lemma exists_items (r : List Char) : ∀ ss : List String, ∃ cs, SpellsItems (ss.map .string) cs r
  | [] => ⟨_, .none .none⟩
  | s :: ss => by
    obtain ⟨cs, later⟩ := exists_items r ss
    obtain ⟨cs', here⟩ := exists_string s (',' :: cs)
    exact ⟨cs', .more .none here .none later⟩

/-- Every simple value can be spelled. -/
lemma Simple.exists_value {d : Data} (si : Simple d) (r : List Char) : ∃ cs, SpellsValue d cs r := by
  cases si with
  | text s =>
    obtain ⟨cs, sp⟩ := exists_string s r
    exact ⟨cs, .scalar sp⟩
  | flag b =>
    cases b with
    | true => exact ⟨_, .scalar .yes⟩
    | false => exact ⟨_, .scalar .no⟩
  | texts ss =>
    obtain ⟨cs, sp⟩ := exists_items r ss
    exact ⟨_, .list sp⟩

/-- Pairs are written above the lines that follow them. -/
lemma exists_pairs {secs : List Section} {cs : List Char} (li : Lines [] secs cs) :
    ∀ ps : List (String × Data), (∀ p ∈ ps, Simple p.2) → ∃ cs, Lines (pairsOf ps) secs cs
  | [], _ => ⟨cs, li⟩
  | (k, d) :: ps, si => by
    obtain ⟨here, later⟩ := List.forall_mem_cons.mp si
    obtain ⟨cs₁, lines⟩ := exists_pairs li ps later
    obtain ⟨cs₂, value⟩ := here.exists_value ('\n' :: cs₁)
    obtain ⟨cs₃, key⟩ := exists_key k ('=' :: cs₂)
    exact ⟨cs₃, .pair key .none value (.line .lf) lines⟩

/-- A section under a name of one part, with values that can be written. -/
def Writable (sec : Section) : Prop :=
  ∃ k ps, (sec.header = .table [k] ∨ sec.header = .item [k]) ∧ sec.pairs = pairsOf ps ∧ ∀ p ∈ ps, Simple p.2

/-- Sections all of whose values can be spelled can be spelled line by line. -/
lemma exists_sections : ∀ secs : List Section, (∀ sec ∈ secs, Writable sec) → ∃ cs, Lines [] secs cs
  | [], _ => ⟨_, .done⟩
  | ⟨header, pairs⟩ :: secs, wr => by
    obtain ⟨⟨k, ps, shape, same, si⟩, later⟩ := List.forall_mem_cons.mp wr
    obtain ⟨cs, lines⟩ := exists_sections secs later
    obtain ⟨cs₁, lines⟩ := exists_pairs lines ps si
    obtain rfl : pairs = pairsOf ps := same
    obtain rfl | rfl : header = .table [k] ∨ header = .item [k] := shape
    · obtain ⟨cs₂, key⟩ := exists_key k (']' :: '\n' :: cs₁)
      exact ⟨_, .table .none key (.line .lf) lines⟩
    · obtain ⟨cs₂, key⟩ := exists_key k (']' :: ']' :: '\n' :: cs₁)
      exact ⟨_, .item .none key (.line .lf) lines⟩

/-- The sections of a block of simple values can be spelled. -/
lemma Block.writable {b : Block} (si : ∀ ps ∈ b.bodies, ∀ p ∈ ps, Simple p.2) : ∀ sec ∈ b.sections, Writable sec := by
  cases b with
  | table k ps => exact List.forall_mem_singleton.mpr ⟨k, ps, .inl rfl, rfl, si ps (List.mem_cons_self ..)⟩
  | tables k first rest =>
    intro sec mem
    obtain ⟨ps, hps, rfl⟩ := List.mem_map.mp mem
    exact ⟨k, ps, .inr rfl, rfl, si ps hps⟩

/-- Every document of simple values is spelled by some text. -/
theorem Document.exists_spelling {doc : Document} (pairs : ∀ p ∈ doc.pairs, Simple p.2)
    (blocks : ∀ b ∈ doc.blocks, ∀ ps ∈ b.bodies, ∀ p ∈ ps, Simple p.2) : ∃ text, Spelling doc.sections text := by
  obtain ⟨cs, lines⟩ := exists_sections (doc.blocks.flatMap Block.sections) fun sec mem => by
    obtain ⟨b, hb, hsec⟩ := List.mem_flatMap.mp mem
    exact Block.writable (blocks b hb) sec hsec
  obtain ⟨cs, lines⟩ := exists_pairs lines doc.pairs pairs
  exact ⟨String.ofList cs, _, _, cs, rfl, lines, .inl String.toList_ofList⟩

end ModelScopes.Toml

namespace ModelScopes

open Toml

/-! ## Specs and configurations -/

/-- A query import as the pairs of a table. -/
def QueryImport.pairs (i : QueryImport) : List (String × Data) :=
  [("name", .string i.name), ("imported_class", .string i.importedClass.name)]

/-- Query imports as the tables of an array, if there are any. -/
def QueryImport.blocks : List QueryImport → List Block
  | [] => []
  | i :: rest => [.tables "extra_query_imports" i.pairs (rest.map pairs)]

/-- A spec as a document, with all its fields in order but its query imports last. -/
def Spec.document (s : Spec) : Document where
  pairs :=
    [("annotated_package_names", .list (s.packages.map fun n => .string n)),
     ("standard_models", .list (s.bundles.map fun b => .string b.name)),
     ("model_descriptor_classes", .list (s.descriptors.map fun n => .string n)),
     ("annotated_classes", .list (s.classes.map fun c => .string c.name)),
     ("annotated_class_names", .list (s.classNames.map fun n => .string n)),
     ("xml_mappings", .list (s.resources.map fun n => .string n)),
     ("extra_query_import_classes", .list (s.importClasses.map fun c => .string c.name)),
     ("override_cache_strategy", .bool s.overrideCache),
     ("concurrency_strategy", .string s.strategy)]
  blocks := QueryImport.blocks s.imports

/-- A configuration as a document, with its settings in a table. -/
def Config.document (c : Config) : Document where
  pairs := [("namespace", .string c.namespaceName), ("inject_scope", .bool c.injectScope)]
  blocks := [.table "registry_settings" (c.settings.entries.map fun e => (e.1, .string e.2))]

/-- A list is laid out by what its values are written as. -/
lemma Layout.list_whole {α : Type} {L : Layout α} {write : α → Data} (h : ∀ v, L.whole v (write v)) (vs : List α) :
    (Layout.list L).whole vs (.list (vs.map write)) :=
  ⟨_, rfl, List.forall₂_map_right_iff.mpr (List.forall₂_same.mpr fun v _ => h v)⟩

/-- A query import is laid out by its pairs. -/
lemma QueryImport.layout_pairs (i : QueryImport) : QueryImport.layout.whole i (.record (membersOf i.pairs)) := by
  refine ⟨_, rfl, keyed_membersOf _, ?_⟩
  simp only [fieldLayouts, List.forall_mem_cons]
  exact ⟨.inl ⟨_, rfl, rfl⟩, .inl ⟨_, rfl, rfl⟩, List.forall_mem_nil _⟩

/-- The tables that are written for query imports are those of their pairs. -/
lemma QueryImport.bodies_blocks {is : List QueryImport} :
    ∀ b ∈ blocks is, ∀ ps ∈ b.bodies, ∃ i : QueryImport, ps = i.pairs := by
  cases is with
  | nil => exact List.forall_mem_nil _
  | cons i rest =>
    refine List.forall_mem_singleton.mpr (List.forall_mem_cons.mpr ⟨⟨i, rfl⟩, fun ps mem => ?_⟩)
    obtain ⟨j, -, rfl⟩ := List.mem_map.mp mem
    exact ⟨j, rfl⟩

namespace Spec

/-- The document of a spec gives no name twice. -/
lemma document_distinct (s : Spec) : s.document.Distinct where
  names := by
    cases imports : s.imports <;> simp [document, imports, QueryImport.blocks, Block.key]
  bodies b hb ps hps := by
    obtain ⟨i, rfl⟩ := QueryImport.bodies_blocks b hb ps hps
    simp [QueryImport.pairs]

/-- The document of a spec has simple values only. -/
lemma document_simple (s : Spec) : (∀ p ∈ s.document.pairs, Simple p.2) ∧
    ∀ b ∈ s.document.blocks, ∀ ps ∈ b.bodies, ∀ p ∈ ps, Simple p.2 := by
  refine ⟨?_, fun b hb ps hps => ?_⟩
  · simp only [document, List.forall_mem_cons]
    exact ⟨.mapped .., .mapped .., .mapped .., .mapped .., .mapped .., .mapped .., .mapped .., .flag _, .text _, List.forall_mem_nil _⟩
  · obtain ⟨i, rfl⟩ := QueryImport.bodies_blocks b hb ps hps
    simp only [QueryImport.pairs, List.forall_mem_cons]
    exact ⟨.text _, .text _, List.forall_mem_nil _⟩

/-- Query imports stand below the pairs, and nothing else does. -/
lemma given_document (s : Spec) (name : String) :
    Data.given name s.document.members = Data.given name (membersOf s.document.pairs) ++
      if name = "extra_query_imports" then (QueryImport.blocks s.imports).map Block.data else [] := by
  rw [Document.members, Data.given_append]
  congr 1
  show Data.given name ((QueryImport.blocks s.imports).map fun b => (some b.key, b.data)) = _
  cases s.imports with
  | nil => split <;> rfl
  | cons i rest =>
    split
    case isTrue eq => subst eq; rfl
    case isFalse ne => exact Data.given_cons_of_ne (Ne.symm ne) _ _

/-- The document of a spec lays it out. -/
lemma layout_document (s : Spec) : layout.whole s (.record s.document.members) := by
  refine ⟨_, rfl, Document.keyed _, ?_⟩
  have texts (ss : List String) : (Layout.list .text).whole ss (.list (ss.map fun n => .string n)) :=
    Layout.list_whole (fun _ => rfl) ss
  have imports : (FieldLayout.of "extra_query_imports" false (.list QueryImport.layout) Spec.imports
      fun x s => { s with imports := x }).Laid shape.blank s s.document.members := by
    cases imports : s.imports with
    | nil =>
      refine .inr ⟨?_, rfl, ?_⟩
      · rw [given_document, imports]
        rfl
      · simp only [FieldLayout.of, imports]
        rfl
    | cons i rest =>
      have tables : Block.data (.tables "extra_query_imports" i.pairs (rest.map QueryImport.pairs)) =
          .list ((i :: rest).map fun i => .record (membersOf i.pairs)) := by
        rw [Block.data, List.map_cons, List.map_map]
        rfl
      refine .inl ⟨.list ((i :: rest).map fun i => .record (membersOf i.pairs)), ?_, ?_⟩
      · rw [given_document, imports, ← tables]
        rfl
      · simp only [FieldLayout.of, imports]
        exact Layout.list_whole QueryImport.layout_pairs _
  simp only [fieldLayouts, List.forall_mem_cons]
  refine ⟨.inl ⟨_, ?_, texts _⟩, .inl ⟨_, ?_, Layout.list_whole (fun _ => rfl) _⟩, .inl ⟨_, ?_, texts _⟩,
    .inl ⟨_, ?_, Layout.list_whole (fun _ => rfl) _⟩, .inl ⟨_, ?_, texts _⟩, .inl ⟨_, ?_, texts _⟩, imports,
    .inl ⟨_, ?_, Layout.list_whole (fun _ => rfl) _⟩, .inl ⟨_, ?_, rfl⟩, .inl ⟨_, ?_, rfl⟩, List.forall_mem_nil _⟩
  all_goals
    rw [given_document]
    rfl

/-- Every spec is written by some document, which is read as the spec. -/
theorem exists_document (s : Spec) : ∃ text, Spelling s.document.sections text ∧ Spec.ofToml text = .ok s := by
  obtain ⟨text, sp⟩ := Document.exists_spelling s.document_simple.1 s.document_simple.2
  refine ⟨text, sp, ?_⟩
  rw [ofToml, Document.ofToml fits s.document_distinct sp s.layout_document]
  rfl

end Spec

/-- Every configuration is written by some document, which is read as the configuration. -/
theorem Config.exists_document (c : Config) :
    ∃ text, Spelling c.document.sections text ∧ shape.codec.ofToml text = .ok c := by
  have distinct : c.document.Distinct := by
    refine ⟨by simp [document, Block.key], List.forall_mem_singleton.mpr (List.forall_mem_singleton.mpr ?_)⟩
    rw [List.map_map]
    exact c.settings.nodup
  have laid : layout.whole c (.record c.document.members) := by
    refine ⟨_, rfl, Document.keyed _, ?_⟩
    simp only [fieldLayouts, List.forall_mem_cons]
    refine ⟨.inl ⟨_, rfl, rfl⟩, .inl ⟨_, rfl, rfl⟩, .inl ⟨_, rfl, c.settings.entries, .refl _, ?_⟩, List.forall_mem_nil _⟩
    simp [Block.data, membersOf]
  obtain ⟨text, sp⟩ := @Document.exists_spelling c.document
    (by simp only [document, List.forall_mem_cons]; exact ⟨.text _, .flag _, List.forall_mem_nil _⟩)
    (by simp [document, Block.bodies, Simple.text])
  exact ⟨text, sp, Document.ofToml fits distinct sp laid⟩

end ModelScopes
