import ModelScopes.Proofs.Codec.AnyLayout
import ModelScopes.Proofs.Codec.RoundTrip
import ModelScopes.Proofs.Toml.Spelling

/-!
# Values written as documents

A document has pairs of names and values, and below them tables and arrays of tables under names of their own. The
tree that its sections build is the record of the same names, so a document that lays out a spec or a configuration
gives it, as its JSON text does. The main statement is `toml_and_json_agree`.
-/

namespace ModelScopes.Toml

/-! ## Documents -/

/-- The pairs of a table, as the reader finds them. -/
def pairsOf (ps : List (String × Data)) : Pairs :=
  ps.map fun p => ([p.1], p.2)

/-- The members that pairs give. -/
def membersOf (ps : List (String × Data)) : List (Option String × Data) :=
  ps.map fun p => (some p.1, p.2)

/-- What stands below the pairs of a document: a table, or the tables of an array. -/
inductive Block where
  | table (key : String) (ps : List (String × Data))
  | tables (key : String) (first : List (String × Data)) (rest : List (List (String × Data)))

namespace Block

/-- The name of the table or array. -/
def key : Block → String
  | table k _ | tables k _ _ => k

/-- The tables. -/
def bodies : Block → List (List (String × Data))
  | table _ ps => [ps]
  | tables _ first rest => first :: rest

/-- The sections, each with its own header. -/
def sections : Block → List Section
  | table k ps => [⟨.table [k], pairsOf ps⟩]
  | tables k first rest => (first :: rest).map fun ps => ⟨.item [k], pairsOf ps⟩

/-- The table as a record, or the tables as a list of records. -/
def data : Block → Data
  | table _ ps => .record (membersOf ps)
  | tables _ first rest => .list ((first :: rest).map fun ps => .record (membersOf ps))

end Block

/-- A document of pairs, tables and arrays of tables. -/
structure Document where
  pairs : List (String × Data)
  blocks : List Block

namespace Document

/-- The sections from the first line on. -/
def sections (doc : Document) : List Section :=
  ⟨.document, pairsOf doc.pairs⟩ :: doc.blocks.flatMap Block.sections

/-- The members of the document. -/
def members (doc : Document) : List (Option String × Data) :=
  membersOf doc.pairs ++ doc.blocks.map fun b => (some b.key, b.data)

/-- No name is given twice, neither in the document nor in one of its tables. -/
structure Distinct (doc : Document) : Prop where
  names : (doc.pairs.map Prod.fst ++ doc.blocks.map Block.key).Nodup
  bodies : ∀ b ∈ doc.blocks, ∀ ps ∈ b.bodies, (ps.map Prod.fst).Nodup

end Document

/-- Pairs make members with keys. -/
lemma keyed_membersOf (ps : List (String × Data)) : Data.Keyed (membersOf ps) := by
  intro m mem
  obtain ⟨p, -, rfl⟩ := List.mem_map.mp mem
  rfl

/-- All members of a document have keys. -/
lemma Document.keyed (doc : Document) : Data.Keyed doc.members := by
  intro m mem
  obtain here | below := List.mem_append.mp mem
  · exact keyed_membersOf _ m here
  · obtain ⟨b, -, rfl⟩ := List.mem_map.mp below
    rfl

/-! ## Trees -/

/-- The entries that pairs leave in a tree. -/
def entriesOf (ps : List (String × Data)) : Entries :=
  ps.map fun p => (p.1, .value p.2)

/-- What a block leaves in a tree. -/
def Block.node : Block → Node
  | .table _ ps => .table .written (entriesOf ps)
  | .tables _ first rest => .tables ((first :: rest).map entriesOf)

/-- Entries are taken as members one by one. -/
lemma entriesToData_eq_map (es : Entries) : entriesToData es = es.map fun e => (some e.1, e.2.toData) := by
  induction es with
  | nil => rfl
  | cons e es ih => rw [entriesToData, ih]; rfl

/-- Tables are taken as records one by one. -/
lemma tablesToData_eq_map (items : List Entries) :
    tablesToData items = items.map fun es => .record (entriesToData es) := by
  induction items with
  | nil => rfl
  | cons es items ih => rw [tablesToData, ih]; rfl

/-- The entries of pairs are taken as the members of these pairs. -/
lemma entriesToData_entriesOf (ps : List (String × Data)) : entriesToData (entriesOf ps) = membersOf ps := by
  rw [entriesToData_eq_map, entriesOf, List.map_map]
  rfl

/-- What a block builds is taken as the block's data. -/
lemma Block.toData_node (b : Block) : b.node.toData = b.data := by
  cases b with
  | table k ps => rw [node, Node.toData, entriesToData_entriesOf]; rfl
  | tables k first rest =>
    rw [node, Node.toData, tablesToData_eq_map, List.map_map]
    simp only [Function.comp_def, entriesToData_entriesOf]
    rfl

namespace Entries

variable {key : String} {es : Entries} {n n' : Node}

/-- Nothing is found under a key that no entry has. -/
lemma get?_of_not_mem (new : key ∉ es.map Prod.fst) : es.get? key = none := by
  rw [get?, List.find?_eq_none.mpr]
  · rfl
  · intro e mem eq
    exact new (List.mem_map.mpr ⟨e, mem, eq_of_beq eq⟩)

/-- A new entry is found behind the others. -/
lemma get?_concat (new : key ∉ es.map Prod.fst) (n : Node) : get? key (es ++ [(key, n)]) = some n := by
  rw [get?, List.find?_append, List.find?_eq_none.mpr]
  · simp
  · intro e mem eq
    exact new (List.mem_map.mpr ⟨e, mem, eq_of_beq eq⟩)

/-- A new entry can be replaced where it is. -/
lemma replace_concat (new : key ∉ es.map Prod.fst) (n n' : Node) :
    replace key n' (es ++ [(key, n)]) = es ++ [(key, n')] := by
  rw [replace, List.map_append, List.map_cons, if_pos (beq_self_eq_true key)]
  congr 1
  refine (List.map_congr_left fun e mem => if_neg fun eq => ?_).trans (List.map_id _)
  exact new (List.mem_map.mpr ⟨e, mem, eq_of_beq eq⟩)

/-- Pairs with new names are added in order. -/
lemma addPairs_pairsOf {ps : List (String × Data)} :
    ∀ {es : Entries}, (es.map Prod.fst ++ ps.map Prod.fst).Nodup →
      es.addPairs (pairsOf ps) = some (es ++ entriesOf ps) := by
  induction ps with
  | nil =>
    intro es _
    rw [entriesOf, List.map_nil, List.append_nil]
    rfl
  | cons p ps ih =>
    intro es nodup
    have new : p.1 ∉ es.map Prod.fst := by
      rw [List.nodup_append] at nodup
      exact fun mem => nodup.2.2 p.1 mem p.1 (List.mem_cons_self ..) rfl
    have added : es.addPair ([p.1], p.2) = some (es ++ [(p.1, Node.value p.2)]) := by
      show addValue false p.1 p.2 .written es = _
      rw [addValue, if_neg (by decide), get?_of_not_mem new]
    have later : ((es ++ [(p.1, Node.value p.2)]).map Prod.fst ++ ps.map Prod.fst).Nodup := by
      rw [List.map_append, List.append_assoc]
      exact nodup
    show (es.addPair ([p.1], p.2)).bind _ = _
    rw [added, Option.bind_some]
    refine (ih later).trans ?_
    rw [List.append_assoc]
    rfl

end Entries

/-- Pairs with different names fill an empty table. -/
lemma addPairs_nil {ps : List (String × Data)} (nodup : (ps.map Prod.fst).Nodup) :
    Entries.addPairs [] (pairsOf ps) = some (entriesOf ps) :=
  Entries.addPairs_pairsOf nodup

variable {k : String} {es : Entries}

/-- The tables of an array under one name are put behind one another. -/
lemma foldlM_items (new : k ∉ es.map Prod.fst) {rest : List (List (String × Data))}
    (nodup : ∀ ps ∈ rest, (ps.map Prod.fst).Nodup) :
    ∀ items : List Entries,
      (rest.map fun ps => Section.mk (.item [k]) (pairsOf ps)).foldlM addSection (es ++ [(k, .tables items)]) =
        some (es ++ [(k, .tables (items ++ rest.map entriesOf))]) := by
  induction rest with
  | nil =>
    intro items
    rw [List.map_nil, List.map_nil, List.append_nil]
    rfl
  | cons ps rest ih =>
    intro items
    obtain ⟨first, later⟩ := List.forall_mem_cons.mp nodup
    have added : addSection (es ++ [(k, .tables items)]) ⟨.item [k], pairsOf ps⟩ =
        some (es ++ [(k, .tables (items ++ [entriesOf ps]))]) := by
      show writeItem k (pairsOf ps) (es ++ [(k, .tables items)]) = _
      rw [writeItem, Entries.get?_concat new]
      simp only [addPairs_nil first, Option.map_some, Entries.replace_concat new]
    rw [List.map_cons, List.foldlM_cons, added]
    refine (ih later (items ++ [entriesOf ps])).trans ?_
    rw [List.append_assoc]
    rfl

/-- A block is put behind what the tree has so far. -/
lemma foldlM_block {b : Block} (new : b.key ∉ es.map Prod.fst) (nodup : ∀ ps ∈ b.bodies, (ps.map Prod.fst).Nodup) :
    b.sections.foldlM addSection es = some (es ++ [(b.key, b.node)]) := by
  have absent : es.get? b.key = none := Entries.get?_of_not_mem new
  cases b with
  | table k ps =>
    have added : addSection es ⟨.table [k], pairsOf ps⟩ = some (es ++ [(k, .table .written (entriesOf ps))]) := by
      show writeTable k (pairsOf ps) es = _
      rw [writeTable, show es.get? k = none from absent]
      simp only [addPairs_nil (nodup ps (List.mem_cons_self ..)), Option.map_some]
    rw [Block.sections, List.foldlM_cons, added]
    rfl
  | tables k first rest =>
    obtain ⟨nodup_first, nodup_rest⟩ := List.forall_mem_cons.mp nodup
    have added : addSection es ⟨.item [k], pairsOf first⟩ = some (es ++ [(k, .tables [entriesOf first])]) := by
      show writeItem k (pairsOf first) es = _
      rw [writeItem, show es.get? k = none from absent]
      simp only [addPairs_nil nodup_first, Option.map_some]
    rw [Block.sections, List.map_cons, List.foldlM_cons, added]
    exact foldlM_items new nodup_rest [entriesOf first]

/-- Blocks with different names are added one behind the other. -/
lemma foldlM_blocks {blocks : List Block} (bodies : ∀ b ∈ blocks, ∀ ps ∈ b.bodies, (ps.map Prod.fst).Nodup) :
    ∀ es : Entries, (es.map Prod.fst ++ blocks.map Block.key).Nodup →
      (blocks.flatMap Block.sections).foldlM addSection es = some (es ++ blocks.map fun b => (b.key, b.node)) := by
  induction blocks with
  | nil =>
    intro es _
    rw [List.map_nil, List.append_nil]
    rfl
  | cons b blocks ih =>
    intro es nodup
    obtain ⟨first, later⟩ := List.forall_mem_cons.mp bodies
    have new : b.key ∉ es.map Prod.fst := by
      rw [List.nodup_append] at nodup
      exact fun mem => nodup.2.2 b.key mem b.key (List.mem_cons_self ..) rfl
    have next : ((es ++ [(b.key, b.node)]).map Prod.fst ++ blocks.map Block.key).Nodup := by
      rw [List.map_append, List.append_assoc]
      exact nodup
    rw [List.flatMap_cons, List.foldlM_append, foldlM_block new first]
    refine (ih later _ next).trans ?_
    rw [List.append_assoc]
    rfl

/-- A document without a name given twice builds the record of its members. -/
theorem Document.buildTree {doc : Document} (di : doc.Distinct) :
    (buildTree doc.sections).map (fun tree => Data.record (entriesToData tree)) = some (.record doc.members) := by
  have nodup := di.names
  have pairs : addSection [] ⟨.document, pairsOf doc.pairs⟩ = some (entriesOf doc.pairs) :=
    addPairs_nil (List.nodup_append.mp nodup).1
  have names : (entriesOf doc.pairs).map Prod.fst = doc.pairs.map Prod.fst := by
    rw [entriesOf, List.map_map]
    rfl
  have blocks := foldlM_blocks di.bodies (entriesOf doc.pairs) (by rw [names]; exact nodup)
  rw [Toml.buildTree, sections, List.foldlM_cons, pairs]
  show ((doc.blocks.flatMap Block.sections).foldlM addSection (entriesOf doc.pairs)).map _ = _
  rw [blocks, Option.map_some, entriesToData_eq_map, List.map_append, ← entriesToData_eq_map, entriesToData_entriesOf,
    List.map_map]
  simp only [Function.comp_def, Block.toData_node]
  rfl

/-! ## Room for documents -/

/-- The data is whole, with at most `n` containers inside one another. -/
def Within (n : Nat) (d : Data) : Prop :=
  d.isWhole ∧ d.nesting ≤ n

/-- What is nested at most so deep is nested no deeper than more. -/
lemma Within.mono {n n' : Nat} {d : Data} (h : Within n d) (le : n ≤ n') : Within n' d :=
  ⟨h.1, h.2.trans le⟩

/-- A list is one deeper than its items. -/
lemma within_list {n : Nat} {ds : List Data} (h : ∀ d ∈ ds, Within n d) : Within (n + 1) (.list ds) :=
  ⟨Data.allWhole_iff.mpr fun d mem => (h d mem).1,
    Nat.succ_le_succ (Data.itemsNesting_le_iff.mpr fun d mem => (h d mem).2)⟩

/-- A record is one deeper than what its members hold. -/
lemma within_record {n : Nat} {ms : List (Option String × Data)} (h : ∀ m ∈ ms, Within n m.2) :
    Within (n + 1) (.record ms) :=
  ⟨Data.membersWhole_iff.mpr fun m mem => (h m mem).1,
    Nat.succ_le_succ (Data.membersNesting_le_iff.mpr fun m mem => (h m mem).2)⟩

/-- Scalars have no containers. -/
lemma SpellsScalar.within {d : Data} {cs r : List Char} (sp : SpellsScalar d cs r) : Within 0 d := by
  cases sp <;> exact ⟨rfl, Nat.le_refl 0⟩

/-- Items of a list are scalars. -/
lemma SpellsItems.within {ds : List Data} {cs r : List Char} (sp : SpellsItems ds cs r) : ∀ d ∈ ds, Within 0 d := by
  induction sp with
  | none => exact List.forall_mem_nil _
  | last _ sp => exact List.forall_mem_singleton.mpr sp.within
  | more _ sp _ _ ih => exact List.forall_mem_cons.mpr ⟨sp.within, ih⟩

/-- A value of a pair is a scalar or a list of scalars. -/
lemma SpellsValue.within {d : Data} {cs r : List Char} (sp : SpellsValue d cs r) : Within 1 d := by
  cases sp with
  | scalar sp => exact sp.within.mono (Nat.zero_le 1)
  | list sp => exact within_list sp.within

/-- All values in a document are scalars and arrays of scalars. -/
lemma Lines.within {ps : Pairs} {secs : List Section} {cs : List Char} (li : Lines ps secs cs) :
    (∀ p ∈ ps, Within 1 p.2) ∧ ∀ sec ∈ secs, ∀ p ∈ sec.pairs, Within 1 p.2 := by
  induction li with
  | done => exact ⟨List.forall_mem_nil _, List.forall_mem_nil _⟩
  | blank _ _ _ ih => exact ih
  | pair _ _ value _ _ ih => exact ⟨List.forall_mem_cons.mpr ⟨value.within, ih.1⟩, ih.2⟩
  | table _ _ _ _ ih | item _ _ _ _ ih => exact ⟨List.forall_mem_nil _, List.forall_mem_cons.mpr ih⟩

/-- A table is at most two containers deep. -/
lemma within_membersOf {ps : List (String × Data)} (h : ∀ p ∈ pairsOf ps, Within 1 p.2) :
    Within 2 (.record (membersOf ps)) := by
  refine within_record fun m mem => ?_
  obtain ⟨p, hp, rfl⟩ := List.mem_map.mp mem
  exact h _ (List.mem_map_of_mem hp)

/-- A block is at most three containers deep. -/
lemma Block.within {b : Block} (h : ∀ sec ∈ b.sections, ∀ p ∈ sec.pairs, Within 1 p.2) : Within 3 b.data := by
  cases b with
  | table k ps => exact (within_membersOf (h _ (List.mem_cons_self ..))).mono (by decide)
  | tables k first rest =>
    refine within_list fun d mem => ?_
    obtain ⟨ps, hps, rfl⟩ := List.mem_map.mp mem
    exact within_membersOf (h _ (List.mem_map_of_mem hps))

/-- There is room for what a document gives. -/
lemma Document.holds {doc : Document} {text : String} (sp : Spelling doc.sections text) :
    (Frame.top .toml).Holds (.record doc.members) := by
  obtain ⟨ps, more, cs, eq, lines, -⟩ := sp
  obtain ⟨head, tail⟩ := List.cons.inj eq
  obtain ⟨pairs, sections⟩ := lines.within
  have all : Within 4 (.record doc.members) := by
    refine within_record fun m mem => ?_
    obtain here | below := List.mem_append.mp mem
    · obtain ⟨p, hp, rfl⟩ := List.mem_map.mp here
      have same : pairsOf doc.pairs = ps := congrArg Section.pairs head
      have listed : ([p.1], p.2) ∈ ps := same ▸ List.mem_map_of_mem hp
      exact (pairs _ listed).mono (by decide)
    · obtain ⟨b, hb, rfl⟩ := List.mem_map.mp below
      exact Block.within fun sec hsec => sections sec (tail ▸ List.mem_flatMap.mpr ⟨b, hb, hsec⟩)
  have enough : 4 ≤ maxDepth := by decide
  exact ⟨all.1, by simpa [Frame.top] using all.2.trans enough⟩

/-- A codec that fits a layout takes the value from every document that lays it out. -/
theorem Document.ofToml {α : Type} {c : Codec α} {L : Layout α} (fi : c.Fits L) {doc : Document} {text : String}
    (di : doc.Distinct) (sp : Spelling doc.sections text) {v : α} (whole : L.whole v (.record doc.members)) :
    c.ofToml text = .ok v := by
  rw [Codec.ofToml, sp.read?, buildTree di]
  exact fi.whole _ v _ (holds sp) whole

end ModelScopes.Toml

namespace ModelScopes

open Toml in
/-- A document that lays out a spec, its query imports in an array of tables, gives the spec, as its JSON text does. A
document that lays out a configuration, its settings in a table, gives the configuration unless its namespace is
blank. -/
theorem toml_and_json_agree :
    (∀ (s : Spec) (doc : Document) (text : String), doc.Distinct → Spelling doc.sections text →
      Spec.layout.whole s (.record doc.members) →
        Spec.ofToml text = .ok s ∧ Spec.ofJson (Spec.shape.codec.text s) = .ok s) ∧
    ∀ (c : Config) (doc : Document) (text : String), doc.Distinct → Spelling doc.sections text →
      Config.layout.whole c (.record doc.members) →
        Config.ofToml text = if Text.allBlank c.namespaceName then .error (.config .blankNamespace) else .ok c := by
  refine ⟨fun s doc text di sp whole => ⟨?_, ?_⟩, fun c doc text di sp whole => ?_⟩
  · rw [Spec.ofToml, Document.ofToml Spec.fits di sp whole]
    rfl
  · rw [Spec.ofJson, Spec.faithful.restores s]
    rfl
  · rw [Config.ofToml, Document.ofToml Config.fits di sp whole]
    simp only [Config.validate]
    split <;> rfl

open Toml in
/-- An escaped character in an array, a comment, and a query import below its header; and settings below theirs, with a
namespace of one blank. -/
theorem toml_and_json_agree_below_headers :
    Spec.ofToml "xml_mappings = [\"\\u0041\"]#\n[[extra_query_imports]]\nimported_class=\"c\"\nname=\"n\"" =
      .ok { Spec.empty with resources := ["A"], imports := [⟨"n", ⟨"c"⟩⟩] } ∧
    Config.ofToml "namespace=\" \"\n[registry_settings]\n\"k\"=\"v\"" = .error (.config .blankNamespace) := by
  have letter (c : Char) (plain : isPlain c) (other : c ≠ '"' ∧ c ≠ '\\') (r : List Char) :
      SpellsText [c] (c :: '"' :: r) r :=
    .plain plain other.1 other.2 .done
  have bare (c : Char) (cs : List Char) (first : isBare c) (others : cs.all isBare) (r : List Char) :
      SpellsName (String.ofList (c :: cs)) (c :: cs ++ r) r :=
    .bare first (List.all_eq_true.mp others)
  have spec : Spelling
      (Document.sections ⟨[("xml_mappings", .list [.string "A"])],
        [.tables "extra_query_imports" [("imported_class", .string "c"), ("name", .string "n")] []]⟩)
      "xml_mappings = [\"\\u0041\"]#\n[[extra_query_imports]]\nimported_class=\"c\"\nname=\"n\"" := by
    refine ⟨_, _, _, rfl, ?_, .inl rfl⟩
    refine .pair ⟨.none, bare 'x' "ml_mappings".toList rfl rfl _, .more rfl .none⟩ (.more rfl .none)
      (.list <| .last .none (.string <| .short rfl .done) .none) (.comment .none .lf) ?_
    refine .item .none ⟨.none, bare 'e' "xtra_query_imports".toList rfl rfl _, .none⟩ (.line .lf) ?_
    refine .pair ⟨.none, bare 'i' "mported_class".toList rfl rfl _, .none⟩ .none
      (.scalar <| .string <| letter 'c' rfl (by decide) _) (.line .lf) ?_
    exact .pair ⟨.none, bare 'n' "ame".toList rfl rfl _, .none⟩ .none
      (.scalar <| .string <| letter 'n' rfl (by decide) _) .text .done
  have config : Spelling
      (Document.sections ⟨[("namespace", .string " ")], [.table "registry_settings" [("k", .string "v")]]⟩)
      "namespace=\" \"\n[registry_settings]\n\"k\"=\"v\"" := by
    refine ⟨_, _, _, rfl, ?_, .inl rfl⟩
    refine .pair ⟨.none, bare 'n' "amespace".toList rfl rfl _, .none⟩ .none
      (.scalar <| .string <| letter ' ' rfl (by decide) _) (.line .lf) ?_
    refine .table .none ⟨.none, bare 'r' "egistry_settings".toList rfl rfl _, .none⟩ (.line .lf) ?_
    exact .pair ⟨.none, .quoted <| letter 'k' rfl (by decide) _, .none⟩ .none
      (.scalar <| .string <| letter 'v' rfl (by decide) _) .text .done
  refine ⟨(toml_and_json_agree.1 _ _ _ ⟨by decide, by decide⟩ spec ⟨_, rfl, Document.keyed _, ?_⟩).1,
    (toml_and_json_agree.2 ⟨" ", true, .insert .empty "k" "v"⟩ _ _ ⟨by decide, by decide⟩ config
      ⟨_, rfl, Document.keyed _, ?_⟩).trans (if_pos rfl)⟩
  · simp only [Spec.fieldLayouts, List.forall_mem_cons]
    refine ⟨.inr ⟨rfl, rfl, rfl⟩, .inr ⟨rfl, rfl, rfl⟩, .inr ⟨rfl, rfl, rfl⟩, .inr ⟨rfl, rfl, rfl⟩,
      .inr ⟨rfl, rfl, rfl⟩, .inl ⟨_, rfl, _, rfl, .cons rfl .nil⟩,
      .inl ⟨_, rfl, _, rfl, .cons ⟨_, rfl, keyed_membersOf _, ?_⟩ .nil⟩, .inr ⟨rfl, rfl, rfl⟩, .inr ⟨rfl, rfl, rfl⟩,
      .inr ⟨rfl, rfl, rfl⟩, List.forall_mem_nil _⟩
    simp only [QueryImport.fieldLayouts, List.forall_mem_cons]
    exact ⟨.inl ⟨_, rfl, rfl⟩, .inl ⟨_, rfl, rfl⟩, List.forall_mem_nil _⟩
  · simp only [Config.fieldLayouts, List.forall_mem_cons]
    exact ⟨.inl ⟨_, rfl, rfl⟩, .inr ⟨rfl, rfl, rfl⟩, .inl ⟨_, rfl, [("k", "v")], .refl _, rfl⟩, List.forall_mem_nil _⟩

end ModelScopes
