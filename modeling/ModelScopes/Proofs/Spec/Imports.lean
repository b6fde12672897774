import ModelScopes.Proofs.Spec.Content

/-!
# Query imports of a spec

A spec lists imports under names of their own and classes that are imported under their simple names. All of them share
one space of names, with the imports that descriptors bring: a build by the spec succeeds just if no name stands for two
classes, and the model then has each import once, at the place where it came first. Otherwise the build is refused at the
first import whose name stands for another class already. The main statement is `Script.agree_or_clash`.
-/

namespace ModelScopes

/-! ## Lists of imports -/

/-- No name stands for two classes. -/
def Agree (es : List (String × String)) : Prop :=
  ∀ x ∈ es, ∀ y ∈ es, x.1 = y.1 → x.2 = y.2

instance : DecidablePred Agree := fun _ => inferInstanceAs (Decidable (∀ x ∈ _, ∀ y ∈ _, _))

/-- At some place of the list a name stands for another class than before, where the name first stood for `existing`,
and up to this place no name stands for two classes. -/
def FirstClash (es : List (String × String)) (name existing : String) : Prop :=
  ∃ before c after, es = before ++ (name, c) :: after ∧ Agree before ∧
    before.find? (fun e => e.1 == name) = some (name, existing) ∧ existing ≠ c

section

variable {es es' : List (String × String)} {x : String × String} {name c : String}

/-- An empty list agrees. -/
lemma agree_nil : Agree [] := nofun

/-- A part of a list that agrees agrees. -/
lemma Agree.of_subset (ag : Agree es) (sub : es' ⊆ es) : Agree es' :=
  fun x hx y hy => ag x (sub hx) y (sub hy)

/-- A list goes on to agree if the new entry has the class that its name has stood for. -/
lemma Agree.concat (ag : Agree es) (same : ∀ y ∈ es, y.1 = x.1 → y.2 = x.2) : Agree (es ++ [x]) := by
  intro y hy z hz eq
  rcases List.mem_append.mp hy with old | new <;> rcases List.mem_append.mp hz with old' | new'
  · exact ag y old z old' eq
  · cases List.mem_singleton.mp new'
    exact same y old eq
  · cases List.mem_singleton.mp new
    exact (same z old' eq.symm).symm
  · cases List.mem_singleton.mp new
    cases List.mem_singleton.mp new'
    rfl

/-- In a list that agrees the first entry of a name is any entry of the name. -/
lemma Agree.find? (ag : Agree es) (mem : (name, c) ∈ es) : es.find? (fun e => e.1 == name) = some (name, c) := by
  cases found : es.find? fun e => e.1 == name with
  | none => exact absurd (List.find?_eq_none.mp found _ mem) (by simp)
  | some e =>
    have named : e.1 = name := by simpa using List.find?_some found
    have same : e.2 = c := ag e (List.mem_of_find?_eq_some found) _ mem named
    rw [← named, ← same]

/-- A list with a first clash does not agree. -/
lemma FirstClash.not_agree (fc : FirstClash es name c) : ¬ Agree es := by
  obtain ⟨before, d, after, rfl, -, first, differ⟩ := fc
  intro ag
  have old : (name, c) ∈ before ++ (name, d) :: after := List.mem_append_left _ (List.mem_of_find?_eq_some first)
  have new : (name, d) ∈ before ++ (name, d) :: after := List.mem_append_right _ List.mem_cons_self
  exact differ (ag _ old _ new rfl)

end

/-! ## Imports that come with a spec -/

/-- The imports that a contribution brings: a name, and the class that it stands for. -/
def Contribution.imports : Contribution → List (String × String)
  | .queryImport name c => [(name, c.name)]
  | .package _ | .bundle _ | .mappedClass _ | .className _ | .resource _ => []

namespace Spec

/-- The imports that the spec lists: those under names of their own, and then classes under their simple names. -/
def listed (s : Spec) : List (String × String) :=
  s.imports.map (fun i => (i.name, i.importedClass.name)) ++ s.importClasses.map (fun c => (c.simpleName, c.name))

/-- The imports that the descriptors of the spec bring. -/
def brought (descriptors : DescriptorRegistry) (s : Spec) : List (String × String) :=
  s.descriptors.flatMap fun name => (descriptors.contributed name).flatMap Contribution.imports

/-- The spec without the imports that it lists. -/
def withoutImports (s : Spec) : Spec :=
  { s with imports := [], importClasses := [] }

/-- The contributions that the imports come to that the spec lists. -/
def importing (s : Spec) : List Contribution :=
  s.imports.map (fun i => .queryImport i.name i.importedClass) ++
    s.importClasses.map (fun c => .queryImport c.simpleName c)

/-- The imports that the spec lists are the end of its plan. -/
lemma plan_eq (s : Spec) : s.plan = s.withoutImports.plan ++ s.importing.map .contribute := by
  simp [plan, withoutImports, importing, Function.comp_def]

/-- Without the imports that the spec lists there are those of its descriptors. -/
lemma imports_plan (s : Spec) (descriptors : DescriptorRegistry) :
    (s.withoutImports.plan.flatMap (·.contributed descriptors)).flatMap Contribution.imports =
      s.brought descriptors := by
  have nothing : ∀ {β : Type} (bs : List β), (bs.flatMap fun _ => ([] : List (String × String))) = [] := fun bs =>
    List.flatMap_eq_nil_iff.mpr fun _ _ => rfl
  simp [plan, withoutImports, brought, List.flatMap_map, List.flatMap_assoc, PlanStep.contributed,
    Contribution.imports, nothing]

end Spec

/-! ## Models that bind imports -/

/-- Putting what is there already changes nothing. -/
lemma OrderedMap.put_of_entry {α : Type} {key : String} {a : α} {es : List (String × α)} (mem : (key, a) ∈ es)
    (nodup : (es.map Prod.fst).Nodup) : put key a es = es := by
  have same : ∀ e ∈ es, (if e.1 = key then (key, a) else e) = e := by
    intro e he
    split
    case isTrue named => exact List.inj_on_of_nodup_map nodup mem he named.symm
    case isFalse => rfl
  rw [put_of_mem (List.mem_map_of_mem mem) nodup, List.map_congr_left same, List.map_id']

namespace Model

/-- The imports of the model are those of the list, each once and at the place where it came first, and no name stands
for two classes. -/
structure Binds (m : Model) (es : List (String × String)) : Prop where
  agree : Agree es
  entries : m.imports.entries = es.eraseDups

variable {m : Model} {es : List (String × String)} {name c : String}

/-- The empty model has no imports. -/
lemma binds_empty (id : Uuid) : (empty id).Binds [] :=
  ⟨agree_nil, rfl⟩

/-- A name is bound to a class just when the list has this entry. -/
lemma Binds.import?_eq_some_iff (bi : m.Binds es) : m.import? name = some c ↔ (name, c) ∈ es := by
  rw [import?, OrderedMap.get?_eq_some_iff, bi.entries, List.mem_eraseDups]

/-- An import that is listed already is bound again to the same class, and stays where it is. -/
lemma Binds.addImport_again (bi : m.Binds es) (mem : (name, c) ∈ es) : (m.addImport name c).Binds (es ++ [(name, c)]) where
  agree := bi.agree.of_subset (List.append_subset.mpr ⟨List.Subset.refl _, List.cons_subset.mpr ⟨mem, nofun⟩⟩)
  entries := by
    have there : (name, c) ∈ m.imports.entries := by rwa [bi.entries, List.mem_eraseDups]
    rw [OrderedMap.eraseDups_concat, if_pos mem, ← bi.entries]
    exact OrderedMap.put_of_entry there m.imports.nodup

/-- An import under a new name comes last. -/
lemma Binds.addImport_new (bi : m.Binds es) (new : m.import? name = none) :
    (m.addImport name c).Binds (es ++ [(name, c)]) := by
  have unlisted : ∀ d, (name, d) ∉ es := by
    intro d mem
    cases new.symm.trans (bi.import?_eq_some_iff.mpr mem)
  refine ⟨bi.agree.concat fun y hy named => ?_, ?_⟩
  · obtain ⟨n, d⟩ := y
    cases named
    exact absurd hy (unlisted d)
  · rw [OrderedMap.eraseDups_concat, if_neg (unlisted c), ← bi.entries]
    have absent : name ∉ m.imports.entries.map Prod.fst := by
      intro mem
      obtain ⟨e, he, rfl⟩ := List.mem_map.mp mem
      rw [bi.entries, List.mem_eraseDups] at he
      exact unlisted e.2 he
    exact OrderedMap.put_of_not_mem c absent

/-- A merge leaves the imports as they are. -/
lemma imports_merge (m : Model) (b : Bindings) : (m.merge b).imports = m.imports := by
  rw [merge, foldl_addEntity, foldl_addCollection]

/-- A cache pass leaves the imports as they are. -/
lemma imports_applyCache (m : Model) (enabled : Bool) (strategy : String) :
    (m.applyCache enabled strategy).1.imports = m.imports := by
  unfold applyCache
  split <;> rfl

end Model

namespace Recorder

variable {catalog : ClassCatalog} {refusals : Refusals} {descriptors : DescriptorRegistry} {r r' : Recording}
  {es : List (String × String)}

/-- A collector takes an import just if its name does not stand for another class, and otherwise says for which. -/
lemma addImport_cases (bi : r.model.Binds es) (name : String) (c : ClassName) :
    (∃ r', addImport name c r = (.ok (), r') ∧ r'.model.Binds (es ++ [(name, c.name)])) ∨
      ∃ existing, addImport name c r = (.error (.duplicateImport name existing), r) ∧ (name, existing) ∈ es ∧
        existing ≠ c.name := by
  cases bound : r.model.import? name with
  | none => exact .inl ⟨{ r with model := r.model.addImport name c.name }, by simp [addImport, bound], bi.addImport_new bound⟩
  | some existing =>
    have mem := bi.import?_eq_some_iff.mp bound
    by_cases same : existing = c.name
    · refine .inl ⟨{ r with model := r.model.addImport name c.name }, by simp [addImport, bound, same], ?_⟩
      exact bi.addImport_again (same ▸ mem)
    · exact .inr ⟨existing, by simp [addImport, bound, same], mem, same⟩

/-- Adding a class leaves the imports as they are. -/
lemma imports_addClass {name : String} (h : addClass catalog name r = (.ok (), r')) :
    r'.model.imports = r.model.imports := by
  unfold addClass at h
  split at h
  case h_1 => cases h
  case h_2 =>
    cases h
    exact r.model.imports_merge _

/-- A contribution that is taken brings its imports into the model. -/
lemma binds_add {x : Contribution} (bi : r.model.Binds es) (h : add catalog refusals x r = (.ok (), r')) :
    r'.model.Binds (es ++ x.imports) := by
  -- every contribution but an import brings none and leaves those of the model
  have kept : x.imports = [] → r'.model.imports = r.model.imports → r'.model.Binds (es ++ x.imports) := by
    intro none same
    rw [none, List.append_nil]
    exact ⟨bi.agree, same ▸ bi.entries⟩
  cases x with
  | package | resource =>
    simp only [add] at h
    split at h
    case isTrue => cases h
    case isFalse =>
      cases h
      exact kept rfl rfl
  | bundle b =>
    simp only [add] at h
    split at h
    case isTrue => cases h
    case isFalse =>
      cases h
      exact kept rfl (r.model.imports_merge b.bindings)
  | mappedClass c => exact kept rfl (imports_addClass (r := r.note _) h)
  | className name => exact kept rfl (imports_addClass (r := r.note _) h)
  | queryImport name c =>
    have noted : (r.note (.queryImport name c)).model.Binds es := bi
    obtain ⟨r₁, taken, binds⟩ | ⟨existing, refused, -⟩ := addImport_cases noted name c
    · cases taken.symm.trans h
      exact binds
    · cases refused.symm.trans h

/-- Imports are taken in turn, up to the first whose name stands for another class. -/
lemma contribute_imports {cs : List Contribution} (only : ∀ x ∈ cs, ∃ name c, x = .queryImport name c)
    (bi : r.model.Binds es) :
    (∃ r', (shop catalog refusals descriptors).contribute cs r = (.ok (), r') ∧
      r'.model.Binds (es ++ cs.flatMap Contribution.imports)) ∨
    ∃ name existing r', (shop catalog refusals descriptors).contribute cs r =
      (.error (.sources (.duplicateImport name existing)), r') ∧
      FirstClash (es ++ cs.flatMap Contribution.imports) name existing := by
  induction cs generalizing r es with
  | nil => exact .inl ⟨r, rfl, by rwa [List.flatMap_nil, List.append_nil]⟩
  | cons x rest ih =>
    obtain ⟨name, c, rfl⟩ := only _ List.mem_cons_self
    have noted : (r.note (.queryImport name c)).model.Binds es := bi
    have split : es ++ (Contribution.queryImport name c :: rest).flatMap Contribution.imports =
        (es ++ [(name, c.name)]) ++ rest.flatMap Contribution.imports := by
      simp [Contribution.imports]
    rw [split]
    obtain ⟨r₁, taken, binds⟩ | ⟨existing, refused, mem, differ⟩ := addImport_cases noted name c
    · have goes_on : (shop catalog refusals descriptors).contribute (.queryImport name c :: rest) r = _ :=
        Workshop.contribute_of_ok taken rest
      rw [goes_on]
      exact ih (fun x hx => only x (List.mem_cons_of_mem _ hx)) binds
    · have stops : (shop catalog refusals descriptors).contribute (.queryImport name c :: rest) r = _ :=
        Workshop.contribute_of_error refused rest
      refine .inr ⟨name, existing, _, stops, es, c.name, rest.flatMap Contribution.imports, ?_, bi.agree, ?_, differ⟩
      · rw [List.append_assoc, List.singleton_append]
      · exact bi.agree.find? mem

/-- Contributions that are all taken bring their imports into the model. -/
lemma binds_contribute {cs : List Contribution} (bi : r.model.Binds es)
    (h : (shop catalog refusals descriptors).contribute cs r = (.ok (), r')) :
    r'.model.Binds (es ++ cs.flatMap Contribution.imports) := by
  induction cs generalizing r es with
  | nil =>
    cases h
    rwa [List.flatMap_nil, List.append_nil]
  | cons c rest ih =>
    obtain ⟨r₁, first, later⟩ := Workshop.contribute_cons_ok h
    rw [List.flatMap_cons, ← List.append_assoc]
    exact ih (binds_add bi first) later

end Recorder

/-! ## Main statement -/

namespace Script

variable {env : Setting} {spec : Spec} {w : ScriptWorld}

/-- What a build by the spec comes to, all of whose imports are `es`, in order: a model that has them if no name stands
for two classes, and otherwise the first clash. -/
def ComesOf (es : List (String × String)) (r : Except ScopeError Model) : Prop :=
  (∃ m, r = .ok m ∧ m.Binds es) ∨
    ∃ name existing, r = .error (.sources (.duplicateImport name existing)) ∧ FirstClash es name existing

namespace ComesOf

variable {es : List (String × String)} {r : Except ScopeError Model} {m : Model}

/-- A model that a build came to has all the imports. -/
lemma binds (co : ComesOf es r) (h : r = .ok m) : m.Binds es := by
  obtain ⟨m', eq, bi⟩ | ⟨name, existing, eq, -⟩ := co
  · cases eq.symm.trans h
    exact bi
  · cases eq.symm.trans h

/-- A build comes to a model just when no name stands for two classes. -/
lemma succeeds_iff (co : ComesOf es r) : (∃ m, r = .ok m) ↔ Agree es := by
  constructor
  · rintro ⟨m, h⟩
    exact (co.binds h).agree
  · intro ag
    obtain ⟨m, eq, -⟩ | ⟨name, existing, -, clash⟩ := co
    · exact ⟨m, eq⟩
    · exact absurd ag clash.not_agree

/-- If a name stands for two classes then the build is refused at the first clash. -/
lemma refused (co : ComesOf es r) (differ : ¬ Agree es) :
    ∃ name existing, r = .error (.sources (.duplicateImport name existing)) ∧ FirstClash es name existing := by
  obtain ⟨m, -, bi⟩ | clash := co
  · exact absurd bi.agree differ
  · exact clash

end ComesOf

/-- If all but the listed imports is taken then the build comes to what the imports come to. -/
lemma comesOf_buildSpec (others : ∃ m, (buildSpec env spec.withoutImports w).1 = .ok m) :
    ComesOf (spec.brought env.descriptors ++ spec.listed) (buildSpec env spec w).1 := by
  obtain ⟨m₁, built⟩ := others
  have listed : spec.importing.flatMap Contribution.imports = spec.listed := by
    rw [Spec.importing, Spec.listed, List.flatMap_append, List.flatMap_map, List.flatMap_map, List.map_eq_flatMap,
      List.map_eq_flatMap]
    rfl
  have only : ∀ x ∈ spec.importing, ∃ name c, x = .queryImport name c := by
    intro x hx
    rcases List.mem_append.mp hx with named | simple
    · obtain ⟨i, -, rfl⟩ := List.mem_map.mp named
      exact ⟨_, _, rfl⟩
    · obtain ⟨c, -, rfl⟩ := List.mem_map.mp simple
      exact ⟨_, _, rfl⟩
  cases assembled : (Recorder.shop env.catalog env.refusals env.descriptors).assemble spec.withoutImports
      ⟨w.host.log, .empty (.ofSerial w.serial)⟩ with
  | mk o r =>
    cases o with
    | error e =>
      rw [buildSpec_of_error assembled] at built
      cases built
    | ok m =>
      obtain ⟨carried, unrefused, -⟩ := Recorder.assemble_eq_ok_iff.mp assembled
      -- the recording after all that is not listed, and what the listed imports make of it
      have binds := Recorder.binds_contribute (Model.binds_empty _) (Recorder.contribute_of_performAll carried)
      rw [List.nil_append, Spec.imports_plan] at binds
      have imports := Workshop.performAll_append_of_ok carried (spec.importing.map .contribute)
      rw [← spec.plan_eq, Workshop.performAll_contributions] at imports
      rw [← listed]
      obtain ⟨r', taken, binds'⟩ | ⟨name, existing, r', refused, clash⟩ :=
        @Recorder.contribute_imports env.catalog env.refusals env.descriptors _ _ _ only binds
      · rw [taken] at imports
        rw [buildSpec_of_ok (Recorder.assemble_eq_ok_iff.mpr ⟨imports, unrefused, rfl⟩)]
        refine .inl ⟨_, rfl, binds'.agree, ?_⟩
        rw [Model.imports_applyCache]
        exact binds'.entries
      · rw [refused] at imports
        have failed : (Recorder.shop env.catalog env.refusals env.descriptors).assemble spec
            ⟨w.host.log, .empty (.ofSerial w.serial)⟩ = (.error (.sources (.duplicateImport name existing)), r') := by
          rw [Workshop.assemble_of_error imports]
        rw [buildSpec_of_error failed]
        exact .inr ⟨name, existing, rfl, clash⟩

/-- A build by a spec, all of whose other contributions are taken, succeeds just if no name of its imports stands for two
classes, and then the model has the imports in order, each once. Otherwise it is refused at the first clash. So neither
whether it succeeds nor what a name stands for depends on the order in which the spec lists its imports. The imports are
those that the spec lists, behind those of its descriptors if they bring any, which class lists and bundles do not. -/
theorem agree_or_clash (others : ∃ m, (buildSpec env spec.withoutImports w).1 = .ok m) :
    let es := spec.brought env.descriptors ++ spec.listed
    let r := (buildSpec env spec w).1
    ((∀ name ∈ spec.descriptors, ∀ c ∈ env.descriptors.contributed name, c.imports = []) → es = spec.listed) ∧
    ((∃ m, r = .ok m) ↔ Agree es) ∧
    (∀ m, r = .ok m → m.imports.entries = es.eraseDups) ∧
    (¬ Agree es → ∃ name existing, r = .error (.sources (.duplicateImport name existing)) ∧
      FirstClash es name existing) ∧
    ∀ spec' : Spec, spec'.withoutImports = spec.withoutImports → (∀ x, x ∈ spec'.listed ↔ x ∈ spec.listed) →
      ((∃ m, (buildSpec env spec' w).1 = .ok m) ↔ ∃ m, r = .ok m) ∧
      ∀ m m', r = .ok m → (buildSpec env spec' w).1 = .ok m' → ∀ name, m'.import? name = m.import? name := by
  intro es r
  have came : ComesOf es r := comesOf_buildSpec others
  refine ⟨fun plain => ?_, came.succeeds_iff, fun m h => (came.binds h).entries, came.refused,
    fun spec' same listed => ?_⟩
  · have none : spec.brought env.descriptors = [] :=
      List.flatMap_eq_nil_iff.mpr fun name mem => List.flatMap_eq_nil_iff.mpr (plain name mem)
    rw [show es = _ from congrArg (· ++ spec.listed) none, List.nil_append]
  have came' : ComesOf (spec'.brought env.descriptors ++ spec'.listed) (buildSpec env spec' w).1 :=
    comesOf_buildSpec (same ▸ others)
  -- both specs have the same descriptors, so that the same imports come with them
  have brought : spec'.withoutImports.brought env.descriptors = spec.withoutImports.brought env.descriptors :=
    congrArg _ same
  have members : ∀ x, x ∈ spec'.brought env.descriptors ++ spec'.listed ↔ x ∈ es := by
    intro x
    rw [List.mem_append, List.mem_append, listed]
    exact or_congr_left (iff_of_eq (congrArg (x ∈ ·) brought))
  constructor
  · rw [came'.succeeds_iff, came.succeeds_iff]
    exact ⟨fun ag => ag.of_subset fun x hx => (members x).mpr hx, fun ag => ag.of_subset fun x hx => (members x).mp hx⟩
  · intro m m' h h' name
    refine Option.ext fun c => ?_
    rw [(came'.binds h').import?_eq_some_iff, (came.binds h).import?_eq_some_iff, members]

/-- The pet is imported twice, which is harmless. The inner class of another outer one has the simple name of one that was
imported before it. -/
theorem agree_or_clash_inner :
    let env : Setting :=
      ⟨[("Pet", ⟨[.root "Pet" []], []⟩)], .none, DescriptorRegistry.empty.register "pets" (.ok (.ofClasses ["Pet"])), []⟩
    let spec : Spec :=
      { Spec.empty with
        bundles := [.contacts]
        descriptors := ["pets"]
        imports := [⟨"Pet", ⟨"zoo.Pet"⟩⟩, ⟨"Inner", ⟨"x.Inner"⟩⟩]
        importClasses := [⟨"zoo.Pet"⟩, ⟨"y.Outer$Inner"⟩, ⟨"z.Pet"⟩] }
    (∃ m, (buildSpec env spec.withoutImports (.start .start)).1 = .ok m) ∧
      (buildSpec env spec (.start .start)).1 = .error (.sources (.duplicateImport "Inner" "x.Inner")) ∧
      FirstClash (spec.brought env.descriptors ++ spec.listed) "Inner" "x.Inner" := by
  intro env spec
  have others : ∃ m, (buildSpec env spec.withoutImports (.start .start)).1 = .ok m := by
    have taken : (buildSpec env spec.withoutImports (.start .start)).1.toOption.isSome := by decide +kernel
    cases built : (buildSpec env spec.withoutImports (.start .start)).1 with
    | error e =>
      rw [built] at taken
      cases taken
    | ok m => exact ⟨m, rfl⟩
  have refused : (buildSpec env spec (.start .start)).1 =
      .error (.sources (.duplicateImport "Inner" "x.Inner")) := by
    decide +kernel
  obtain ⟨name, existing, eq, clash⟩ := (agree_or_clash others).2.2.2.1 (by decide +kernel)
  cases refused.symm.trans eq
  exact ⟨others, refused, clash⟩

end Script

end ModelScopes
