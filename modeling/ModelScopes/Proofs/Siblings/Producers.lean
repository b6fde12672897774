import ModelScopes.Proofs.Extension.SpecScopes
import ModelScopes.Proofs.Siblings.Replies

/-!
# Units do not interfere

Producers that follow specs are used for any key, and have a collector that writes down what all of them do. All others
are used for one key each, and go by what they remember of their own calls. Then each unit is replied what it is replied
without the others, whatever fails, is torn down or is made again for these. The main statement is
`Session.siblings_apart`.
-/

namespace ModelScopes

variable {V ε : Type}

/-! ## Models but for their identity -/

namespace Model

/-- The identity is no part of the content. -/
@[simp] lemma content_withId (m : Model) (id : Uuid) : (m.withId id).content = m.content := rfl

/-- An edit does not look at the identity. -/
lemma edit_withId (m : Model) (id : Uuid) (e : Edit) : ((m.withId id).edit e).1 = (m.edit e).1.withId id := by
  cases e with
  | apply enabled strategy => exact applyCache_withId m id enabled strategy
  | _ => rfl

/-- Edits do not look at the identity. -/
lemma editAll_withId (m : Model) (id : Uuid) (edits : List Edit) :
    ((m.withId id).editAll edits).1 = (m.editAll edits).1.withId id := by
  induction edits generalizing m with
  | nil => rfl
  | cons e rest ih =>
    rw [editAll, editAll]
    simp only [edit_withId, ih]

/-- Adding entities does not look at the identity. -/
lemma addEntities_withId (m : Model) (id : Uuid) (es : List Entity) :
    es.foldl addEntity (m.withId id) = (es.foldl addEntity m).withId id :=
  List.foldl_hom (withId · id) fun _ _ => rfl

/-- A model that is made from the empty one is the same, but for its identity, whatever identity the empty one has. -/
lemma content_of_withId {f : Model → Model} (hf : ∀ m id, f (m.withId id) = (f m).withId id) (id id' : Uuid) :
    (f (.empty id)).content = (f (.empty id')).content := by
  have same : f (.empty id') = (f (.empty id)).withId id' := hf (.empty id) id'
  rw [same, content_withId]

end Model

namespace Script

/-! ## Producers of which each is used for one key -/

/-- Producers of which those that follow a spec build as in a script and are used for all keys. The others leave scopes
and storages alone. What comes of a call of one of these depends only on the settings and on what is remembered of the
calls for its key, but for the identity of the model. Nothing but its own calls and those of others for its key changes
what is remembered. -/
structure KeepsApart (env : Setting) (produce : Produce Producer Bench) (uses : ScopeKey → Producer → Prop)
    (memory : ScopeKey → Bench → V) : Prop where
  spec : ∀ s registry w, produce (.spec s) registry w = buildSpec env s w
  specs : ∀ key s, uses key (.spec s)
  unrecorded : ∀ key b log n, memory key { b with log := log, collections := n } = memory key b
  scopes : ∀ p registry w, p.spec? = none → (produce p registry w).2.scopes = w.scopes
  storages : ∀ p registry w, p.spec? = none → (produce p registry w).2.storages = w.storages
  own : ∀ key p (registry registry' : Registry) w w', p.spec? = none → uses key p →
    registry.settings = registry'.settings → memory key w.host = memory key w'.host →
    (produce p registry w).1.map Model.content = (produce p registry' w').1.map Model.content ∧
      memory key (produce p registry w).2.host = memory key (produce p registry' w').2.host
  apart : ∀ key key' p registry w, p.spec? = none → uses key p → key' ≠ key →
    memory key' (produce p registry w).2.host = memory key' w.host

variable {env : Setting} {produce : Produce Producer Bench} {uses : ScopeKey → Producer → Prop}
  {memory : ScopeKey → Bench → V}

/-- A build by a spec comes to what the spec describes, and is remembered by no producer. -/
lemma KeepsApart.build_spec (ka : KeepsApart env produce uses memory) (s : Spec) (registry : Registry)
    (w : ScriptWorld) :
    (produce (.spec s) registry w).1.map Model.content = (env.described s).map Model.content ∧
    (produce (.spec s) registry w).2.scopes = w.scopes ∧ (produce (.spec s) registry w).2.storages = w.storages ∧
    ∀ key, memory key (produce (.spec s) registry w).2.host = memory key w.host := by
  obtain ⟨outcome, sight, storages⟩ := buildSpec_behind env s w
  obtain ⟨scopes, -, host⟩ := Sight.mk.inj sight
  rw [ka.spec]
  refine ⟨?_, scopes, storages, fun key => ?_⟩
  · rw [outcome]
    cases env.described s <;> rfl
  · rw [host]
    exact ka.unrecorded key _ _ _

/-- Producers that keep apart are separate in what is remembered. -/
lemma KeepsApart.separate (ka : KeepsApart env produce uses memory) : produce.Separate uses memory where
  scopes p registry w := by
    cases h : p.spec? with
    | none => exact ka.scopes p registry w h
    | some s =>
      rw [eq_spec_of_spec? h]
      exact (ka.build_spec s registry w).2.1
  storages p registry w := by
    cases h : p.spec? with
    | none => exact ka.storages p registry w h
    | some s =>
      rw [eq_spec_of_spec? h]
      exact (ka.build_spec s registry w).2.2.1
  own key p registry registry' w w' used settings same := by
    cases h : p.spec? with
    | none => exact ka.own key p registry registry' w w' h used settings same
    | some s =>
      rw [eq_spec_of_spec? h]
      obtain ⟨outcome, -, -, kept⟩ := ka.build_spec s registry w
      obtain ⟨outcome', -, -, kept'⟩ := ka.build_spec s registry' w'
      exact ⟨outcome.trans outcome'.symm, by rw [kept, kept', same]⟩
  apart key key' p registry w used ne := by
    cases h : p.spec? with
    | none => exact ka.apart key key' p registry w h used ne
    | some s =>
      rw [eq_spec_of_spec? h]
      exact (ka.build_spec s registry w).2.2.2 key'

/-! ## Producers of scripts -/

/-- The keys that counters and the cells of sequences belong to. -/
structure Owners where
  counter : String → ScopeKey
  cell : Nat → ScopeKey

mutual

/-- Whether the counters and cells in which a producer counts belong to a key. -/
def Producer.countsFor (owners : Owners) (key : ScopeKey) : Producer → Bool
  | .counting name => owners.counter name = key
  | .sequence cell items => owners.cell cell = key && Producer.allCountFor owners key items
  | _ => true

/-- Whether those of all producers of a list do. -/
def Producer.allCountFor (owners : Owners) (key : ScopeKey) : List Producer → Bool
  | [] => true
  | p :: rest => p.countsFor owners key && Producer.allCountFor owners key rest

end

namespace Owners

/-- A producer is used for a key if it follows a spec, or runs alone and counts for this key. -/
def Uses (owners : Owners) (key : ScopeKey) (p : Producer) : Prop :=
  p.spec?.isSome || p.runsAlone && p.countsFor owners key

instance (owners : Owners) (key : ScopeKey) (p : Producer) : Decidable (owners.Uses key p) :=
  inferInstanceAs (Decidable (_ = true))

/-- What is remembered for a key: its counters and its cells. -/
def remembered (owners : Owners) (key : ScopeKey) (b : Bench) : (String → Nat) × (Nat → Option Nat) :=
  (fun name => if owners.counter name = key then b.counter name else 0,
    fun cell => if owners.cell cell = key then b.cells[cell]? else none)

end Owners

section Owners

variable {owners : Owners} {key key' : ScopeKey} {b b' : Bench}

/-- The same is remembered for a key if all its counters and cells are the same. -/
lemma remembered_eq_iff : owners.remembered key b = owners.remembered key b' ↔
    (∀ name, owners.counter name = key → b.counter name = b'.counter name) ∧
      ∀ cell, owners.cell cell = key → b.cells[cell]? = b'.cells[cell]? := by
  constructor
  · intro same
    obtain ⟨counters, cells⟩ := Prod.mk.inj same
    refine ⟨fun name own => ?_, fun cell own => ?_⟩
    · simpa [own] using congrFun counters name
    · simpa [own] using congrFun cells cell
  · rintro ⟨counters, cells⟩
    apply Prod.ext
    · funext name
      by_cases own : owners.counter name = key
      · simp [Owners.remembered, own, counters name own]
      · simp [Owners.remembered, own]
    · funext cell
      by_cases own : owners.cell cell = key
      · simp [Owners.remembered, own, cells cell own]
      · simp [Owners.remembered, own]

/-- Raising a counter changes this one only. -/
lemma counter_raise (b : Bench) (name other : String) :
    (b.raise name).counter other = if other = name then b.counter name + 1 else b.counter other := by
  by_cases same : other = name
  · simp [Bench.raise, Bench.counter, same]
  · have kept : (b.counters.filter fun e => e.1 != name).find? (fun e => e.1 == other) =
        b.counters.find? fun e => e.1 == other := by
      rw [List.find?_filter]
      congr
      funext e
      by_cases here : e.1 = other <;> simp [here, same]
    simp [Bench.raise, Bench.counter, Ne.symm same, kept, same]

/-- The same is remembered after a counter of the key was raised in both. -/
lemma remembered_raise (same : owners.remembered key b = owners.remembered key b') {name : String}
    (own : owners.counter name = key) :
    owners.remembered key (b.raise name) = owners.remembered key (b'.raise name) := by
  obtain ⟨counters, cells⟩ := remembered_eq_iff.mp same
  refine remembered_eq_iff.mpr ⟨fun other mine => ?_, cells⟩
  rw [counter_raise, counter_raise, counters name own, counters other mine]

/-- A counter of one key is not remembered for another. -/
lemma remembered_raise_of_ne {name : String} (own : owners.counter name = key) (ne : key' ≠ key) :
    owners.remembered key' (b.raise name) = owners.remembered key' b := by
  refine remembered_eq_iff.mpr ⟨fun other mine => ?_, fun _ _ => rfl⟩
  have other_name : other ≠ name := fun e => ne (by rw [← mine, e, own])
  rw [counter_raise, if_neg other_name]

/-- A cell of the key gives the same in both, and the same is remembered afterwards. -/
lemma remembered_nextCall (same : owners.remembered key b = owners.remembered key b') {cell : Nat}
    (own : owners.cell cell = key) :
    (b.nextCall cell).1 = (b'.nextCall cell).1 ∧
      owners.remembered key (b.nextCall cell).2 = owners.remembered key (b'.nextCall cell).2 := by
  obtain ⟨counters, cells⟩ := remembered_eq_iff.mp same
  have here := cells cell own
  refine ⟨by rw [Bench.nextCall, Bench.nextCall, here], remembered_eq_iff.mpr ⟨counters, fun other mine => ?_⟩⟩
  rw [Bench.nextCall, Bench.nextCall, here]
  by_cases e : cell = other
  · subst e
    simp only [List.getElem?_set_self', here]
  · simp only [List.getElem?_set_ne e]
    exact cells other mine

/-- A cell of one key is not remembered for another. -/
lemma remembered_nextCall_of_ne {cell : Nat} (own : owners.cell cell = key) (ne : key' ≠ key) :
    owners.remembered key' (b.nextCall cell).2 = owners.remembered key' b := by
  refine remembered_eq_iff.mpr ⟨fun _ _ => rfl, fun other mine => ?_⟩
  have other_cell : cell ≠ other := fun e => ne (by rw [← mine, ← e, own])
  exact List.getElem?_set_ne other_cell

/-- All producers of a list count for a key if each of them does. -/
lemma allCountFor_eq_all (items : List Producer) :
    Producer.allCountFor owners key items = items.all (Producer.countsFor owners key) := by
  induction items with
  | nil => rfl
  | cons p rest ih => rw [Producer.allCountFor, ih, List.all_cons]

/-- A producer that is picked among those that count for a key counts for it. -/
lemma countsFor_of_pick {items : List Producer} (all : Producer.allCountFor owners key items) {n : Nat} {p : Producer}
    (h : pick items n = some p) : p.countsFor owners key := by
  rw [allCountFor_eq_all, List.all_eq_true] at all
  exact all p (mem_of_pick h)

/-- What comes of a producer that runs alone and counts for one key depends only on the settings and on what is
remembered for this key, but for the identity of the model. -/
lemma own_build (env : Setting) (fuel : Nat) {p : Producer} (alone : p.runsAlone) (mine : p.countsFor owners key)
    {registry registry' : Registry} {w w' : ScriptWorld} (settings : registry.settings = registry'.settings)
    (same : owners.remembered key w.host = owners.remembered key w'.host) :
    (build env fuel p registry w).1.map Model.content = (build env fuel p registry' w').1.map Model.content ∧
      owners.remembered key (build env fuel p registry w).2.host =
        owners.remembered key (build env fuel p registry' w').2.host := by
  induction fuel generalizing p w w' with
  | zero => exact ⟨rfl, same⟩
  | succ fuel ih =>
    cases p with
    | counting name =>
      rw [build, build]
      refine ⟨congrArg Except.ok ?_, remembered_raise same (of_decide_eq_true mine)⟩
      exact Model.content_of_withId (f := (·.addEntity (.root "Fixture" []))) (fun _ _ => rfl) _ _
    | failing e => exact ⟨rfl, same⟩
    | edits begin edits =>
      rw [build, build]
      refine ⟨congrArg Except.ok ?_, same⟩
      cases begin with
      | some m => simp only [Option.getD_some]
      | none =>
        let f (m : Model) := (m.editAll edits).1
        exact Model.content_of_withId (f := f) (fun m id => m.editAll_withId id edits) _ _
    | settings =>
      rw [build, build, settings]
      refine ⟨congrArg Except.ok ?_, same⟩
      let es := registry'.settings.entries.map settingEntity
      exact Model.content_of_withId (f := es.foldl Model.addEntity) (fun m id => m.addEntities_withId id es) _ _
    -- the cell tells which item builds next, and it is the same in both worlds
    | sequence cell items =>
      obtain ⟨own, all⟩ := Bool.and_eq_true_iff.mp mine
      obtain ⟨call, after⟩ := remembered_nextCall same (of_decide_eq_true own)
      rw [build, build]
      simp only [call]
      cases h : pick items (w'.host.nextCall cell).1 with
      | none => exact ⟨rfl, same⟩
      | some p => exact ih (runsAlone_of_pick alone h) (countsFor_of_pick all h) after
    | reentrant | spec => cases alone

/-- A producer that runs alone and counts for one key changes nothing that is remembered for another. -/
lemma apart_remembered_build (env : Setting) (fuel : Nat) {p : Producer} (alone : p.runsAlone)
    (mine : p.countsFor owners key) (ne : key' ≠ key) (registry : Registry) (w : ScriptWorld) :
    owners.remembered key' (build env fuel p registry w).2.host = owners.remembered key' w.host := by
  induction fuel generalizing p w with
  | zero => rfl
  | succ fuel ih =>
    cases p with
    | counting name => exact remembered_raise_of_ne (of_decide_eq_true mine) ne
    | failing | edits | settings => rfl
    | sequence cell items =>
      obtain ⟨own, all⟩ := Bool.and_eq_true_iff.mp mine
      rw [build]
      simp only
      cases h : pick items (w.host.nextCall cell).1 with
      | none => rfl
      | some p =>
        have later := ih (runsAlone_of_pick alone h) (countsFor_of_pick all h)
          { w with host := (w.host.nextCall cell).2 }
        exact later.trans (remembered_nextCall_of_ne (of_decide_eq_true own) ne)
    | reentrant | spec => cases alone

/-- A producer that is used for a key and follows no spec runs alone, counts for the key, and builds as in a script. -/
lemma alone_of_uses {p : Producer} (other : p.spec? = none) (used : owners.Uses key p) :
    (p.runsAlone ∧ p.countsFor owners key) ∧
      ∀ env fuel registry w, buildAlone env fuel p registry w = build env (fuel + 1) p registry w := by
  rw [Owners.Uses, other, Option.isSome_none, Bool.false_or, Bool.and_eq_true] at used
  exact ⟨used, fun env fuel registry w => if_pos (by rw [used.1, Bool.or_true])⟩

/-- Producers that build as in a script, by a spec or alone, keep apart if each of them counts for one key. -/
lemma keepsApart_alone (env : Setting) (fuel : Nat) (owners : Owners) :
    KeepsApart env (buildAlone env fuel) owners.Uses owners.remembered where
  spec _ _ _ := rfl
  specs _ _ := rfl
  unrecorded _ _ _ _ := rfl
  scopes _ registry w other := (apart_buildAlone env fuel other registry w).scopes
  storages _ registry w other := (apart_buildAlone env fuel other registry w).storages
  own key p registry registry' w w' other used settings same := by
    obtain ⟨⟨alone, mine⟩, eq⟩ := alone_of_uses other used
    rw [eq, eq]
    exact own_build env (fuel + 1) alone mine settings same
  apart key key' p registry w other used ne := by
    obtain ⟨⟨alone, mine⟩, eq⟩ := alone_of_uses other used
    rw [eq]
    exact apart_remembered_build env (fuel + 1) alone mine ne registry w

end Owners

end Script

namespace Session

/-! ## Main statement -/

/-- If builds by specs are those of scripts, and every other producer is used for one key and goes by the settings and
by what is remembered for this key, then the demands for a key are replied to as if there were none for other keys.
Keys are the same only if both namespaces and units are. -/
theorem siblings_apart {env : Script.Setting} {produce : Produce Script.Producer Script.Bench}
    {uses : ScopeKey → Script.Producer → Prop} {memory : ScopeKey → Script.Bench → V}
    (ka : Script.KeepsApart env produce uses memory) (catalogs : CatalogId → SpecCatalog) (host : Script.Bench)
    (st : StorageId) (demands : List (Demand Script.Producer ε)) (used : ∀ d ∈ demands, d.Uses uses) :
    (∀ key, (start catalogs host).replies produce st key demands =
      (start catalogs host).replies produce st key (demands.filter (·.concerns key))) ∧
    ∀ (x y : Extension Script.Producer) (ctx ctx' : Context), x.key ctx = y.key ctx' ↔
      x.config.namespaceName = y.config.namespaceName ∧ ctx.uniqueId = ctx'.uniqueId := by
  refine ⟨fun key => ?_, fun x y ctx ctx' => by rw [Extension.key, Extension.key, ScopeKey.mk.injEq]⟩
  have od : (start catalogs host).Orderly uses st := .start catalogs host
  exact (Alike.start catalogs host).replies_filter ka.separate od od demands used

/-- Two units whose keys have the same text: the first build of one fails, and the other is invalidated, torn down and
made again by a spec in the meantime. -/
theorem siblings_apart_same_text :
    let env : Script.Setting := ⟨[("Order", ⟨[.root "Order" []], []⟩)], .none, .empty, []⟩
    let x : Extension Script.Producer := ⟨⟨"a::b", true, .empty⟩, 0, .spec⟩
    let y : Extension Script.Producer := ⟨⟨"a", true, .empty⟩, 0, .spec⟩
    let ctx : Context := .forClass "c" "T"
    let ctx' : Context := .forClass "b::c" "T"
    let late : Script.Producer := .sequence 0 [.failing (.producer "late"), .counting "n"]
    let ready : Demand Script.Producer Unit := .postProcess x 0 ⟨some late, true⟩ ctx
    let demands : List (Demand Script.Producer Unit) :=
      [.attach 0 "T" { Spec.empty with classes := [⟨"Order"⟩] },
        .postProcess y 0 ⟨some (.counting "n'"), true⟩ ctx', ready, .handleFailure y ctx' (), ready,
        .afterAll y ctx', .call (y.key ctx') 0 .model, .postProcess y 0 ⟨none, true⟩ ctx', .handleFailure x ctx (),
        .call (x.key ctx) 0 .phase, .call (x.key ctx) 0 .model, .detach 0 "T", .closeAll,
        .call (x.key ctx) 0 .model, .postProcess x 0 ⟨none, true⟩ ctx]
    let owners : Script.Owners :=
      ⟨fun name => if name = "n" then x.key ctx else y.key ctx', fun _ => x.key ctx⟩
    let z : Session Script.Producer Script.Bench := start (fun _ => .empty) { Script.Bench.start with cells := [0] }
    let produce := Script.buildAlone env 1
    (x.key ctx).text = (y.key ctx').text ∧ x.key ctx ≠ y.key ctx' ∧ (∀ d ∈ demands, d.Uses owners.Uses) ∧
    z.replies produce 0 (x.key ctx) demands =
      [.processed (.error (.producer "late")) none, .processed (.ok (some 0)) (some (some 0)), .returned (.error ()),
        .phase (some .activeEmpty), .model (.ok ((Model.empty (.ofSerial 0)).addEntity (.root "Fixture" []))),
        .model (.error (.inactive (x.key ctx))), .processed (.error (.specificationMissing "T")) none] := by
  intro env x y ctx ctx' late ready demands owners z produce
  have ka := Script.keepsApart_alone env 1 owners
  have specs : ∀ key spec, owners.Uses key (.spec spec) := fun _ _ => rfl
  have mine : ∀ p, some late = some p → owners.Uses (x.key ctx) p := by
    rintro p ⟨⟩
    decide
  have other : ∀ p, some (.counting "n'") = some p → owners.Uses (y.key ctx') p := by
    rintro p ⟨⟩
    decide
  have used : ∀ d ∈ demands, d.Uses owners.Uses := by
    simp only [demands, List.forall_mem_cons]
    exact ⟨trivial, ⟨specs _, other⟩, ⟨specs _, mine⟩, trivial, ⟨specs _, mine⟩, trivial, trivial, ⟨specs _, nofun⟩,
      trivial, trivial, trivial, trivial, trivial, trivial, ⟨specs _, nofun⟩, nofun⟩
  refine ⟨by decide, by decide, used, ?_⟩
  refine ((siblings_apart ka (fun _ => .empty) _ 0 demands used).1 (x.key ctx)).trans ?_
  decide +kernel

end Session

end ModelScopes
