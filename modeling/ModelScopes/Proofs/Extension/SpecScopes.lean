import Mathlib.Algebra.Group.Nat.Defs
import ModelScopes.Proofs.Extension.Building
import ModelScopes.Proofs.Extension.Noted
import ModelScopes.Proofs.Spec.Recorded

/-!
# Scopes of specs

A scope that was made for a spec builds by this spec and with its registry as long as it lives, whatever is attached
in the meantime. All builds by specs share one log, and each of them adds to it what a new collector writes down. The
main statement is `Session.bound_to_specs`.
-/

namespace ModelScopes

/-! ## Identities -/

namespace Uuid

/-- Numbers that are small enough are told apart by their low digits. -/
lemma lowDigits_injective {k a b : Nat} (ha : a < 16 ^ k) (hb : b < 16 ^ k) (h : lowDigits k a = lowDigits k b) :
    a = b := by
  induction k generalizing a b with
  | zero =>
    rw [Nat.pow_zero, Nat.lt_one_iff] at ha hb
    rw [ha, hb]
  | succ k ih =>
    obtain ⟨high, low⟩ := List.append_inj' h rfl
    have low' : a % 16 = b % 16 := by simpa using low
    have high' : a / 16 = b / 16 := by
      apply ih
      · exact Nat.div_lt_of_lt_mul (by rwa [Nat.pow_succ, Nat.mul_comm] at ha)
      · exact Nat.div_lt_of_lt_mul (by rwa [Nat.pow_succ, Nat.mul_comm] at hb)
      · exact high
    omega

/-- The supply of uuids does not repeat itself as long as it lasts. -/
lemma ofSerial_injective {a b : Nat} (ha : a < 16 ^ 15) (hb : b < 16 ^ 15) (h : ofSerial a = ofSerial b) : a = b := by
  apply lowDigits_injective ha hb
  exact List.append_cancel_left (congrArg Uuid.digits h)

/-- The identities were given out in this order, and all of them before the `n`th. -/
def GivenOut (n : Nat) (ids : List Uuid) : Prop :=
  ∃ serials : List Nat, serials.Pairwise (· < ·) ∧ (∀ k ∈ serials, k < n) ∧ ids = serials.map ofSerial

variable {n : Nat} {ids : List Uuid}

/-- To begin with no identity was given out. -/
lemma GivenOut.nil (n : Nat) : GivenOut n [] :=
  ⟨[], .nil, nofun, rfl⟩

/-- What was given out before is given out later, too. -/
lemma GivenOut.mono (g : GivenOut n ids) {m : Nat} (le : n ≤ m) : GivenOut m ids := by
  obtain ⟨serials, increase, bound, eq⟩ := g
  exact ⟨serials, increase, fun k hk => Nat.lt_of_lt_of_le (bound k hk) le, eq⟩

/-- The next identity is given out. -/
lemma GivenOut.next (g : GivenOut n ids) : GivenOut (n + 1) (ids ++ [ofSerial n]) := by
  obtain ⟨serials, increase, bound, rfl⟩ := g
  refine ⟨serials ++ [n], ?_, ?_, by rw [List.map_append, List.map_singleton]⟩
  · rw [List.pairwise_append]
    refine ⟨increase, List.pairwise_singleton .., fun a ha b hb => ?_⟩
    rw [List.mem_singleton.mp hb]
    exact bound a ha
  · intro k hk
    rcases List.mem_append.mp hk with old | new
    · exact Nat.lt_succ_of_lt (bound k old)
    · rw [List.mem_singleton.mp new]
      exact Nat.lt_succ_self n

/-- As long as the supply lasts no identity is given out twice. -/
lemma GivenOut.nodup (g : GivenOut n ids) (lasts : n ≤ 16 ^ 15) : ids.Nodup := by
  obtain ⟨serials, increase, bound, rfl⟩ := g
  rw [List.Nodup, List.pairwise_map]
  refine increase.imp_of_mem fun {a b} ha hb lt same => ?_
  have := ofSerial_injective (Nat.lt_of_lt_of_le (bound a ha) lasts) (Nat.lt_of_lt_of_le (bound b hb) lasts) same
  omega

end Uuid

namespace Script

/-! ## Producers and their calls -/

/-- The spec of a producer that follows one. -/
def Producer.spec? : Producer → Option Spec
  | .spec s => some s
  | _ => none

/-- What comes of a world without scopes, storages or collectors being touched. -/
structure Apart (w w' : ScriptWorld) : Prop where
  scopes : w'.scopes = w.scopes
  storages : w'.storages = w.storages
  log : w'.host.log = w.host.log
  collections : w'.host.collections = w.host.collections
  serial : w.serial ≤ w'.serial

/-- Producers of which those that follow a spec build as in a script, with a collector that refuses nothing by itself,
and all others keep apart from scopes, storages and collectors. -/
structure BuildsSpecs (env : Setting) (produce : Produce Producer Bench) : Prop where
  quiet : env.refusals = .none
  spec : ∀ s registry w, produce (.spec s) registry w = buildSpec env s w
  apart : ∀ p registry w, p.spec? = none → Apart w (produce p registry w).2

/-- The specs that were followed in calls of producers, in order. -/
def specsOf (calls : List (ProducerCall Producer)) : List Spec :=
  calls.filterMap (·.producer.spec?)

/-- The identities of the models that were built by specs, in order. -/
def idsOf (calls : List (ProducerCall Producer)) : List Uuid :=
  calls.filterMap fun c => c.producer.spec?.bind fun _ => c.outcome.toOption.map Model.id

/-- The world of a session with notes. -/
abbrev NotedWorld := World Producer (Noted Producer Bench)

/-- What a producer that follows a spec may have built: the model that the spec describes. -/
def Setting.Suits (env : Setting) (p : Producer) (m : Model) : Prop :=
  ∀ spec, p.spec? = some spec → env.Describes spec m

/-- What the scopes hold, what was recorded and which identities were used, all as the calls of producers have it. -/
structure Tally (env : Setting) (first : Bench) (w : NotedWorld) : Prop where
  log : w.host.host.log = first.log ++ (specsOf w.host.calls).flatMap env.recorded
  collections : w.host.host.collections = first.collections + (specsOf w.host.calls).length
  ids : Uuid.GivenOut w.serial (idsOf w.host.calls)
  held : ∀ p b, w.Holds p b → env.Suits p b.model

/-- A producer that follows a spec is made of it. -/
lemma eq_spec_of_spec? {p : Producer} {s : Spec} (h : p.spec? = some s) : p = .spec s := by
  cases p with
  | spec t =>
    cases h
    rfl
  | _ => cases h

/-- A model that is described is described with any identity. -/
lemma describes_withId {env : Setting} {spec : Spec} {m : Model} (h : env.described spec = .ok m) (id : Uuid) :
    env.Describes spec (m.withId id) :=
  ⟨m, h, rfl⟩

variable {env : Setting} {produce : Produce Producer Bench} {first : Bench}

namespace BuildsSpecs

variable (bs : BuildsSpecs env produce)

include bs

/-- Producers that build specs in this way keep their hands off scopes and storages. -/
lemma discreet : produce.Discreet where
  storages p registry w := by
    cases h : p.spec? with
    | none => exact (bs.apart p registry w h).storages
    | some s =>
      rw [eq_spec_of_spec? h, bs.spec]
      exact (buildSpec_eq bs.quiet s w).2.2
  ages p registry w := by
    cases h : p.spec? with
    | none => exact .of_scopes (bs.apart p registry w h).scopes
    | some s =>
      rw [eq_spec_of_spec? h, bs.spec]
      exact .of_scopes (congrArg Sight.scopes (buildSpec_eq bs.quiet s w).2.1)

end BuildsSpecs

/-! ## Producers of scripts -/

mutual

/-- Whether a producer neither runs steps nor follows a spec. -/
def Producer.runsAlone : Producer → Bool
  | .counting _ | .failing _ | .edits .. | .settings => true
  | .sequence _ items => Producer.allRunAlone items
  | .reentrant .. | .spec _ => false

/-- Whether all producers of a list do neither. -/
def Producer.allRunAlone : List Producer → Bool
  | [] => true
  | p :: rest => p.runsAlone && Producer.allRunAlone rest

end

/-- Builds as in a script by a spec, or by a producer that runs alone. -/
def buildAlone (env : Setting) (fuel : Nat) : Produce Producer Bench := fun p registry w =>
  if p.spec?.isSome || p.runsAlone then build env (fuel + 1) p registry w else (.error (.producer "not alone"), w)

/-- A world that was not touched is apart. -/
lemma Apart.refl (w : ScriptWorld) : Apart w w :=
  ⟨rfl, rfl, rfl, rfl, Nat.le_refl _⟩

/-- What is picked is one of the items. -/
lemma mem_of_pick {items : List Producer} {n : Nat} {p : Producer} (h : pick items n = some p) : p ∈ items := by
  induction items generalizing n with
  | nil => cases h
  | cons q rest ih =>
    cases rest with
    | nil =>
      cases h
      exact List.mem_cons_self
    | cons q' rest =>
      cases n with
      | zero =>
        cases h
        exact List.mem_cons_self
      | succ n => exact List.mem_cons_of_mem q (ih h)

/-- All producers of a list run alone if each of them does. -/
lemma allRunAlone_eq_all (items : List Producer) : Producer.allRunAlone items = items.all Producer.runsAlone := by
  induction items with
  | nil => rfl
  | cons p rest ih => rw [Producer.allRunAlone, ih, List.all_cons]

/-- A producer that is picked among those that run alone runs alone. -/
lemma runsAlone_of_pick {items : List Producer} (all : Producer.allRunAlone items) {n : Nat} {p : Producer}
    (h : pick items n = some p) : p.runsAlone := by
  rw [allRunAlone_eq_all, List.all_eq_true] at all
  exact all p (mem_of_pick h)

/-- A producer that runs alone keeps apart from scopes, storages and collectors. -/
lemma apart_build (env : Setting) (fuel : Nat) {p : Producer} (alone : p.runsAlone) (registry : Registry)
    (w : ScriptWorld) : Apart w (build env fuel p registry w).2 := by
  induction fuel generalizing p w with
  | zero => exact .refl w
  | succ fuel ih =>
    cases p with
    | counting name => exact ⟨rfl, rfl, rfl, rfl, Nat.le_succ _⟩
    | failing e => exact .refl w
    | edits begin edits => exact ⟨rfl, rfl, rfl, rfl, Nat.le_succ _⟩
    | settings => exact ⟨rfl, rfl, rfl, rfl, Nat.le_succ _⟩
    | sequence cell items =>
      rw [build]
      simp only
      cases h : pick items (w.host.nextCall cell).1 with
      | none => exact .refl w
      | some p =>
        obtain ⟨scopes, storages, log, collections, serial⟩ :=
          ih (runsAlone_of_pick alone h) { w with host := (w.host.nextCall cell).2 }
        exact ⟨scopes, storages, log, collections, serial⟩
    | reentrant | spec => cases alone

/-- A producer that runs alone and follows no spec touches no scopes, storages or collectors. -/
lemma apart_buildAlone (env : Setting) (fuel : Nat) {p : Producer} (h : p.spec? = none) (registry : Registry)
    (w : ScriptWorld) : Apart w (buildAlone env fuel p registry w).2 := by
  rw [buildAlone]
  split
  case isTrue either =>
    rw [h, Option.isSome_none, Bool.false_or] at either
    exact apart_build env (fuel + 1) either registry w
  case isFalse => exact .refl w

/-- Producers that run alone build specs as in a script. -/
lemma buildsSpecs_alone {env : Setting} (quiet : env.refusals = .none) (fuel : Nat) :
    BuildsSpecs env (buildAlone env fuel) where
  quiet := quiet
  spec _ _ _ := rfl
  apart _ registry w h := apart_buildAlone env fuel h registry w

end Script

/-- With notes a producer keeps its hands off scopes and storages as well. -/
lemma Produce.Discreet.noted {P H : Type} {produce : Produce P H} (di : produce.Discreet) : produce.noted.Discreet where
  storages p registry w := di.storages p registry w.plain
  ages p registry w := ⟨(di.ages p registry w.plain).length, (di.ages p registry w.plain).scopes⟩

namespace Script

variable {env : Setting} {produce : Produce Producer Bench} {first : Bench} {w w' : NotedWorld}

/-! ## Tallies -/

/-- In a new world nothing has been called. -/
lemma Tally.start (env : Setting) (first : Bench) : Tally env first (.start ⟨first, []⟩) where
  log := (List.append_nil _).symm
  collections := rfl
  ids := .nil 0
  held := by
    rintro p b ⟨s, hs, -⟩
    cases hs

/-- A tally stays right without calls of producers, if what is held suits the producers. -/
lemma Tally.keep (ta : Tally env first w) (host : w'.host = w.host) (serial : w.serial ≤ w'.serial)
    (held : ∀ p b, w'.Holds p b → env.Suits p b.model) : Tally env first w' where
  log := by rw [host, ta.log]
  collections := by rw [host, ta.collections]
  ids := by
    rw [host]
    exact ta.ids.mono serial
  held := held

/-- The tally stays right without a call. -/
lemma Tally.rests (ta : Tally env first w) (re : w.Rests w') : Tally env first w' :=
  ta.keep re.host re.serial fun p b h => ta.held p b (re.held p b h)

/-- A call of a producer that follows a spec is recorded, and takes the next identity. -/
lemma Tally.call_spec (ta : Tally env first w) (bs : BuildsSpecs env produce) (spec : Spec) (registry : Registry) :
    Tally env first (produce.noted (.spec spec) registry w).2 := by
  obtain ⟨outcome, sight, -⟩ := buildSpec_eq bs.quiet spec w.plain
  rw [← bs.spec spec registry] at outcome sight
  obtain ⟨scopes, serial, host⟩ := Sight.mk.inj sight
  have calls := produce.noted_calls (.spec spec) registry w
  have host' : (produce.noted (.spec spec) registry w).2.host.host = _ := host
  have serial' : (produce.noted (.spec spec) registry w).2.serial = w.serial + 1 := serial
  have scopes' : (produce.noted (.spec spec) registry w).2.scopes = w.scopes := scopes
  have outcome' : (produce.noted (.spec spec) registry w).1 = _ := outcome
  have specs : specsOf (produce.noted (.spec spec) registry w).2.host.calls = specsOf w.host.calls ++ [spec] := by
    rw [calls, specsOf, List.filterMap_append]
    rfl
  refine ⟨?_, ?_, ?_, ?_⟩
  · rw [host', specs, List.flatMap_append, List.flatMap_singleton, ← List.append_assoc, ← ta.log]
    rfl
  · rw [host', specs, List.length_append, ← Nat.add_assoc, ← ta.collections]
    rfl
  · rw [serial', calls, idsOf, List.filterMap_append, outcome']
    cases env.described spec with
    | error e =>
      have kept : Uuid.GivenOut (w.serial + 1) (idsOf w.host.calls ++ []) := by
        rw [List.append_nil]
        exact ta.ids.mono (Nat.le_succ _)
      exact kept
    | ok m => exact ta.ids.next
  · intro p b held
    rw [World.Holds, scopes'] at held
    exact ta.held p b held

/-- A call of a producer that follows no spec keeps the tally right. -/
lemma Tally.call_other (ta : Tally env first w) (bs : BuildsSpecs env produce) {p : Producer} (h : p.spec? = none)
    (registry : Registry) : Tally env first (produce.noted p registry w).2 := by
  have ap := bs.apart p registry w.plain h
  have calls := produce.noted_calls p registry w
  have specs : specsOf (produce.noted p registry w).2.host.calls = specsOf w.host.calls := by
    rw [calls, specsOf, List.filterMap_append]
    simp [h, specsOf]
  have ids : idsOf (produce.noted p registry w).2.host.calls = idsOf w.host.calls := by
    rw [calls, idsOf, List.filterMap_append]
    simp [h, idsOf]
  refine ⟨?_, ?_, ?_, ?_⟩
  · rw [specs, ← ta.log]
    exact ap.log
  · rw [specs, ← ta.collections]
    exact ap.collections
  · rw [ids]
    exact ta.ids.mono ap.serial
  · intro p' b held
    have scopes : (produce.noted p registry w).2.scopes = w.scopes := ap.scopes
    rw [World.Holds, scopes] at held
    exact ta.held p' b held

/-- A call of any producer keeps the tally right. -/
lemma Tally.call (ta : Tally env first w) (bs : BuildsSpecs env produce) (p : Producer) (registry : Registry) :
    Tally env first (produce.noted p registry w).2 := by
  cases h : p.spec? with
  | none => exact ta.call_other bs h registry
  | some s =>
    rw [eq_spec_of_spec? h]
    exact ta.call_spec bs s registry

/-- The call of a spec's producer answers with the described model, with the next identity. -/
lemma BuildsSpecs.outcome (bs : BuildsSpecs env produce) (spec : Spec) (registry : Registry) (w : NotedWorld) :
    (produce.noted (.spec spec) registry w).1 = (env.described spec).map (Model.withId · (.ofSerial w.serial)) := by
  have outcome := (buildSpec_eq bs.quiet spec w.plain).1
  rw [← bs.spec spec registry] at outcome
  exact outcome

/-- What a call of a producer has built suits the producer. -/
lemma BuildsSpecs.suits (bs : BuildsSpecs env produce) {p : Producer} {registry : Registry} {m : Model}
    (h : (produce.noted p registry w).1 = .ok m) : env.Suits p m := by
  intro spec hp
  rw [eq_spec_of_spec? hp, bs.outcome] at h
  cases hd : env.described spec with
  | error e =>
    rw [hd] at h
    cases h
  | ok m₀ =>
    rw [hd] at h
    cases h
    exact describes_withId hd _

/-- A build keeps the tally right. -/
lemma Tally.builds (ta : Tally env first w) (bs : BuildsSpecs env produce) {p : Producer} {registry : Registry}
    {r : Except ScopeError Model} (bu : w.Builds produce.noted p registry r w') : Tally env first w' := by
  obtain ⟨v, v', before, call, host, serial, held⟩ := bu
  have after := (ta.rests before).call bs p registry
  rw [call] at after
  refine after.keep host serial fun p' b h => ?_
  rcases held p' b h with old | ⟨rfl, built⟩
  · exact after.held p' b old
  · exact bs.suits (congrArg Prod.fst (call.trans (by rw [built])))

/-- The call of a spec's producer changes no scope. -/
lemma BuildsSpecs.scopes (bs : BuildsSpecs env produce) (spec : Spec) (registry : Registry) (w : NotedWorld) :
    (produce.noted (.spec spec) registry w).2.scopes = w.scopes := by
  have sight := (buildSpec_eq bs.quiet spec w.plain).2.1
  rw [← bs.spec spec registry] at sight
  exact congrArg Sight.scopes sight

/-! ## Life of one scope -/

/-- A scope that follows a spec gives the model that the spec describes. It gives none if it is closed or if the spec
describes none. Its producer is called just when the scope is empty, and handed the scope's own registry. -/
lemma Tally.modelOf (ta : Tally env first w) (bs : BuildsSpecs env produce) {i : ScopeId} {s : Scope Producer}
    {spec : Spec} (hs : w.scopes[i]? = some s) (follows : s.producer = .spec spec) :
    ∃ r w', w.modelOf produce.noted i = some (r, w') ∧ (∀ b, r = .ok b → env.Describes spec b.model) ∧
      (∀ e, r = .error e → s.phase = .closed ∨ env.described spec = .error e) ∧
      w'.host.calls = w.host.calls ++
        if s.phase = .activeEmpty then [⟨.spec spec, s.registry, r.map Built.model⟩] else [] := by
  have asked : w.modelOf produce.noted i = some ((s.model produce.noted w).1,
      (s.model produce.noted w).2.2.setScope i (s.model produce.noted w).2.1) :=
    Option.map_eq_some_iff.mpr ⟨s, hs, rfl⟩
  refine ⟨_, _, asked, ?_⟩
  have calls := produce.noted_calls (.spec spec) s.registry (w.emit (.building s.key))
  have outcome := bs.outcome spec s.registry (w.emit (.building s.key))
  -- only an empty scope calls its producer; a full one holds what an earlier call came to, which the tally knows
  obtain ⟨closed, eq⟩ | ⟨b, populated, eq⟩ | ⟨e, w', empty, hp, eq⟩ | ⟨m, w', empty, hp, eq⟩ :=
    s.model_cases produce.noted w
  · rw [eq]
    refine ⟨nofun, fun _ _ => .inl (Scope.phase_eq_closed_iff.mpr closed), ?_⟩
    have rests : s.phase ≠ .activeEmpty := by simp [closed]
    rw [if_neg rests, List.append_nil]
    rfl
  · rw [eq]
    refine ⟨fun b' hb' => ?_, nofun, ?_⟩
    · cases hb'
      exact ta.held s.producer b ⟨s, List.mem_of_getElem? hs, rfl, populated⟩ spec (by rw [follows]; rfl)
    · have rests : s.phase ≠ .activeEmpty := by simp [populated]
      rw [if_neg rests, List.append_nil]
      rfl
  · rw [follows] at hp
    rw [hp] at calls outcome
    rw [eq]
    refine ⟨nofun, fun e' he' => .inr ?_, ?_⟩
    · cases he'
      cases hd : env.described spec with
      | error e => rw [hd] at outcome; cases outcome; rfl
      | ok m => rw [hd] at outcome; cases outcome
    · rw [if_pos (Scope.phase_eq_activeEmpty_iff.mpr empty)]
      exact calls
  · rw [follows] at hp
    rw [hp] at calls
    rw [eq]
    refine ⟨fun b' hb' => ?_, nofun, ?_⟩
    · cases hb'
      exact bs.suits (congrArg Prod.fst hp) spec rfl
    · rw [if_pos (Scope.phase_eq_activeEmpty_iff.mpr empty)]
      exact calls

end Script

namespace Extension

variable {env : Script.Setting} {produce : Produce Script.Producer Script.Bench} {w : Script.NotedWorld}

/-- A unit without a producer of its own gets the one of its element's spec. -/
lemma producerFor_of_spec {P : Type} {x : Extension P} {specs : SpecCatalog} {inst : Instance P} {ctx : Context}
    {element : String} {spec : Spec} (own : inst.producer = none) (he : ctx.element = some element)
    (attached : specs.get? element = some spec) : x.producerFor specs inst ctx = .ok (x.ofSpec spec) := by
  simp [producerFor, own, specProducer, he, attached]

/-- A unit without a scope is given a new one that follows the spec which is attached now and holds the model that it
describes, or none if it describes none. -/
lemma postProcess_of_spec {x : Extension Script.Producer} (bs : Script.BuildsSpecs env produce)
    (ti : (w.storages x.storage).Tidy) {specs : SpecCatalog} {inst : Instance Script.Producer} {ctx : Context}
    {spec : Spec} (unfound : x.find ctx w = none) (follows : x.producerFor specs inst ctx = .ok (.spec spec)) :
    ∃ r injected w', x.postProcess produce.noted specs inst ctx w = (⟨r, injected⟩, w') ∧
      match env.described spec with
      | .error e => r = .error e ∧ w'.find x.storage (x.key ctx) = none ∧
        w'.host.calls = w.host.calls ++ [⟨.spec spec, ⟨.ofSerial w.serial, x.config.settings⟩, .error e⟩]
      | .ok _ => r = .ok w.scopes.length ∧ ∃ b, env.Describes spec b.model ∧
        w'.scopes[w.scopes.length]? =
          some ⟨x.key ctx, ⟨.ofSerial w.serial, x.config.settings⟩, .spec spec, .active (some b)⟩ ∧
        w'.host.calls = w.host.calls ++ [⟨.spec spec, ⟨.ofSerial w.serial, x.config.settings⟩, .ok b.model⟩] := by
  -- the producer is called with the next registry, in a world in which only this one was given out
  let w₁ : Script.NotedWorld := { w with serial := w.serial + 1 }
  let registry : Registry := ⟨.ofSerial w.serial, x.config.settings⟩
  have fresh : w.freshRegistry x.config.settings = (registry, w₁) := rfl
  have unfound₁ : w₁.find x.storage (x.key ctx) = none := unfound
  have tidy₁ : (w₁.storages x.storage).Tidy := ti
  have kept := congrFun (bs.discreet.noted.storages (.spec spec) registry (w₁.beforeBuild x.storage (x.key ctx)))
    x.storage
  have outcome := bs.outcome spec registry (w₁.beforeBuild x.storage (x.key ctx))
  have calls := produce.noted_calls (.spec spec) registry (w₁.beforeBuild x.storage (x.key ctx))
  have scopes := bs.scopes spec registry (w₁.beforeBuild x.storage (x.key ctx))
  simp only [postProcess, unfound, follows, fresh]
  obtain ⟨i, found, -⟩ | ⟨e, v, w', -, hp, eq, same, -, -, found⟩ | ⟨m, v, w', -, hp, eq, same, -, -, -⟩ :=
    World.getOrCreate_cases tidy₁ kept
  · rw [unfound₁] at found
    cases found
  · rw [hp] at outcome calls
    rw [eq]
    refine ⟨_, _, _, rfl, ?_⟩
    -- what the call came to is what the spec describes, so one of the two cases cannot be
    cases hd : env.described spec with
    | ok m =>
      rw [hd] at outcome
      cases outcome
    | error e' =>
      rw [hd] at outcome
      cases outcome
      refine ⟨rfl, (found _).trans unfound₁, ?_⟩
      exact (congrArg (fun seen => seen.host.calls) same).trans calls
  · rw [hp] at outcome calls scopes
    have length : v.scopes.length = w.scopes.length := congrArg List.length scopes
    have scopes' : w'.scopes = v.scopes ++ [⟨x.key ctx, registry, .spec spec, .active (some ⟨v.serial, m⟩)⟩] :=
      congrArg Sight.scopes same
    rw [eq]
    refine ⟨_, _, _, rfl, ?_⟩
    have describes := bs.suits (congrArg Prod.fst hp) spec rfl
    cases hd : env.described spec with
    | error e =>
      rw [hd] at outcome
      cases outcome
    | ok m₀ =>
      refine ⟨congrArg Except.ok length, ⟨v.serial, m⟩, describes, ?_, ?_⟩
      · rw [scopes', ← length, List.getElem?_concat_length]
      · exact (congrArg (fun seen => seen.host.calls) same).trans calls

end Extension

namespace Session

/-! ## Main statement -/

variable {ε : Type} {env : Script.Setting} {produce : Produce Script.Producer Script.Bench} {first : Script.Bench}
  {z : Session Script.Producer (Noted Script.Producer Script.Bench)}

/-- What holds in a session with notes, whose builds by specs are recorded behind what was recorded at first. -/
structure BoundToSpecs (ε : Type) (env : Script.Setting) (produce : Produce Script.Producer Script.Bench)
    (first : Script.Bench) (z : Session Script.Producer (Noted Script.Producer Script.Bench)) : Prop where
  /-- The log shows what each build by a spec writes down, one build after another. -/
  recorded : z.world.host.host.log =
    first.log ++ (Script.specsOf z.world.host.calls).flatMap env.recorded
  /-- Each build by a spec takes a collector of its own. -/
  collectors : z.world.host.host.collections =
    first.collections + (Script.specsOf z.world.host.calls).length
  /-- Models from different builds by specs have different identities, as long as the supply lasts. -/
  identities : z.world.serial ≤ 16 ^ 15 → (Script.idsOf z.world.host.calls).Nodup
  /-- A unit that has a scope keeps it, and nothing is built, whatever is attached. -/
  reuses : ∀ (x : Extension Script.Producer) specs inst ctx i, x.find ctx z.world = some i →
    x.postProcess produce.noted specs inst ctx z.world = (⟨.ok i, none⟩, z.world)
  /-- A unit without a scope is given one by the spec that is attached now, with a registry of its own, if the spec
  describes a model. -/
  creates : ∀ (x : Extension Script.Producer) c inst ctx element spec, x.ofSpec spec = .spec spec →
    inst.producer = none → ctx.element = some element → (z.catalogs c).get? element = some spec →
    x.find ctx z.world = none →
    ∃ r injected w', x.postProcess produce.noted (z.catalogs c) inst ctx z.world = (⟨r, injected⟩, w') ∧
      match env.described spec with
      | .error e => r = .error e ∧ w'.find x.storage (x.key ctx) = none ∧ w'.host.calls =
          z.world.host.calls ++ [⟨.spec spec, ⟨.ofSerial z.world.serial, x.config.settings⟩, .error e⟩]
      | .ok _ => r = .ok z.world.scopes.length ∧ ∃ b, env.Describes spec b.model ∧
          w'.scopes[z.world.scopes.length]? =
            some ⟨x.key ctx, ⟨.ofSerial z.world.serial, x.config.settings⟩, .spec spec, .active (some b)⟩ ∧
          w'.host.calls =
            z.world.host.calls ++ [⟨.spec spec, ⟨.ofSerial z.world.serial, x.config.settings⟩, .ok b.model⟩]
  /-- Whatever is done later, a scope that follows a spec goes on to follow it, with the same registry. All models that
  it gives are the one that the spec describes. It gives none if it is closed or if the spec describes none. -/
  keeps : ∀ i s spec, z.world.scopes[i]? = some s → s.producer = .spec spec →
    ∀ later : List (Errand Script.Producer ε),
    let z' := z.run produce.noted later
    ∃ s', z'.world.scopes[i]? = some s' ∧ s'.producer = .spec spec ∧ s'.registry = s.registry ∧
      ∃ r w', z'.world.modelOf produce.noted i = some (r, w') ∧ (∀ b, r = .ok b → env.Describes spec b.model) ∧
        (∀ e, r = .error e → s'.phase = .closed ∨ env.described spec = .error e) ∧
        w'.host.calls = z'.world.host.calls ++
          if s'.phase = .activeEmpty then [⟨.spec spec, s.registry, r.map Built.model⟩] else []

/-- After any errands the tally is right. -/
lemma tally_run (bs : Script.BuildsSpecs env produce) (ta : Script.Tally env first z.world)
    (errands : List (Errand Script.Producer ε)) : Script.Tally env first (z.run produce.noted errands).world := by
  induction errands generalizing z with
  | nil => exact ta
  | cons e rest ih =>
    apply ih
    rcases rests_or_builds e with re | ⟨p, registry, r, bu⟩
    · exact ta.rests re
    · exact ta.builds bs bu

/-- In every session in which specs are built with a recording collector, each scope that was made for a spec is bound
to this spec and to its registry, and the log shows the builds by specs one after another. Writing the calls of
producers down changes nothing else. -/
theorem bound_to_specs (bs : Script.BuildsSpecs env produce) (catalogs : CatalogId → SpecCatalog)
    (first : Script.Bench) (errands : List (Errand Script.Producer ε)) :
    let z : Session Script.Producer (Noted Script.Producer Script.Bench) :=
      (start catalogs ⟨first, []⟩).run produce.noted errands
    z.plain = (start catalogs first).run produce errands ∧ BoundToSpecs ε env produce first z := by
  intro z
  have tidy : z.world.Tidy := (grows_run bs.discreet.noted (.start _) errands).tidy
  have tally : Script.Tally env first z.world := tally_run bs (.start env first) errands
  refine ⟨plain_run (start catalogs ⟨first, []⟩) errands, tally.log, tally.collections, tally.ids.nodup, ?_, ?_, ?_⟩
  · intro x specs inst ctx i found
    simp [Extension.postProcess, found]
  · intro x c inst ctx element spec ofSpec own he attached unfound
    have follows : x.producerFor (z.catalogs c) inst ctx = .ok (.spec spec) :=
      (Extension.producerFor_of_spec own he attached).trans (congrArg Except.ok ofSpec)
    exact Extension.postProcess_of_spec bs (tidy x.storage) unfound follows
  · intro i s spec hs follows later z'
    obtain ⟨s', hs', ag⟩ := (grows_run bs.discreet.noted tidy later).scopes i s hs
    have follows' : s'.producer = .spec spec := ag.producer.trans follows
    refine ⟨s', hs', follows', ag.registry, ?_⟩
    rw [← ag.registry]
    exact (tally_run bs tally later).modelOf bs hs' follows'

/-- A unit fails after its spec was replaced, and its scope goes on to build by the first one. It is torn down, and is
made ready again only once a spec is attached that describes a model. -/
theorem bound_to_specs_replaced :
    let env : Script.Setting :=
      ⟨[("Order", ⟨[.root "Order" []], []⟩), ("Item", ⟨[.root "Item" []], []⟩)], .none, .empty, []⟩
    let order : Spec := { Spec.empty with classes := [⟨"Order"⟩] }
    let unknown : Spec := { Spec.empty with packages := ["shop"], classNames := ["Nothing", "Item"] }
    let item : Spec := { Spec.empty with packages := ["shop"], classNames := ["Item"] }
    let x : Extension Script.Producer := ⟨⟨"demo", false, .empty⟩, 0, .spec⟩
    let ctx : Context := .forClass "unit" "T"
    let attach (spec : Spec) : Errand Script.Producer Unit := .deed 0 (.attach 0 "T" spec)
    let ready : Errand Script.Producer Unit := .deed 0 (.postProcess x 0 ⟨none, false⟩ ctx)
    let begun : List (Errand Script.Producer Unit) := [attach order, ready]
    let replaced : List (Errand Script.Producer Unit) :=
      [attach unknown, ready, .deed 0 (.handleFailure x ctx ())]
    let renewed : List (Errand Script.Producer Unit) :=
      [.deed 0 (.model 0), .deed 0 (.afterAll x ctx), ready, attach item, ready]
    let produce := Script.buildAlone env 0
    let z : Session Script.Producer (Noted Script.Producer Script.Bench) := start (fun _ => .empty) ⟨.start, []⟩
    let failed := (z.run produce.noted begun).run produce.noted replaced
    let done := z.run produce.noted (begun ++ replaced ++ renewed)
    Script.BuildsSpecs env produce ∧
    (∃ b w', failed.world.modelOf produce.noted 0 = some (.ok b, w') ∧ env.Describes order b.model) ∧
    done.world.host.host.log = [.mappedClass ⟨"Order"⟩, .mappedClass ⟨"Order"⟩, .package "shop",
      .className "Nothing", .package "shop", .className "Item"] ∧
    done.world.host.host.collections = 4 := by
  intro env order unknown item x ctx attach ready begun replaced renewed produce z failed done
  have bs : Script.BuildsSpecs env produce := Script.buildsSpecs_alone rfl 0
  obtain ⟨-, early⟩ := bound_to_specs bs (fun _ => .empty) .start begun
  obtain ⟨-, late⟩ := bound_to_specs bs (fun _ => .empty) .start (begun ++ replaced ++ renewed)
  have specs : Script.specsOf done.world.host.calls = [order, order, unknown, item] := by decide +kernel
  refine ⟨bs, ?_, ?_, ?_⟩
  · have first : ((z.run produce.noted begun).world.scopes[0]?).bind (·.producer.spec?) = some order := by
      decide +kernel
    have empty : (failed.world.scopes[0]?).map Scope.phase = some .activeEmpty := by decide +kernel
    obtain ⟨s, hs, follows⟩ := Option.bind_eq_some_iff.mp first
    obtain ⟨s', hs', -, -, r, w', asked, describes, refuses, -⟩ :=
      early.keeps 0 s order hs (Script.eq_spec_of_spec? follows) replaced
    cases r with
    | ok b => exact ⟨b, w', asked, describes b rfl⟩
    | error e =>
      -- the scope is not closed, and its spec does describe a model
      have hs₂ : failed.world.scopes[0]? = some s' := hs'
      rw [hs₂, Option.map_some, Option.some.injEq] at empty
      have good : (env.described order).toOption.isSome := by decide +kernel
      rcases refuses e rfl with closed | fails
      · rw [closed] at empty
        cases empty
      · rw [fails] at good
        cases good
  · rw [late.recorded, specs]
    decide +kernel
  · rw [late.collectors, specs]
    rfl

end Session

end ModelScopes
