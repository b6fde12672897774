import ModelScopes.Script.Bench
import ModelScopes.Spec.Production

/-!
# Carrying steps out

Builds by a script's producers, and carries its steps out one after another. Callers at the same time are run one
after another, too, and what they have is shown once all of them are done: creators of one key wait for each other,
and a creator whose build is held lets other steps run in the middle of its build, before its producer. `act` and
`build` call each other, because a producer may run steps; `fuel` bounds how deep. A step inside a build waits for ever
if it asks for a scope that is being created, or for anything of a scope whose model is being built.
-/

namespace ModelScopes.Script

/-- Builds by a spec, with what the collector wrote down added to the log. -/
def buildSpec (env : Setting) (s : Spec) (w : ScriptWorld) : Except ScopeError Model × ScriptWorld :=
  let (id, w) := w.freshId
  let shop := Workshop.ofRegistry (Recorder.collector env.catalog env.refusals) env.descriptors
  let (r, recording) := shop.assemble s ⟨w.host.log, .empty id⟩
  let w := w.modifyHost fun b => { b with log := recording.log, collections := b.collections + 1 }
  match r with
  | .error e => (.error e, w)
  | .ok m =>
    let w := w.emitAll (Event.ofCachePass m s.overrideCache s.strategy)
    (.ok (m.applyCache s.overrideCache s.strategy).1, w)

/-- The entity that shows a setting. -/
def settingEntity (e : String × String) : Entity :=
  .root e.1 [⟨"value", .simple e.2⟩]

/-- The producer of a sequence for its `n`th call: the last one when there are too few. -/
def pick : List Producer → Nat → Option Producer
  | [], _ => none
  | [p], _ => some p
  | p :: _, 0 => some p
  | _ :: rest, n + 1 => pick rest n

/-- Runs something again and again, for a list of answers. -/
def repeated {α : Type} (n : Nat) (f : ScriptWorld → α × ScriptWorld) (w : ScriptWorld) : List α × ScriptWorld :=
  match n with
  | 0 => ([], w)
  | n + 1 =>
    let (a, w) := f w
    let (rest, w) := repeated n f w
    (a :: rest, w)

/-- Goes through a list in turn, for a list of answers. -/
def inTurn {α β : Type} (f : α → ScriptWorld → β × ScriptWorld) : List α → ScriptWorld → List β × ScriptWorld
  | [], w => ([], w)
  | a :: rest, w =>
    let (b, w) := f a w
    let (bs, w) := inTurn f rest w
    (b :: bs, w)

/-- Runs steps inside a build: each answer is kept with those of the other steps inside builds. -/
def insideBuild (f : Step → ScriptWorld → Reply × ScriptWorld) : List Step → ScriptWorld → ScriptWorld
  | [], w => w
  | s :: rest, w =>
    let (a, w) := f s w
    insideBuild f rest (w.modifyHost fun b => { b with inner := b.inner ++ [a] })

/-- Uses the extension of a place. -/
def withExtension (env : Setting) (n : Nat) (w : ScriptWorld)
    (f : Extension Producer → Reply × ScriptWorld) : Reply × ScriptWorld :=
  match env.extensions[n]? with
  | none => (.nothing, w)
  | some x => f x

/-- The storage that storage steps go to: that of the first extension. -/
def mainStorage (env : Setting) : StorageId :=
  (env.extensions.head?.map (·.storage)).getD 0

/-- The outcome of an operation that waits for ever, which nobody sees. -/
def waiting {α : Type} : Except ScopeError α :=
  .error (.producer "waiting")

/-- Asks for the scope of a key, with a registry of the settings. -/
def askScope (produce : Produce Producer Bench) (env : Setting) (key : ScopeKey) (p : Producer)
    (settings : Settings) (w : ScriptWorld) : Except ScopeError ScopeId × ScriptWorld :=
  let (registry, w) := w.freshRegistry settings
  let st := mainStorage env
  unlessHeld (slotLock? st key w).toList waiting
    (fun w => w.getOrCreate (holding (slotLock? st key) produce) st key p registry) w

/-- Shows what a caller that asked for a scope has. -/
def showAsked (r : Except ScopeError ScopeId) (w : ScriptWorld) : Reply × ScriptWorld :=
  let (r, w) := showOutcome r w
  (.created r, w)

/-- Asks for the model of a scope. -/
def askModel (produce : Produce Producer Bench) (i : ScopeId) (w : ScriptWorld) :
    Option (Except ScopeError Built) × ScriptWorld :=
  unlessHeld [.scope i] none (fun w =>
    match w.modelOf (holding (fun _ => some (.scope i)) produce) i with
    | none => (none, w)
    | some (r, w) => (some r, w)) w

/-- Shows what a caller that asked for a model has. -/
def showRead (r : Option (Except ScopeError Built)) (w : ScriptWorld) : Reply × ScriptWorld :=
  match r with
  | none => (.nothing, w)
  | some (.error e) => (.model (.error e), w)
  | some (.ok b) =>
    let (m, w) := showModel b w
    (.model (.ok m), w)

/-- Carries a step on a scope out. -/
def actOnScope (produce : Produce Producer Bench) (i : ScopeId) (w : ScriptWorld) :
    ScopeStep → Reply × ScriptWorld
  | .model =>
    let (r, w) := askModel produce i w
    showRead r w
  | .invalidate =>
    unlessHeld [.scope i] .nothing (fun w =>
      match w.invalidate i with
      | none => (.nothing, w)
      | some (r, w) => (.invalidated r, w)) w
  | .close => unlessHeld [.scope i] .nothing (fun w => (.nothing, w.close i)) w
  | op =>
    match w.scopes[i]? with
    | none => (.nothing, w)
    | some s =>
      match op with
      | .phase => unlessHeld [.scope i] .nothing (fun w => (.phase s.phase, w)) w
      | .key => (.key s.key, w)
      | .setting name => (.optionalText (s.registry.setting? name), w)
      | .settings => (.settings s.registry.settings, w)
      | _ => unlessHeld [.scope i] .nothing (fun w => (.text (s.shown "<id>"), w)) w

/-- A test instance is ready. Its scope is asked for once there is a producer. -/
def readyInstance (produce : Produce Producer Bench) (x : Extension Producer) (inst : Instance Producer)
    (ctx : Context) (w : ScriptWorld) : Processed × ScriptWorld :=
  let lock := slotLock? x.storage (x.key ctx)
  let needed := if (x.producerFor w.host.specs inst ctx).toOption.isSome then (lock w).toList else []
  unlessHeld needed ⟨waiting, none⟩ (fun w => x.postProcess (holding lock produce) w.host.specs inst ctx w) w

mutual

/-- Builds by a producer. -/
def build (env : Setting) : Nat → Produce Producer Bench
  | 0, _, _, w => (.error (.producer "too deep"), w)
  | fuel + 1, p, registry, w =>
    match p with
    | .counting name =>
      let (id, w) := (w.modifyHost (·.raise name)).freshId
      (.ok ((Model.empty id).addEntity (.root "Fixture" [])), w)
    | .failing e => (.error e, w)
    | .edits start edits =>
      let (id, w) := w.freshId
      let (m, events) := (start.getD (.empty id)).editAll edits
      (.ok m, w.emitAll events)
    | .settings =>
      let (id, w) := w.freshId
      (.ok ((registry.settings.entries.map settingEntity).foldl Model.addEntity (.empty id)), w)
    | .sequence cell items =>
      let (n, b) := w.host.nextCall cell
      match pick items n with
      | none => (.error (.producer "no producer"), w)
      | some p => build env fuel p registry { w with host := b }
    | .reentrant steps next => build env fuel next registry (insideBuild (act env fuel) steps w)
    | .spec s => buildSpec env s w

/-- Carries a step out. -/
def act (env : Setting) : Nat → Step → ScriptWorld → Reply × ScriptWorld
  | 0, _, w => (.nothing, w)
  | fuel + 1, step, w =>
    let produce := build env fuel
    let st := mainStorage env
    match step with
    | .postProcess ext ctx own takesScope =>
      withExtension env ext w fun x =>
        let (own, w) :=
          match own with
          | none => (none, w)
          | some p =>
            let (p, w) := setUp p w
            (some p, w)
        let (r, w) := readyInstance produce x ⟨own, takesScope⟩ ctx w
        let (outcome, w) := showOutcome r.outcome w
        let (injected, w) := showOptional r.injected w
        (.processed outcome injected, w)
    | .afterAll ext ctx =>
      withExtension env ext w fun x =>
        unlessHeld ((x.find ctx w).map .scope).toList .nothing (fun w => (.nothing, x.afterAll ctx w)) w
    | .fail ext ctx e =>
      withExtension env ext w fun x =>
        unlessHeld ((x.find ctx w).map .scope).toList .nothing (fun w =>
          match x.handleFailure ctx e w with
          | (.error e, w) => (.returned e, w)
          | (.ok (), w) => (.nothing, w)) w
    | .findScope ext ctx =>
      withExtension env ext w fun x =>
        let (n, w) := showOptional (x.find ctx w) w
        (.scope n, w)
    | .scopeKey ext ctx => withExtension env ext w fun x => (.key (x.key ctx), w)
    | .context ctx => (.context ctx, w)
    | .shownExtension ext => withExtension env ext w fun x => (.text (x.shown env.descriptors w), w)
    | .config ext => withExtension env ext w fun x => (.config x.config, w)
    | .extensionStats ext =>
      withExtension env ext w fun x =>
        let (live, slots) := statsOf x.storage w
        (.pair live slots, w)
    | .attach element s =>
      let old := w.host.specs.get? element
      let w := w.modifyHost fun b => { b with specs := b.specs.insert element s }
      (.replaced old w.host.specs.size, w)
    | .detach element =>
      let old := w.host.specs.get? element
      let w := w.modifyHost fun b => { b with specs := b.specs.erase element }
      (.replaced old w.host.specs.size, w)
    | .lookup element => (.spec (w.host.specs.get? element), w)
    | .getOrCreate key p settings =>
      let (p, w) := setUp p w
      let (r, w) := askScope produce env key p settings w
      showAsked r w
    | .find key =>
      let (n, w) := showOptional (w.find st key) w
      (.scope n, w)
    | .remove key =>
      let (i, w) := w.remove st key
      let (n, w) := showOptional i w
      (.scope n, w)
    | .contains key => (.flag (w.contains st key), w)
    | .closeAll =>
      unlessHeld (storedLocks st w) .nothing (fun w =>
        let (n, w) := w.closeAll st
        (.count n, w)) w
    | .stats =>
      let (live, slots) := statsOf st w
      (.stats live slots, w)
    | .newScope key p settings =>
      let (p, w) := setUp p w
      let (registry, w) := w.freshRegistry settings
      let (i, w) := w.newScope key registry p
      showAsked (.ok i) w
    | .openScope key p settings =>
      let (p, w) := setUp p w
      let (registry, w) := w.freshRegistry settings
      let (r, w) := w.openScope produce key registry p
      showAsked r w
    | .calls => (.calls w.host.log w.host.collections, w)
    | .counter name => (.count (w.host.counter name), w)
    | .showModel label =>
      (.snapshot (((place? 'm' w.host.shownModels.length label).bind fun n => w.host.shownModels[n]?).map (·.model)), w)
    | .creators count key p =>
      let (p, w) := setUp p w
      let (rs, w) := repeated count (askScope produce env key p .empty) w
      let (shown, w) := inTurn showAsked rs w
      (.many shown, w)
    | .readers count label =>
      match scopeOf? w label with
      | none => (.noSuchScope label, w)
      | some i =>
        let (rs, w) := repeated count (askModel produce i) w
        let (shown, w) := inTurn showRead rs w
        (.many shown, w)
    | .leader key p waiters waiter during =>
      let (p, w) := setUp p w
      let (waiter, w) := setUp waiter w
      let held : Produce Producer Bench := fun p registry w =>
        let (rs, w) := inTurn (act env fuel) during w
        let (r, w) := produce p registry w
        (r, w.modifyHost fun b => { b with held := rs })
      let (first, w) := askScope held env key p .empty (w.modifyHost fun b => { b with held := [] })
      let answers := w.host.held
      let (others, w) := repeated waiters (askScope produce env key waiter .empty) w
      let (leader, w) := showAsked first w
      let (followers, w) := inTurn showAsked others w
      (.led answers leader followers, w)
    | .scope label op =>
      match scopeOf? w label with
      | none => (.noSuchScope label, w)
      | some i => actOnScope produce i w op

end

end ModelScopes.Script
