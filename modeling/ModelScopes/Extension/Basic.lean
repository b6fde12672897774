import ModelScopes.Descriptor
import ModelScopes.Extension.Config
import ModelScopes.Scope.Stored
import ModelScopes.Spec.Basic

/-!
# The extension

An extension keeps one scope for each test unit. The host calls it when a test instance is ready, when a test has
failed, and when the unit is done. The producer of a new scope is the instance's own if it has one; otherwise
it builds from the spec that is attached to the context's element.
-/

namespace ModelScopes

/-- What the host knows about the test unit that a hook runs for. -/
structure Context where
  uniqueId : String
  displayName : String
  element : Option String
  deriving DecidableEq, Repr, Inhabited

namespace Context

/-- The context of a test class. -/
def forClass (uniqueId className : String) : Context :=
  ⟨uniqueId, className, some className⟩

/-- A context without a test element. -/
def detached (uniqueId displayName : String) : Context :=
  ⟨uniqueId, displayName, none⟩

end Context

/-- A test instance as the extension sees it. -/
structure Instance (P : Type) where
  producer : Option P
  takesScope : Bool

/-- The specs attached to test elements. -/
abbrev SpecCatalog := OrderedMap Spec

/-- An extension: its configuration, its storage, and how it makes a producer from a spec. -/
structure Extension (P : Type) where
  config : Config
  storage : StorageId
  ofSpec : Spec → P

/-- What a hook for a new test instance answers: the unit's scope, and the scope handed to the instance. -/
structure Processed where
  outcome : Except ScopeError ScopeId
  injected : Option ScopeId

namespace Extension

variable {P H : Type}

/-- An extension, if its configuration is valid. -/
def new (config : Config) (storage : StorageId) (ofSpec : Spec → P) : Except ScopeError (Extension P) :=
  config.validate.map fun _ => ⟨config, storage, ofSpec⟩

/-- The key of a unit's scope. -/
def key (x : Extension P) (ctx : Context) : ScopeKey :=
  ⟨x.config.namespaceName, ctx.uniqueId⟩

/-- The scope of a unit. -/
def find (x : Extension P) (ctx : Context) (w : World P H) : Option ScopeId :=
  w.find x.storage (x.key ctx)

/-- The producer of the spec that is attached to the context's element. -/
def specProducer (x : Extension P) (specs : SpecCatalog) (ctx : Context) : Except ScopeError P :=
  match ctx.element with
  | none => .error (.unresolvableContext ctx.displayName)
  | some element =>
    match specs.get? element with
    | none => .error (.specificationMissing element)
    | some spec => .ok (x.ofSpec spec)

/-- The producer for a new scope: the instance's own, else that of the spec. -/
def producerFor (x : Extension P) (specs : SpecCatalog) (inst : Instance P) (ctx : Context) :
    Except ScopeError P :=
  match inst.producer with
  | some p => .ok p
  | none => x.specProducer specs ctx

/-- A test instance is ready: finds its unit's scope or creates it. Only a scope found missing is handed to the
instance. -/
def postProcess (x : Extension P) (produce : Produce P H) (specs : SpecCatalog) (inst : Instance P)
    (ctx : Context) (w : World P H) : Processed × World P H :=
  match x.find ctx w with
  | some i => (⟨.ok i, none⟩, w)
  | none =>
    match x.producerFor specs inst ctx with
    | .error e => (⟨.error e, none⟩, w)
    | .ok p =>
      let (registry, w) := w.freshRegistry x.config.settings
      match w.getOrCreate produce x.storage (x.key ctx) p registry with
      | (.error e, w) => (⟨.error e, none⟩, w)
      | (.ok i, w) => (⟨.ok i, if x.config.injectScope && inst.takesScope then some i else none⟩, w)

/-- A test unit is done: takes its scope out of the storage and closes it. -/
def afterAll (x : Extension P) (ctx : Context) (w : World P H) : World P H :=
  match w.remove x.storage (x.key ctx) with
  | (none, w) => w
  | (some i, w) => (w.close i).emit (.scopeReleased (x.key ctx))

/-- Lets go of the model of a scope that was found for a key, because a test failed. -/
def invalidateFound (key : ScopeKey) (i : ScopeId) (w : World P H) : World P H :=
  match w.invalidate i with
  | none => w
  | some (.ok (), w) => w.emit (.invalidatedAfterFailure key)
  | some (.error e, w) => w.emit (.notInvalidated key e)

/-- A test has failed: lets go of the model of its unit's scope and hands the error back. -/
def handleFailure {ε : Type} (x : Extension P) (ctx : Context) (error : ε) (w : World P H) :
    Except ε Unit × World P H :=
  match x.find ctx w with
  | none => (.error error, w)
  | some i => (.error error, invalidateFound (x.key ctx) i w)

/-- The extension as messages show it. -/
def shown (x : Extension P) (descriptors : DescriptorRegistry) (w : World P H) : String :=
  let st := w.storages x.storage
  "DomainModelExtension \x7b config: " ++ x.config.shown ++ ", manager: ManagerStats \x7b live_scopes: " ++
    toString st.size ++ ", slots: " ++ toString st.slotCount ++ " \x7d, descriptors: " ++ descriptors.shown ++
    ", .. \x7d"

end Extension

end ModelScopes
