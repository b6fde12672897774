import ModelScopes.Descriptor
import ModelScopes.Model.Cache
import ModelScopes.Spec.Basic

/-!
# Building a model from a spec

A workshop makes descriptors by name and collects contributions. A production hands everything over to it that a spec
declares, in eight groups: packages, bundles, descriptors, classes, class names, resources, named imports, and imports
under simple names. It stops at the first step that fails. The model that is built at the end gets the spec's cache
settings.
-/

namespace ModelScopes

/-- What a spec is handed over to: a collector, and a way to make descriptors that may remember its calls. -/
structure Workshop (σ : Type) where
  collector : Collector σ
  instantiate : String → σ → Except DescriptorError Descriptor × σ

namespace Workshop

variable {σ : Type}

/-- The workshop of a collector and a registry, which makes the same descriptor each time. -/
def ofRegistry (c : Collector σ) (r : DescriptorRegistry) : Workshop σ where
  collector := c
  instantiate name s := (r.instantiate name, s)

/-- Hands over contributions in turn, up to the first that is refused. -/
def contribute (w : Workshop σ) (cs : List Contribution) (s : σ) : Except ScopeError Unit × σ :=
  match w.collector.addAll cs s with
  | (.ok (), s) => (.ok (), s)
  | (.error e, s) => (.error (.sources e), s)

/-- Makes a descriptor and hands over what it contributes. -/
def follow (w : Workshop σ) (name : String) (s : σ) : Except ScopeError Unit × σ :=
  match w.instantiate name s with
  | (.error e, s) => (.error (.descriptor name e), s)
  | (.ok d, s) => w.contribute d s

/-- Hands over everything that a spec declares, group after group, up to the first step that fails. -/
def contributeSpec (w : Workshop σ) (spec : Spec) : ExceptT ScopeError (StateM σ) Unit := do
  for name in spec.packages do
    w.contribute [.package name]
  for b in spec.bundles do
    w.contribute [.bundle b]
  for name in spec.descriptors do
    w.follow name
  for c in spec.classes do
    w.contribute [.mappedClass c]
  for name in spec.classNames do
    w.contribute [.className name]
  for name in spec.resources do
    w.contribute [.resource name]
  for i in spec.imports do
    w.contribute [.queryImport i.name i.importedClass]
  for c in spec.importClasses do
    w.contribute [.queryImport c.simpleName c]

/-- Builds the model of a spec, before its cache settings. -/
def assemble (w : Workshop σ) (spec : Spec) (s : σ) : Except ScopeError Model × σ :=
  match w.contributeSpec spec s with
  | (.error e, s) => (.error e, s)
  | (.ok (), s) =>
    match w.collector.build s with
    | (.error e, s) => (.error (.sources e), s)
    | (.ok m, s) => (.ok m, s)

/-- Builds the model of a spec, with the report of its cache settings. -/
def produce (w : Workshop σ) (spec : Spec) (s : σ) : Except ScopeError (Model × CacheReport) × σ :=
  match w.assemble spec s with
  | (.error e, s) => (.error e, s)
  | (.ok m, s) => (.ok (m.applyCache spec.overrideCache spec.strategy), s)

end Workshop

/-- A producer that follows a spec, as messages show it. -/
def Spec.shownProducer (s : Spec) (r : DescriptorRegistry) : String :=
  "SpecDrivenProducer \x7b spec: " ++ s.shown ++ ", descriptors: " ++ r.shown ++ ", .. \x7d"

end ModelScopes
