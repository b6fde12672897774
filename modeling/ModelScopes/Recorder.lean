import ModelScopes.Contribution

/-!
# The recording collector

A collector that writes down every contribution it is handed and merges the bindings that a class catalog and the
bundles give into a model. It may be told to refuse some packages, resources and bundles, or to fail in the end.
-/

namespace ModelScopes

/-- The bindings of each class that can be resolved. -/
abbrev ClassCatalog := List (String × Bindings)

/-- What a collector refuses. A package or resource is written down first, a bundle is not; with a text for the end
the model is not built. -/
structure Refusals where
  packages : List String
  resources : List String
  bundles : List String
  build : Option String
  deriving DecidableEq, Repr, Inhabited

namespace Refusals

/-- Nothing is refused. -/
def none : Refusals :=
  ⟨[], [], [], Option.none⟩

end Refusals

/-- The contributions written down so far, and the model so far. -/
structure Recording where
  log : List Contribution
  model : Model
  deriving DecidableEq

namespace Recording

/-- Writes a contribution down. -/
def note (r : Recording) (c : Contribution) : Recording :=
  { r with log := r.log ++ [c] }

end Recording

namespace Recorder

/-- Merges the bindings of a class into the model. -/
def addClass (catalog : ClassCatalog) (name : String) (r : Recording) : Except SourcesError Unit × Recording :=
  match catalog.find? (fun e => e.1 == name) with
  | none => (.error (.unknownClass name), r)
  | some e => (.ok (), { r with model := r.model.merge e.2 })

/-- Binds an import name, which must not be bound to another class. -/
def addImport (name : String) (c : ClassName) (r : Recording) : Except SourcesError Unit × Recording :=
  match r.model.import? name with
  | some existing =>
    if existing = c.name then (.ok (), { r with model := r.model.addImport name c.name })
    else (.error (.duplicateImport name existing), r)
  | none => (.ok (), { r with model := r.model.addImport name c.name })

/-- Takes one contribution. -/
def add (catalog : ClassCatalog) (refusals : Refusals) (x : Contribution) (r : Recording) :
    Except SourcesError Unit × Recording :=
  match x with
  | .package name =>
    if refusals.packages.contains name then (.error (.unknownPackage name), r.note x) else (.ok (), r.note x)
  | .bundle b =>
    if refusals.bundles.contains b.name then (.error (.build ("no bundle " ++ b.name)), r)
    else (.ok (), { r.note x with model := r.model.merge b.bindings })
  | .mappedClass c => addClass catalog c.name (r.note x)
  | .className name => addClass catalog name (r.note x)
  | .resource name =>
    if refusals.resources.contains name then (.error (.resourceNotFound name), r.note x) else (.ok (), r.note x)
  | .queryImport name c => addImport name c (r.note x)

/-- Hands out the model. -/
def build (refusals : Refusals) (r : Recording) : Except SourcesError Model × Recording :=
  match refusals.build with
  | some text => (.error (.build text), r)
  | none => (.ok r.model, r)

/-- The recording collector. -/
def collector (catalog : ClassCatalog) (refusals : Refusals) : Collector Recording where
  add := add catalog refusals
  build := build refusals

end Recorder

end ModelScopes
