import ModelScopes.Codec.Record
import ModelScopes.Contribution
import ModelScopes.Text.Characters

/-!
# Specs

A spec declares what the model of a test is put together from, and whether a cache strategy is forced upon it. All
of its fields may be left out in a text.
-/

namespace ModelScopes

/-- A class imported under a name of its own. -/
structure QueryImport where
  name : String
  importedClass : ClassName
  deriving DecidableEq, Repr, Inhabited

/-- What the model of a test is put together from. -/
structure Spec where
  packages : List String
  bundles : List Bundle
  descriptors : List String
  classes : List ClassName
  classNames : List String
  resources : List String
  imports : List QueryImport
  importClasses : List ClassName
  overrideCache : Bool
  strategy : String
  deriving DecidableEq, Repr

/-- Query imports as records. -/
def QueryImport.shape : Shape QueryImport where
  title := "struct QueryImport"
  fields :=
    [.needed "name" .string (·.name) (fun x i => { i with name := x }),
     .needed "imported_class" ClassName.codec (·.importedClass) (fun x i => { i with importedClass := x })]
  blank := default
  openEnded := false

namespace Spec

/-- The spec that declares nothing. -/
def empty : Spec :=
  ⟨[], [], [], [], [], [], [], [], false, ""⟩

instance : Inhabited Spec :=
  ⟨empty⟩

/-- Specs as records. -/
def shape : Shape Spec where
  title := "struct DomainModelSpec"
  fields :=
    [.optional "annotated_package_names" (.list .string) (·.packages) (fun x s => { s with packages := x }),
     .optional "standard_models" (.list Bundle.codec) (·.bundles) (fun x s => { s with bundles := x }),
     .optional "model_descriptor_classes" (.list .string) (·.descriptors) (fun x s => { s with descriptors := x }),
     .optional "annotated_classes" (.list ClassName.codec) (·.classes) (fun x s => { s with classes := x }),
     .optional "annotated_class_names" (.list .string) (·.classNames) (fun x s => { s with classNames := x }),
     .optional "xml_mappings" (.list .string) (·.resources) (fun x s => { s with resources := x }),
     .optional "extra_query_imports" (.list QueryImport.shape.codec) (·.imports) (fun x s => { s with imports := x }),
     .optional "extra_query_import_classes" (.list ClassName.codec) (·.importClasses)
       (fun x s => { s with importClasses := x }),
     .optional "override_cache_strategy" .bool (·.overrideCache) (fun x s => { s with overrideCache := x }),
     .optional "concurrency_strategy" .string (·.strategy) (fun x s => { s with strategy := x })]
  blank := empty
  openEnded := true

/-- The outcome of reading a spec. -/
def readable (r : Except Fault Spec) : Except ScopeError Spec :=
  r.mapError fun fault => .config (.unreadable "domain model spec" fault)

/-- Reads a spec from a JSON text. -/
def ofJson (text : String) : Except ScopeError Spec :=
  readable (shape.codec.ofJson text)

/-- Reads a spec from a TOML document. -/
def ofToml (text : String) : Except ScopeError Spec :=
  readable (shape.codec.ofToml text)

/-- One step of building a spec. -/
inductive Step where
  | package (name : String)
  | bundle (b : Bundle)
  | descriptor (name : String)
  | mappedClass (name : String)
  | className (name : String)
  | resource (name : String)
  | queryImport (name className : String)
  | importClass (name : String)
  | cacheOverride (strategy : String)
  deriving DecidableEq, Repr

/-- Declares one thing more; a cache override replaces an earlier one. -/
def declare (s : Spec) : Step → Spec
  | .package n => { s with packages := s.packages ++ [n] }
  | .bundle b => { s with bundles := s.bundles ++ [b] }
  | .descriptor n => { s with descriptors := s.descriptors ++ [n] }
  | .mappedClass n => { s with classes := s.classes ++ [⟨n⟩] }
  | .className n => { s with classNames := s.classNames ++ [n] }
  | .resource n => { s with resources := s.resources ++ [n] }
  | .queryImport n c => { s with imports := s.imports ++ [⟨n, ⟨c⟩⟩] }
  | .importClass n => { s with importClasses := s.importClasses ++ [⟨n⟩] }
  | .cacheOverride t => { s with overrideCache := true, strategy := t }

/-- The spec that the steps build. -/
def ofSteps (steps : List Step) : Spec :=
  steps.foldl declare empty

/-- A list as messages show it. -/
def shownList (xs : List String) : String :=
  "[" ++ ", ".intercalate xs ++ "]"

/-- A class name as messages show it. -/
def shownClass (c : ClassName) : String :=
  "ClassRef(" ++ Text.quoted c.name ++ ")"

/-- A query import as messages show it. -/
def shownImport (i : QueryImport) : String :=
  "QueryImport \x7b name: " ++ Text.quoted i.name ++ ", imported_class: " ++ shownClass i.importedClass ++ " \x7d"

/-- The spec as messages show it. -/
def shown (s : Spec) : String :=
  "DomainModelSpec \x7b annotated_package_names: " ++ shownList (s.packages.map Text.quoted) ++
    ", standard_models: " ++ shownList (s.bundles.map Bundle.title) ++
    ", model_descriptor_classes: " ++ shownList (s.descriptors.map Text.quoted) ++
    ", annotated_classes: " ++ shownList (s.classes.map shownClass) ++
    ", annotated_class_names: " ++ shownList (s.classNames.map Text.quoted) ++
    ", xml_mappings: " ++ shownList (s.resources.map Text.quoted) ++
    ", extra_query_imports: " ++ shownList (s.imports.map shownImport) ++
    ", extra_query_import_classes: " ++ shownList (s.importClasses.map shownClass) ++
    ", override_cache_strategy: " ++ toString s.overrideCache ++
    ", concurrency_strategy: " ++ Text.quoted s.strategy ++ " \x7d"

end Spec

end ModelScopes
