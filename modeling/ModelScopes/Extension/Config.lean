import ModelScopes.Codec.Record
import ModelScopes.Registry
import ModelScopes.Text.Characters

/-!
# Configuration

The namespace of an extension's keys, whether it hands new scopes to tests, and the settings of the registries it
makes. A namespace of nothing but blanks is refused.
-/

namespace ModelScopes

/-- The configuration of an extension. -/
structure Config where
  namespaceName : String
  injectScope : Bool
  settings : Settings
  deriving DecidableEq

namespace Config

/-- The namespace of an extension that is given none. -/
def defaultNamespace : String :=
  "dmx::DomainModelScope"

/-- The configuration of an extension that is given none. -/
def standard : Config :=
  ⟨defaultNamespace, true, .empty⟩

instance : Inhabited Config :=
  ⟨standard⟩

/-- Configurations as records. -/
def shape : Shape Config where
  title := "struct ExtensionConfig"
  fields :=
    [.optional "namespace" .string (·.namespaceName) (fun x c => { c with namespaceName := x }),
     .optional "inject_scope" .bool (·.injectScope) (fun x c => { c with injectScope := x }),
     .optional "registry_settings" .settings (·.settings) (fun x c => { c with settings := x })]
  blank := standard
  openEnded := true

/-- Refuses a namespace of nothing but blanks. -/
def validate (c : Config) : Except ScopeError Unit :=
  if Text.allBlank c.namespaceName then .error (.config .blankNamespace) else .ok ()

/-- Reads a configuration from a TOML document, and validates it. -/
def ofToml (text : String) : Except ScopeError Config :=
  match shape.codec.ofToml text with
  | .error fault => .error (.config (.unreadable "extension config" fault))
  | .ok c => c.validate.map fun _ => c

/-- One step of building a configuration. -/
inductive Step where
  | namespaceName (name : String)
  | inject (b : Bool)
  | setting (name value : String)
  deriving DecidableEq, Repr

/-- Configures one thing more. -/
def configure (c : Config) : Step → Config
  | .namespaceName n => { c with namespaceName := n }
  | .inject b => { c with injectScope := b }
  | .setting n v => { c with settings := c.settings.insert n v }

/-- The configuration that the steps build. -/
def ofSteps (steps : List Step) : Config :=
  steps.foldl configure standard

/-- Settings as messages show them. -/
def shownSettings (s : Settings) : String :=
  "\x7b" ++ ", ".intercalate (s.entries.map fun e => Text.quoted e.1 ++ ": " ++ Text.quoted e.2) ++ "\x7d"

/-- The configuration as messages show it. -/
def shown (c : Config) : String :=
  "ExtensionConfig \x7b namespace: " ++ Text.quoted c.namespaceName ++ ", inject_scope: " ++
    toString c.injectScope ++ ", registry_settings: " ++ shownSettings c.settings ++ " \x7d"

end Config

end ModelScopes
