import ModelScopes.Codec.Record
import ModelScopes.Error

/-!
# Service registries and keys as data

A service registry is what a producer is handed on every build of its scope: an identity and settings.
-/

namespace ModelScopes

/-- An identity with settings. -/
structure Registry where
  id : Uuid
  settings : Settings
  deriving DecidableEq

namespace Registry

/-- The text of a setting. -/
def setting? (r : Registry) (name : String) : Option String :=
  r.settings.get? name

/-- Registries as records. -/
def shape : Shape Registry where
  title := "struct ServiceRegistry"
  fields :=
    [.needed "id" .uuid (·.id) (fun x r => { r with id := x }),
     .needed "settings" .settings (·.settings) (fun x r => { r with settings := x })]
  blank := ⟨.ofSerial 0, .empty⟩
  openEnded := false

end Registry

/-- Scope keys as records. -/
def ScopeKey.shape : Shape ScopeKey where
  title := "struct ScopeKey"
  fields :=
    [.needed "namespace" .string (·.namespaceName) (fun x k => { k with namespaceName := x }),
     .needed "unit" .string (·.unit) (fun x k => { k with unit := x })]
  blank := default
  openEnded := false

end ModelScopes
