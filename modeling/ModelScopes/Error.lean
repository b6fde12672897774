import ModelScopes.Data.Fault

/-!
# Errors

What can go wrong while a model is put together, while a descriptor is made, and while a scope is used. Each error has
a message; `causes` are the messages of the errors behind it, the nearest first.
-/

namespace ModelScopes

/-- The identity of a test unit within the namespace of an extension. -/
structure ScopeKey where
  namespaceName : String
  unit : String
  deriving DecidableEq, Repr, Inhabited

namespace ScopeKey

/-- The key in one text; different keys may have the same text. -/
def text (k : ScopeKey) : String :=
  k.namespaceName ++ "::" ++ k.unit

end ScopeKey

/-- Why a contribution was refused, or a model could not be built. -/
inductive SourcesError where
  | unknownClass (name : String)
  | unknownPackage (name : String)
  | resourceNotFound (name : String)
  | duplicateImport (name existing : String)
  | build (text : String)
  deriving DecidableEq, Repr, Inhabited

namespace SourcesError

/-- The error in words. -/
def message : SourcesError → String
  | unknownClass n => "unknown class: '" ++ n ++ "'"
  | unknownPackage n => "unknown package: '" ++ n ++ "'"
  | resourceNotFound n => "mapping resource not found: " ++ n
  | duplicateImport n existing => "query import '" ++ n ++ "' already bound to " ++ existing
  | build text => "model build failed: " ++ text

end SourcesError

/-- Why there is no descriptor: none is registered, or making it failed, with a text or with an error behind it. -/
inductive DescriptorError where
  | unregistered (name : String)
  | failed (text : String)
  | failedBy (cause : SourcesError)
  deriving DecidableEq, Repr, Inhabited

namespace DescriptorError

/-- The error in words. -/
def message : DescriptorError → String
  | unregistered n => "no descriptor registered as '" ++ n ++ "'"
  | failed text => "descriptor construction failed: " ++ text
  | failedBy cause => "descriptor construction failed: " ++ cause.message

/-- The messages of the errors behind this one. -/
def causes : DescriptorError → List String
  | unregistered _ => []
  | failed text => [text]
  | failedBy cause => [cause.message]

end DescriptorError

/-- Why a configuration was refused. -/
inductive ConfigError where
  /-- The namespace holds nothing but blanks. -/
  | blankNamespace
  /-- A text is not what its title says. -/
  | unreadable (title : String) (fault : Fault)
  | other (text : String)
  deriving DecidableEq, Repr, Inhabited

namespace ConfigError

/-- The error in words, without those of a fault. -/
def message : ConfigError → String
  | blankNamespace => "namespace must not be empty"
  | unreadable title _ => "invalid " ++ title
  | other text => text

/-- The fault of a text that was refused. -/
def fault? : ConfigError → Option Fault
  | unreadable _ fault => some fault
  | _ => none

end ConfigError

/-- Why a scope, or the model of a scope, cannot be had. A producer fails with a text or with an error behind it. -/
inductive ScopeError where
  | inactive (key : ScopeKey)
  | specificationMissing (element : String)
  | unresolvableContext (name : String)
  | descriptor (name : String) (cause : DescriptorError)
  | sources (cause : SourcesError)
  | producer (text : String)
  | producerBy (cause : ScopeError)
  | config (cause : ConfigError)
  deriving DecidableEq, Repr, Inhabited

namespace ScopeError

/-- The error in words. -/
def message : ScopeError → String
  | inactive key => "domain model scope no longer active: " ++ key.text
  | specificationMissing element => "could not locate domain model specification for " ++ element
  | unresolvableContext name => "unable to determine how to handle extension context: " ++ name
  | descriptor name _ => "error instantiating domain model descriptor '" ++ name ++ "'"
  | sources cause => "model sources error: " ++ cause.message
  | producer text => "model producer failed: " ++ text
  | producerBy cause => "model producer failed: " ++ cause.message
  | config cause => "configuration error: " ++ cause.message

/-- The messages of the errors behind this one, the nearest first. -/
def causes : ScopeError → List String
  | descriptor _ cause => cause.message :: cause.causes
  | sources cause => [cause.message]
  | producer text => [text]
  | producerBy cause => cause.message :: cause.causes
  | _ => []

/-- Whether the scope was used after it was closed. -/
def isInactive : ScopeError → Bool
  | inactive _ => true
  | _ => false

/-- Whether the error is one of programming or configuration, and so will come again on every attempt. -/
def isFatal : ScopeError → Bool
  | sources _ | producer _ | producerBy _ => false
  | _ => true

end ScopeError

end ModelScopes
