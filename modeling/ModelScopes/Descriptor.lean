import ModelScopes.Contribution
import ModelScopes.Text.Characters

/-!
# Descriptors

A descriptor is a list of contributions made under a name. A registry knows how to make descriptors by name, or
fails to; registering a name again replaces what it made before.
-/

namespace ModelScopes

/-- Contributions that come together. -/
abbrev Descriptor := List Contribution

/-- How descriptors are made, by name. -/
structure DescriptorRegistry where
  recipes : OrderedMap (Except DescriptorError Descriptor)

namespace DescriptorRegistry

/-- The registry that knows no descriptor. -/
def empty : DescriptorRegistry :=
  ⟨.empty⟩

/-- Registers how the descriptor of a name is made. -/
def register (r : DescriptorRegistry) (name : String) (recipe : Except DescriptorError Descriptor) :
    DescriptorRegistry :=
  ⟨r.recipes.insert name recipe⟩

/-- Whether a name is registered. -/
def contains (r : DescriptorRegistry) (name : String) : Bool :=
  (r.recipes.get? name).isSome

/-- Makes the descriptor of a name. -/
def instantiate (r : DescriptorRegistry) (name : String) : Except DescriptorError Descriptor :=
  (r.recipes.get? name).getD (.error (.unregistered name))

/-- The registered names. -/
def names (r : DescriptorRegistry) : List String :=
  r.recipes.keys

/-- The number of registered names. -/
def size (r : DescriptorRegistry) : Nat :=
  r.recipes.size

/-- The registry as messages show it. -/
def shown (r : DescriptorRegistry) : String :=
  "DescriptorRegistry \x7b names: [" ++ ", ".intercalate (r.names.map Text.quoted) ++ "] \x7d"

end DescriptorRegistry

namespace Descriptor

/-- The descriptor that adds classes in turn. -/
def ofClasses (names : List String) : Descriptor :=
  names.map fun n => .mappedClass ⟨n⟩

/-- How a descriptor is made whose construction always fails. -/
def failing (name : String) : Except DescriptorError Descriptor :=
  .error (.failed (name ++ " has no accessible default constructor"))

end Descriptor

end ModelScopes
