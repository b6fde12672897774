import ModelScopes.Codec.Basic
import ModelScopes.Model.Basic

/-!
# Bundles

The ready-made models that come with the library, by their stable names, and the bindings that each contributes.
-/

namespace ModelScopes

/-- A ready-made model. -/
inductive Bundle where
  | animal
  | contacts
  | gambit
  | helpdesk
  | retail
  | monetary
  | library
  deriving DecidableEq, Repr, Inhabited

/-- Entities and collections that come together. -/
structure Bindings where
  entities : List Entity
  collections : List Collection
  deriving DecidableEq, Repr, Inhabited

namespace Bundle

/-- The stable name of the bundle. -/
def name : Bundle → String
  | animal => "animal"
  | contacts => "contacts"
  | gambit => "gambit"
  | helpdesk => "helpdesk"
  | retail => "retail"
  | monetary => "monetary"
  | library => "library"

/-- The name of the bundle as a constructor. -/
def title : Bundle → String
  | animal => "Animal"
  | contacts => "Contacts"
  | gambit => "Gambit"
  | helpdesk => "Helpdesk"
  | retail => "Retail"
  | monetary => "Monetary"
  | library => "Library"

/-- All bundles, in order. -/
def all : List Bundle :=
  [animal, contacts, gambit, helpdesk, retail, monetary, library]

/-- The bundles by name. -/
def table : List (String × Bundle) :=
  all.map fun b => (b.name, b)

/-- Bundles are written as their names. -/
def codec : Codec Bundle :=
  Codec.enumeration table name

/-- The text of the descriptor that contributes the bundle. -/
def descriptorText (b : Bundle) : String :=
  "StandardModelDescriptor(" ++ b.title ++ ")"

/-- The bindings that the bundle contributes. -/
def bindings : Bundle → Bindings
  | animal =>
    ⟨[.root "Animal" [⟨"id", .simple "long"⟩, ⟨"description", .simple "string"⟩],
      .subclass "Dog" "Animal" []],
     [.new "Animal.offspring" (.manyToOne "Animal")]⟩
  | contacts =>
    ⟨[.root "Contact"
        [⟨"id", .simple "long"⟩, ⟨"name", .component "Name"⟩, ⟨"notes", .simple "clob"⟩]],
     [.new "Contact.phones" (.simple "string")]⟩
  | b => ⟨[.root (b.name ++ "Root") [⟨"id", .simple "long"⟩]], []⟩

end Bundle

namespace Model

/-- Adds bindings to the model, the entities first. -/
def merge (m : Model) (b : Bindings) : Model :=
  b.collections.foldl addCollection (b.entities.foldl addEntity m)

end Model

end ModelScopes
