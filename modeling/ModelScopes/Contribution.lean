import ModelScopes.Bundle
import ModelScopes.ClassName
import ModelScopes.Error

/-!
# Contributions

What a model is put together from, one contribution after another. A collector takes contributions, each of
which it may refuse depending on all that it took before, and builds the model in the end. It is given by
functions on a state that keeps whatever it wants to remember; a refused contribution may change the state, too.
-/

namespace ModelScopes

/-- Something that a model is put together from. -/
inductive Contribution where
  | package (name : String)
  | bundle (b : Bundle)
  | mappedClass (c : ClassName)
  | className (name : String)
  | resource (name : String)
  | queryImport (name : String) (c : ClassName)
  deriving DecidableEq, Repr, Inhabited

/-- What takes contributions and builds a model from them. -/
structure Collector (σ : Type) where
  add : Contribution → σ → Except SourcesError Unit × σ
  build : σ → Except SourcesError Model × σ

namespace Collector

variable {σ : Type}

/-- Hands over contributions in turn, up to the first that is refused. -/
def addAll (c : Collector σ) : List Contribution → σ → Except SourcesError Unit × σ
  | [], s => (.ok (), s)
  | x :: rest, s =>
    match c.add x s with
    | (.ok (), s) => addAll c rest s
    | (.error e, s) => (.error e, s)

end Collector

end ModelScopes
