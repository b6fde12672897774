import ModelScopes.Extension.Basic
import ModelScopes.Model.Edit

/-!
# Scripts

A script is a list of steps that use extensions, storages and scopes. A producer in a script says how it builds: it
counts its calls, fails, edits a model, shows its registry's settings, goes through a sequence of producers, runs
steps of its own first, or follows a spec. A script names a scope by its place among the scopes shown so far.
-/

namespace ModelScopes.Script

/-- What a step does with a scope that was shown. -/
inductive ScopeStep where
  | model
  | invalidate
  | close
  | phase
  | key
  | setting (name : String)
  | settings
  | shown
  deriving DecidableEq, Repr

mutual

/-- How a model is built. A sequence counts its calls in a cell, which it is given when it is set up; its last
producer is used for all later calls. -/
inductive Producer where
  | counting (counter : String)
  | failing (error : ScopeError)
  | edits (start : Option Model) (edits : List Model.Edit)
  | settings
  | sequence (cell : Nat) (items : List Producer)
  | reentrant (steps : List Step) (next : Producer)
  | spec (s : Spec)

/-- A step of a script. Extensions are named by their place; a storage step goes to the storage of the first. -/
inductive Step where
  | postProcess (ext : Nat) (ctx : Context) (own : Option Producer) (takesScope : Bool)
  | afterAll (ext : Nat) (ctx : Context)
  | fail (ext : Nat) (ctx : Context) (error : String)
  | findScope (ext : Nat) (ctx : Context)
  | scopeKey (ext : Nat) (ctx : Context)
  | context (ctx : Context)
  | shownExtension (ext : Nat)
  | config (ext : Nat)
  | extensionStats (ext : Nat)
  | attach (element : String) (s : Spec)
  | detach (element : String)
  | lookup (element : String)
  | getOrCreate (key : ScopeKey) (p : Producer) (settings : Settings)
  | find (key : ScopeKey)
  | remove (key : ScopeKey)
  | contains (key : ScopeKey)
  | closeAll
  | stats
  | newScope (key : ScopeKey) (p : Producer) (settings : Settings)
  | openScope (key : ScopeKey) (p : Producer) (settings : Settings)
  | calls
  | counter (name : String)
  | showModel (label : String)
  | creators (count : Nat) (key : ScopeKey) (p : Producer)
  | readers (count : Nat) (label : String)
  | leader (key : ScopeKey) (p : Producer) (waiters : Nat) (waiter : Producer) (during : List Step)
  | scope (label : String) (op : ScopeStep)

end

instance : Inhabited Producer := ⟨.settings⟩

instance : Inhabited Step := ⟨.stats⟩

/-- What is seen of a scope's model: its place among the models shown, the place of the first one with the same
identity, and the model. -/
structure ShownModel where
  label : Nat
  idOf : Nat
  model : Model

/-- What a step answers. Scopes and models are named by their place among those shown. -/
inductive Reply where
  | nothing
  | scope (label : Option Nat)
  | created (r : Except ScopeError Nat)
  | processed (r : Except ScopeError Nat) (injected : Option Nat)
  | returned (error : String)
  | key (k : ScopeKey)
  | context (ctx : Context)
  | text (s : String)
  | optionalText (s : Option String)
  | config (c : Config)
  | pair (live slots : Nat)
  | stats (live slots : Nat)
  | replaced (old : Option Spec) (size : Nat)
  | spec (s : Option Spec)
  | flag (b : Bool)
  | count (n : Nat)
  | calls (log : List Contribution) (created : Nat)
  | snapshot (m : Option Model)
  | model (r : Except ScopeError ShownModel)
  | invalidated (r : Except ScopeError Unit)
  | phase (p : ScopePhase)
  | settings (s : Settings)
  | many (rs : List Reply)
  | led (during : List Reply) (leader : Reply) (waiters : List Reply)
  | noSuchScope (label : String)

end ModelScopes.Script
