import ModelScopes.Script.Run

/-!
# Reports on scripts

Runs a script from the start and reports on each step: its answer, and what can be seen of the world after it. Once a
step waits for ever there are no more reports.
-/

namespace ModelScopes.Script

mutual

/-- The number of producers and steps in a producer. -/
def Producer.size : Producer → Nat
  | .sequence _ items => 1 + producersSize items
  | .reentrant steps next => 1 + stepsSize steps + next.size
  | _ => 1

/-- The number of producers and steps in a step. -/
def Step.size : Step → Nat
  | .postProcess _ _ own _ => 1 + optionalSize own
  | .getOrCreate _ p _ | .newScope _ p _ | .openScope _ p _ | .creators _ _ p => 1 + p.size
  | .leader _ p _ waiter during => 1 + p.size + waiter.size + stepsSize during
  | _ => 1

/-- The number of producers and steps in producers. -/
def producersSize : List Producer → Nat
  | [] => 0
  | p :: rest => p.size + producersSize rest

/-- The number of producers and steps in steps. -/
def stepsSize : List Step → Nat
  | [] => 0
  | s :: rest => s.size + stepsSize rest

/-- The number of producers and steps in a producer that may be absent. -/
def optionalSize : Option Producer → Nat
  | none => 0
  | some p => p.size

end

/-- A bound on how deep builds and steps call each other. A step inside a build either stands deeper in the script
or names a scope that is not being built, and the script names no more scopes than it has steps. -/
def depthBound (steps : List Step) : Nat :=
  2 * (stepsSize steps + 1) * (stepsSize steps + 1)

/-- What is seen after a step: its answer, the live scopes and slots of the first extension's storage, the phases of
the scopes shown, the answers of steps inside builds, and the events. -/
structure Report where
  reply : Reply
  live : Nat
  slots : Nat
  phases : List ScopePhase
  inner : List Reply
  events : List Event

/-- Carries a step out and reports on it. -/
def report (env : Setting) (fuel : Nat) (step : Step) (w : ScriptWorld) : Report × ScriptWorld :=
  let logged := w.events.length
  let (reply, w) := act env fuel step (w.modifyHost fun b => { b with inner := [] })
  let (live, slots) := statsOf (mainStorage env) w
  let phases := w.host.shownScopes.filterMap fun i => (w.scopes[i]?).map (·.phase)
  (⟨reply, live, slots, phases, w.host.inner, w.events.drop logged⟩, w)

/-- Carries steps out in turn and reports on each that comes to an end. -/
def reports (env : Setting) (fuel : Nat) : List Step → ScriptWorld → List Report
  | [], _ => []
  | s :: rest, w =>
    let (r, w) := report env fuel s w
    if w.host.stuck then [] else r :: reports env fuel rest w

/-- Runs a script from the start. -/
def run (env : Setting) (steps : List Step) : List Report :=
  reports env (depthBound steps) steps (.start .start)

end ModelScopes.Script
