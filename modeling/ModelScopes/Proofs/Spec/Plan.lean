import Mathlib.Tactic.Common
import ModelScopes.Spec.Production

/-!
# Plans

The plan of a spec is a list of steps: contributions, and descriptors to be made and followed. Handing over the eight
groups of a spec one after another is carrying its plan out step by step, up to the first step that fails. The main
statement is `Workshop.contributeSpec_eq`.
-/

namespace ModelScopes

/-- One step of a plan: a contribution, or a descriptor to be made and followed. -/
inductive PlanStep where
  | contribute (c : Contribution)
  | follow (descriptor : String)
  deriving DecidableEq, Repr

open PlanStep in
/-- The steps that the eight groups of a spec come to, as one list. -/
def Spec.plan (s : Spec) : List PlanStep :=
  s.packages.map (fun n => contribute (.package n)) ++
    s.bundles.map (fun b => contribute (.bundle b)) ++
    s.descriptors.map follow ++
    s.classes.map (fun c => contribute (.mappedClass c)) ++
    s.classNames.map (fun n => contribute (.className n)) ++
    s.resources.map (fun n => contribute (.resource n)) ++
    s.imports.map (fun i => contribute (.queryImport i.name i.importedClass)) ++
    s.importClasses.map (fun c => contribute (.queryImport c.simpleName c))

namespace Workshop

variable {σ : Type} {w : Workshop σ}

/-- Carries one step out. -/
def perform (w : Workshop σ) (step : PlanStep) (s : σ) : Except ScopeError Unit × σ :=
  match step with
  | .contribute c => w.contribute [c] s
  | .follow name => w.follow name s

/-- Carries steps out in turn, up to the first that fails. -/
def performAll (w : Workshop σ) : List PlanStep → σ → Except ScopeError Unit × σ
  | [], s => (.ok (), s)
  | step :: rest, s =>
    match w.perform step s with
    | (.ok (), s) => performAll w rest s
    | (.error e, s) => (.error e, s)

/-! ## Steps in turn -/

/-- After a contribution that is taken come the others. -/
lemma contribute_of_ok {c : Contribution} {s s' : σ} (h : w.collector.add c s = (.ok (), s'))
    (rest : List Contribution) : w.contribute (c :: rest) s = w.contribute rest s' := by
  simp [contribute, Collector.addAll, h]

/-- A contribution that is refused is the last one, and its error is that of all. -/
lemma contribute_of_error {c : Contribution} {s s' : σ} {e : SourcesError} (h : w.collector.add c s = (.error e, s'))
    (rest : List Contribution) : w.contribute (c :: rest) s = (.error (.sources e), s') := by
  simp [contribute, Collector.addAll, h]

/-- To follow a descriptor that was made is to hand over its contributions. -/
lemma perform_of_made {name : String} {d : Descriptor} {s s' : σ} (h : w.instantiate name s = (.ok d, s')) :
    w.perform (.follow name) s = w.contribute d s' := by
  simp [perform, follow, h]

/-- A descriptor that cannot be made is an error, with the descriptor's name. -/
lemma perform_of_unmade {name : String} {e : DescriptorError} {s s' : σ} (h : w.instantiate name s = (.error e, s')) :
    w.perform (.follow name) s = (.error (.descriptor name e), s') := by
  simp [perform, follow, h]

/-- After a step that goes well come the others. -/
lemma performAll_of_ok {step : PlanStep} {s s' : σ} (h : w.perform step s = (.ok (), s')) (rest : List PlanStep) :
    w.performAll (step :: rest) s = w.performAll rest s' := by
  simp [performAll, h]

/-- A step that fails is the last one, and its error is that of the plan. -/
lemma performAll_of_error {step : PlanStep} {s s' : σ} {e : ScopeError} (h : w.perform step s = (.error e, s'))
    (rest : List PlanStep) : w.performAll (step :: rest) s = (.error e, s') := by
  simp [performAll, h]

/-- If all contributions are taken then the first one is, and then the others are. -/
lemma contribute_cons_ok {c : Contribution} {rest : List Contribution} {s s' : σ}
    (h : w.contribute (c :: rest) s = (.ok (), s')) :
    ∃ s₁, w.collector.add c s = (.ok (), s₁) ∧ w.contribute rest s₁ = (.ok (), s') := by
  cases first : w.collector.add c s with
  | mk r s₁ =>
    cases r with
    | error e => cases (contribute_of_error first rest).symm.trans h
    | ok u => exact ⟨s₁, rfl, (contribute_of_ok first rest).symm.trans h⟩

/-- If all steps go well then the first one does, and then the others do. -/
lemma performAll_cons_ok {step : PlanStep} {rest : List PlanStep} {s s' : σ}
    (h : w.performAll (step :: rest) s = (.ok (), s')) :
    ∃ s₁, w.perform step s = (.ok (), s₁) ∧ w.performAll rest s₁ = (.ok (), s') := by
  cases first : w.perform step s with
  | mk r s₁ =>
    cases r with
    | error e => cases (performAll_of_error first rest).symm.trans h
    | ok u => exact ⟨s₁, rfl, (performAll_of_ok first rest).symm.trans h⟩

/-- Contributions behind others that were taken are handed over after them. -/
lemma contribute_append_of_ok {cs : List Contribution} {s s' : σ} (h : w.contribute cs s = (.ok (), s'))
    (more : List Contribution) : w.contribute (cs ++ more) s = w.contribute more s' := by
  induction cs generalizing s with
  | nil =>
    cases h
    rfl
  | cons c rest ih =>
    obtain ⟨s₁, first, later⟩ := contribute_cons_ok h
    rw [List.cons_append, contribute_of_ok first, ih later]

/-- A plan behind one that was carried out is carried out after it. -/
lemma performAll_append_of_ok {plan : List PlanStep} {s s' : σ} (h : w.performAll plan s = (.ok (), s'))
    (more : List PlanStep) : w.performAll (plan ++ more) s = w.performAll more s' := by
  induction plan generalizing s with
  | nil =>
    cases h
    rfl
  | cons step rest ih =>
    obtain ⟨s₁, first, later⟩ := performAll_cons_ok h
    rw [List.cons_append, performAll_of_ok first, ih later]

/-- Contributions that stand in a plan one by one are handed over in turn. -/
lemma performAll_contributions (w : Workshop σ) (cs : List Contribution) (s : σ) :
    w.performAll (cs.map .contribute) s = w.contribute cs s := by
  induction cs generalizing s with
  | nil => rfl
  | cons c rest ih =>
    cases first : w.collector.add c s with
    | mk r s₁ =>
      cases r with
      | error e =>
        have stops : w.perform (.contribute c) s = (.error (.sources e), s₁) := contribute_of_error first []
        rw [List.map_cons, performAll_of_error stops, contribute_of_error first]
      | ok u =>
        have goes_on : w.perform (.contribute c) s = (.ok (), s₁) := contribute_of_ok first []
        rw [List.map_cons, performAll_of_ok goes_on, contribute_of_ok first, ih]

/-! ## The groups of a spec -/

section Loops

variable {α β : Type} {x : ExceptT ScopeError (StateM σ) α} {s s' : σ}

/-- What goes on after something that went well goes on from the state that this left. -/
lemma bind_of_ok {a : α} (h : x s = (.ok a, s')) (k : α → ExceptT ScopeError (StateM σ) β) : (x >>= k) s = k a s' := by
  change ExceptT.bindCont k (x s).1 (x s).2 = k a s'
  rw [h]
  rfl

/-- Nothing goes on after a failure. -/
lemma bind_of_error {e : ScopeError} (h : x s = (.error e, s')) (k : α → ExceptT ScopeError (StateM σ) β) :
    (x >>= k) s = (.error e, s') := by
  change ExceptT.bindCont k (x s).1 (x s).2 = (.error e, s')
  rw [h]
  rfl

/-- A loop over one group is that part of a plan which has a step for each item of the group. -/
lemma loop_then {body : α → ExceptT ScopeError (StateM σ) Unit} {k : ExceptT ScopeError (StateM σ) Unit}
    {f : α → PlanStep} {more : List PlanStep} (xs : List α) (hb : ∀ x s, body x s = w.perform (f x) s)
    (hk : ∀ s, k s = w.performAll more s) (s : σ) :
    (do
      for x in xs do
        body x
      k : ExceptT ScopeError (StateM σ) Unit) s = w.performAll (xs.map f ++ more) s := by
  induction xs generalizing s with
  | nil => exact hk s
  | cons x rest ih =>
    simp only [List.map_cons, List.cons_append, performAll, List.forIn_cons, bind_assoc, pure_bind, ← hb]
    cases first : body x s with
    | mk r s' =>
      cases r with
      | error e => rw [bind_of_error first]
      | ok u => rw [bind_of_ok first, ih s']

/-- Handing over the eight groups of a spec is carrying its plan out. -/
lemma contributeSpec_eq (w : Workshop σ) (spec : Spec) (s : σ) :
    w.contributeSpec spec s = w.performAll spec.plan s := by
  unfold contributeSpec
  simp only [Spec.plan, List.append_assoc]
  rw [← List.append_nil (spec.importClasses.map _)]
  refine loop_then spec.packages (fun _ _ => by rfl) ?_ s
  refine loop_then spec.bundles (fun _ _ => by rfl) ?_
  refine loop_then spec.descriptors (fun _ _ => by rfl) ?_
  refine loop_then spec.classes (fun _ _ => by rfl) ?_
  refine loop_then spec.classNames (fun _ _ => by rfl) ?_
  refine loop_then spec.resources (fun _ _ => by rfl) ?_
  refine loop_then spec.imports (fun _ _ => by rfl) ?_
  exact loop_then spec.importClasses (fun _ _ => by rfl) fun _ => rfl

end Loops

variable {spec : Spec} {s s' : σ}

/-- A plan that fails ends its production. -/
lemma assemble_of_error {e : ScopeError} (h : w.performAll spec.plan s = (.error e, s')) :
    w.assemble spec s = (.error e, s') := by
  rw [assemble, contributeSpec_eq, h]

/-- Once a plan is carried out the model is built. -/
lemma assemble_of_ok (h : w.performAll spec.plan s = (.ok (), s')) :
    w.assemble spec s = ((w.collector.build s').1.mapError .sources, (w.collector.build s').2) := by
  rw [assemble, contributeSpec_eq, h]
  cases hb : w.collector.build s' with
  | mk r s'' => cases r <;> simp [hb, Except.mapError]

/-- A plan that fails leaves no model. -/
lemma produce_of_error {e : ScopeError} (h : w.performAll spec.plan s = (.error e, s')) :
    w.produce spec s = (.error e, s') := by
  rw [produce, assemble_of_error h]

/-- Once a plan is carried out the model that is built gets the cache settings of the spec. -/
lemma produce_of_ok (h : w.performAll spec.plan s = (.ok (), s')) :
    w.produce spec s =
      (((w.collector.build s').1.mapError .sources).map (Model.applyCache · spec.overrideCache spec.strategy),
        (w.collector.build s').2) := by
  rw [produce, assemble_of_ok h]
  cases w.collector.build s' with
  | mk r s'' => cases r <;> rfl

/-! ## Workshops that do the same -/

/-- A workshop makes the same replies as another one, whose state it sees through `f`. -/
structure Mirrors {τ : Type} (w : Workshop σ) (w' : Workshop τ) (f : τ → σ) : Prop where
  add : ∀ c t, w.collector.add c (f t) = ((w'.collector.add c t).1, f (w'.collector.add c t).2)
  instantiate : ∀ name t, w.instantiate name (f t) = ((w'.instantiate name t).1, f (w'.instantiate name t).2)

namespace Mirrors

variable {τ : Type} {w' : Workshop τ} {f : τ → σ} (mi : w.Mirrors w' f)

include mi

/-- The same contributions are taken or refused, with the same errors. -/
lemma contribute (cs : List Contribution) (t : τ) :
    w.contribute cs (f t) = ((w'.contribute cs t).1, f (w'.contribute cs t).2) := by
  induction cs generalizing t with
  | nil => rfl
  | cons c rest ih =>
    have add := mi.add c t
    cases h : w'.collector.add c t with
    | mk r t' =>
      rw [h] at add
      cases r with
      | error e => rw [contribute_of_error add, contribute_of_error h]
      | ok u =>
        rw [contribute_of_ok add, contribute_of_ok h]
        exact ih t'

/-- The same steps go well or fail, with the same errors. -/
lemma perform (step : PlanStep) (t : τ) : w.perform step (f t) = ((w'.perform step t).1, f (w'.perform step t).2) := by
  cases step with
  | contribute c => exact mi.contribute [c] t
  | follow name =>
    have made := mi.instantiate name t
    cases h : w'.instantiate name t with
    | mk r t' =>
      rw [h] at made
      cases r with
      | error e => rw [perform_of_unmade made, perform_of_unmade h]
      | ok d =>
        rw [perform_of_made made, perform_of_made h]
        exact mi.contribute d t'

/-- The same plans are carried out or fail, with the same errors. -/
lemma performAll (plan : List PlanStep) (t : τ) :
    w.performAll plan (f t) = ((w'.performAll plan t).1, f (w'.performAll plan t).2) := by
  induction plan generalizing t with
  | nil => rfl
  | cons step rest ih =>
    have first := mi.perform step t
    cases h : w'.perform step t with
    | mk r t' =>
      rw [h] at first
      cases r with
      | error e => rw [performAll_of_error first, performAll_of_error h]
      | ok u =>
        rw [performAll_of_ok first, performAll_of_ok h]
        exact ih t'

end Mirrors

end Workshop

end ModelScopes
