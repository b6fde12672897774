import ModelScopes.Proofs.Spec.Plan
import ModelScopes.Recorder

/-!
# Productions in order

What a workshop is asked for while the model of a spec is built, in order and with each reply. `Spec.requests` spells out
what a spec asks for, group by group: each contribution is one request, and each descriptor is one request for it and
then its contributions. Whatever the workshop replies, a production goes through this list from the left up to the first
request that fails, and comes to what this last reply says; if none fails then it ends with the model. The main statement
is `Workshop.follows_spec`.
-/

namespace ModelScopes

/-- What a workshop is asked for. -/
inductive Request where
  | add (c : Contribution)
  | make (descriptor : String)
  | build
  deriving DecidableEq

/-- A request with the reply to it. -/
inductive Act where
  | add (c : Contribution) (r : Except SourcesError Unit)
  | make (descriptor : String) (r : Except DescriptorError Descriptor)
  | build (r : Except SourcesError Model)

namespace Act

/-- The request. -/
def request : Act → Request
  | add c _ => .add c
  | make name _ => .make name
  | build _ => .build

/-- The error that the reply brings about. -/
def error? : Act → Option ScopeError
  | add _ (.error e) => some (.sources e)
  | make name (.error e) => some (.descriptor name e)
  | build (.error e) => some (.sources e)
  | _ => none

/-- The descriptor that is made. -/
def made? : Act → Option Descriptor
  | make _ (.ok d) => some d
  | _ => none

/-- The descriptors that are made, in order. -/
def madeIn (acts : List Act) : List Descriptor :=
  acts.filterMap made?

/-- Whether everything goes well. -/
def Granted (acts : List Act) : Prop :=
  ∀ x ∈ acts, x.error? = none

/-- Whether everything goes well up to the last one, which brings an error about. -/
def Stops (acts : List Act) (e : ScopeError) : Prop :=
  ∃ before last, acts = before ++ [last] ∧ Granted before ∧ last.error? = some e

end Act

open Request in
/-- All that a spec asks for, in order, if these descriptors are made under its descriptor names. -/
def Spec.requests (s : Spec) (ds : List Descriptor) : List Request :=
  s.packages.map (fun name => add (.package name)) ++
    s.bundles.map (fun b => add (.bundle b)) ++
    (s.descriptors.zip ds).flatMap (fun e => make e.1 :: e.2.map add) ++
    s.classes.map (fun c => add (.mappedClass c)) ++
    s.classNames.map (fun name => add (.className name)) ++
    s.resources.map (fun name => add (.resource name)) ++
    s.imports.map (fun i => add (.queryImport i.name i.importedClass)) ++
    s.importClasses.map (fun c => add (.queryImport c.simpleName c)) ++
    [build]

/-- What a workshop works on, with all requests and replies so far. -/
structure Ledger (σ : Type) where
  state : σ
  acts : List Act

namespace Workshop

variable {σ : Type}

/-- The same workshop, whose requests and replies are written down. -/
def noted (w : Workshop σ) : Workshop (Ledger σ) where
  collector :=
    { add := fun c l =>
        let (r, s) := w.collector.add c l.state
        (r, ⟨s, l.acts ++ [.add c r]⟩)
      build := fun l =>
        let (r, s) := w.collector.build l.state
        (r, ⟨s, l.acts ++ [.build r]⟩) }
  instantiate name l :=
    let (r, s) := w.instantiate name l.state
    (r, ⟨s, l.acts ++ [.make name r]⟩)

/-- Asks a workshop for one thing. -/
def answer (w : Workshop σ) (s : σ) : Request → Act × σ
  | .add c =>
    let (r, s) := w.collector.add c s
    (.add c r, s)
  | .make name =>
    let (r, s) := w.instantiate name s
    (.make name r, s)
  | .build =>
    let (r, s) := w.collector.build s
    (.build r, s)

/-- Asks a workshop for one thing after another. -/
def answers (w : Workshop σ) : List Request → σ → List Act × σ
  | [], s => ([], s)
  | q :: rest, s =>
    let (x, s) := w.answer s q
    let (xs, s) := answers w rest s
    (x :: xs, s)

/-- What becomes of a production by the spec that comes to `r` with these requests and replies. -/
structure Follows (spec : Spec) (r : Except ScopeError (Model × CacheReport)) (acts : List Act) : Prop where
  /-- No more descriptors are made than the spec lists. -/
  made : (Act.madeIn acts).length ≤ spec.descriptors.length
  /-- The requests are those of the spec, from the first one on, whatever the descriptors would be that were not made. -/
  order : ∀ ds, Act.madeIn acts <+: ds → ds.length = spec.descriptors.length →
    acts.map Act.request <+: spec.requests ds
  /-- An error comes from the last reply, and no reply before brought an error about. -/
  stops : ∀ e, r = .error e → Act.Stops acts e
  /-- If all goes well then each descriptor of the spec was made, all requests of the spec were made, and the model that
  is built gets its cache settings. -/
  ends : ∀ a, r = .ok a → Act.Granted acts ∧ (Act.madeIn acts).length = spec.descriptors.length ∧
    acts.map Act.request = spec.requests (Act.madeIn acts) ∧
    ∃ m, acts.getLast? = some (.build (.ok m)) ∧ a = m.applyCache spec.overrideCache spec.strategy

end Workshop

/-! ## Lists of requests and replies -/

namespace Act

variable {acts more : List Act} {e : ScopeError}

/-- Descriptors are made in the order of the requests for them. -/
@[simp] lemma madeIn_append (acts more : List Act) : madeIn (acts ++ more) = madeIn acts ++ madeIn more :=
  List.filterMap_append

/-- No descriptor is made by asking for the model. -/
lemma madeIn_concat_build (acts : List Act) (r : Except SourcesError Model) :
    madeIn (acts ++ [.build r]) = madeIn acts := by
  rw [madeIn_append]
  exact List.append_nil _

/-- Everything goes well if the first part and then the second one do. -/
lemma Granted.append (gr : Granted acts) (gr' : Granted more) : Granted (acts ++ more) := by
  intro x hx
  rcases List.mem_append.mp hx with old | new
  · exact gr x old
  · exact gr' x new

/-- What goes well and then stops with an error stops with it. -/
lemma Granted.then_stops (gr : Granted acts) (st : Stops more e) : Stops (acts ++ more) e := by
  obtain ⟨before, last, rfl, gr', h⟩ := st
  exact ⟨acts ++ before, last, (List.append_assoc ..).symm, gr.append gr', h⟩

/-- A reply that brings an error about is a stop by itself. -/
lemma stops_singleton {x : Act} (h : x.error? = some e) : Stops [x] e :=
  ⟨[], x, rfl, List.forall_mem_nil _, h⟩

/-- A reply that brings no error about goes well by itself. -/
lemma granted_singleton {x : Act} (h : x.error? = none) : Granted [x] := by
  intro y hy
  rwa [List.mem_singleton.mp hy]

end Act

namespace Workshop

variable {σ : Type} {w : Workshop σ}

/-- Requests after requests are answered in turn. -/
lemma answers_append (w : Workshop σ) (qs more : List Request) (s : σ) :
    w.answers (qs ++ more) s =
      ((w.answers qs s).1 ++ (w.answers more (w.answers qs s).2).1, (w.answers more (w.answers qs s).2).2) := by
  induction qs generalizing s with
  | nil => rfl
  | cons q rest ih => simp [answers, ih]

/-- A ledger takes these requests and replies down, which are those of the workshop. -/
structure Takes (w : Workshop σ) (l l' : Ledger σ) (xs : List Act) : Prop where
  acts : l'.acts = l.acts ++ xs
  answers : w.answers (xs.map Act.request) l.state = (xs, l'.state)

/-- Without a request nothing is taken down. -/
lemma Takes.nil (w : Workshop σ) (l : Ledger σ) : w.Takes l l [] :=
  ⟨(List.append_nil _).symm, rfl⟩

/-- What is taken down later comes behind. -/
lemma Takes.append {l l' l'' : Ledger σ} {xs ys : List Act} (ta : w.Takes l l' xs) (ta' : w.Takes l' l'' ys) :
    w.Takes l l'' (xs ++ ys) where
  acts := by rw [ta'.acts, ta.acts, List.append_assoc]
  answers := by rw [List.map_append, answers_append, ta.answers, ta'.answers]

/-- A contribution is taken down with the reply to it. -/
lemma takes_add (w : Workshop σ) (c : Contribution) (l : Ledger σ) :
    w.Takes l (w.noted.collector.add c l).2 [.add c (w.noted.collector.add c l).1] :=
  ⟨rfl, rfl⟩

/-- The making of a descriptor is taken down with the reply to it. -/
lemma takes_make (w : Workshop σ) (name : String) (l : Ledger σ) :
    w.Takes l (w.noted.instantiate name l).2 [.make name (w.noted.instantiate name l).1] :=
  ⟨rfl, rfl⟩

/-- The request for the model is taken down with the reply to it. -/
lemma takes_build (w : Workshop σ) (l : Ledger σ) :
    w.Takes l (w.noted.collector.build l).2 [.build (w.noted.collector.build l).1] :=
  ⟨rfl, rfl⟩

end Workshop

/-! ## Requests of a plan -/

namespace PlanStep

/-- The name of the descriptor that a step follows. -/
def name? : PlanStep → Option String
  | contribute _ => none
  | follow name => some name

/-- The descriptor names of a plan. -/
def names (plan : List PlanStep) : List String :=
  plan.filterMap name?

/-- What a plan asks for if these descriptors are made in turn. -/
def requests : List PlanStep → List Descriptor → List Request
  | [], _ => []
  | contribute c :: rest, ds => .add c :: requests rest ds
  | follow name :: rest, d :: ds => .make name :: d.map .add ++ requests rest ds
  | follow _ :: rest, [] => requests rest []

variable {plan more : List PlanStep} {ds ds' : List Descriptor}

/-- Plans one behind the other ask for what they ask for one after the other. -/
lemma requests_append (complete : ds.length = (names plan).length) :
    requests (plan ++ more) (ds ++ ds') = requests plan ds ++ requests more ds' := by
  induction plan generalizing ds with
  | nil =>
    rw [List.length_eq_zero_iff.mp complete]
    rfl
  | cons step rest ih =>
    cases step with
    | contribute c => exact congrArg (Request.add c :: ·) (ih complete)
    | follow name =>
      cases ds with
      | nil => cases complete
      | cons d ds =>
        have later := ih (Nat.succ.inj complete)
        simp only [List.cons_append, requests, later, List.append_assoc]

/-- A group of contributions asks for each of them. -/
lemma requests_contributions {α : Type} (f : α → Contribution) (xs : List α) (more : List PlanStep)
    (ds : List Descriptor) :
    requests (xs.map (fun x => contribute (f x)) ++ more) ds = xs.map (fun x => .add (f x)) ++ requests more ds := by
  induction xs with
  | nil => rfl
  | cons x rest ih => exact congrArg (Request.add (f x) :: ·) ih

/-- A group of descriptors asks for each of them, and hands over what it contributes. -/
lemma requests_follows {ns : List String} (complete : ds.length = ns.length) (more : List PlanStep) :
    requests (ns.map follow ++ more) ds =
      (ns.zip ds).flatMap (fun e => .make e.1 :: e.2.map .add) ++ requests more [] := by
  induction ns generalizing ds with
  | nil =>
    rw [List.length_eq_zero_iff.mp complete]
    rfl
  | cons name rest ih =>
    cases ds with
    | nil => cases complete
    | cons d ds =>
      have later := ih (Nat.succ.inj complete)
      simp only [List.map_cons, List.cons_append, requests, later, List.zip_cons_cons, List.flatMap_cons,
        List.append_assoc]

/-- The names of plans one behind the other stand one behind the other. -/
lemma names_append (plan more : List PlanStep) : names (plan ++ more) = names plan ++ names more :=
  List.filterMap_append

/-- Contributions name no descriptors. -/
lemma names_contributions {α : Type} (f : α → Contribution) (xs : List α) :
    names (xs.map fun x => contribute (f x)) = [] := by
  rw [names, List.filterMap_map]
  exact List.filterMap_eq_nil_iff.mpr fun _ _ => rfl

/-- A group of descriptors names each of them. -/
lemma names_follows (ns : List String) : names (ns.map follow) = ns := by
  rw [names, List.filterMap_map]
  exact List.filterMap_some

end PlanStep

namespace Spec

open PlanStep

/-- The plan of a spec names the descriptors that the spec lists. -/
lemma names_plan (s : Spec) : names s.plan = s.descriptors := by
  simp only [plan, names_append, names_contributions, names_follows, List.nil_append, List.append_nil]

/-- The plan of a spec asks for what the spec asks for before the build. -/
lemma requests_plan {s : Spec} {ds : List Descriptor} (complete : ds.length = s.descriptors.length) :
    PlanStep.requests s.plan ds ++ [.build] = s.requests ds := by
  rw [← List.append_nil s.plan]
  simp only [plan, Spec.requests, List.append_assoc, requests_contributions, requests_follows complete]
  rfl

end Spec

/-! ## Steps of a production -/

namespace Workshop

open PlanStep

variable {σ : Type} {w : Workshop σ} {plan more : List PlanStep} {r : Except ScopeError Unit} {e : ScopeError}
  {xs ys : List Act}

/-- What a plan comes to with these requests and replies: all that it asks for is granted, or an error stops it. -/
inductive Carries (plan : List PlanStep) : Except ScopeError Unit → List Act → Prop where
  | done {xs : List Act} : Act.Granted xs → (Act.madeIn xs).length = (names plan).length →
    xs.map Act.request = requests plan (Act.madeIn xs) → Carries plan (.ok ()) xs
  | stopped {xs : List Act} {e : ScopeError} : Act.Stops xs e → (Act.madeIn xs).length ≤ (names plan).length →
    (∀ ds, Act.madeIn xs <+: ds → ds.length = (names plan).length → xs.map Act.request <+: requests plan ds) →
    Carries plan (.error e) xs

/-- A plan that is carried out goes on with what stands behind it. -/
lemma Carries.append (ca : Carries plan (.ok ()) xs) (ca' : Carries more r ys) :
    Carries (plan ++ more) r (xs ++ ys) := by
  cases ca with
  | done granted complete order =>
    cases ca' with
    | done granted' complete' order' =>
      refine .done (granted.append granted') ?_ ?_
      · rw [Act.madeIn_append, names_append, List.length_append, List.length_append, complete, complete']
      · rw [Act.madeIn_append, requests_append complete, List.map_append, order, order']
    | stopped stops made order' =>
      refine .stopped (granted.then_stops stops) ?_ fun ds before all => ?_
      · rw [Act.madeIn_append, names_append, List.length_append, List.length_append, complete]
        exact Nat.add_le_add_left made _
      · obtain ⟨left, rfl⟩ := before
        rw [Act.madeIn_append, List.append_assoc] at all ⊢
        simp only [names_append, List.length_append, complete, Nat.add_left_cancel_iff] at all
        rw [requests_append complete, List.map_append, order, List.prefix_append_right_inj]
        exact order' _ (List.prefix_append _ _) (List.length_append.trans all)

/-- A plan that is stopped leaves what stands behind it undone. -/
lemma Carries.stopped_before (ca : Carries plan (.error e) xs) (more : List PlanStep) :
    Carries (plan ++ more) (.error e) xs := by
  cases ca with
  | stopped stops made order =>
    refine .stopped stops ?_ fun ds before all => ?_
    · rw [names_append, List.length_append]
      exact Nat.le_add_right_of_le made
    · -- the descriptors of this plan, and those of what stands behind it
      have own : (ds.take (names plan).length).length = (names plan).length := by
        rw [names_append, List.length_append] at all
        rw [List.length_take]
        omega
      rw [← List.take_append_drop (names plan).length ds, requests_append own]
      exact (order _ (List.prefix_take_iff.mpr ⟨before, made⟩) own).trans (List.prefix_append _ _)

/-- A contribution is one request. -/
lemma carries_add (c : Contribution) (o : Except SourcesError Unit) :
    Carries [.contribute c] (o.mapError .sources) [.add c o] := by
  cases o with
  | error e =>
    exact .stopped (Act.stops_singleton rfl) (Nat.le_refl 0) fun ds _ _ => List.prefix_append [Request.add c] _
  | ok u => exact .done (Act.granted_singleton rfl) rfl rfl

/-- A descriptor that cannot be made stops a plan that follows it. -/
lemma carries_make_error (name : String) (e : DescriptorError) :
    Carries [.follow name] (.error (.descriptor name e)) [.make name (.error e)] := by
  refine .stopped (Act.stops_singleton rfl) (Nat.zero_le _) fun ds _ all => ?_
  obtain ⟨d, rfl⟩ := List.length_eq_one_iff.mp all
  exact List.prefix_append [Request.make name] _

/-- A descriptor that is made is followed by handing over what it contributes. -/
lemma Carries.made {d : Descriptor} (ca : Carries (d.map .contribute) r xs) (name : String) :
    Carries [.follow name] r (.make name (.ok d) :: xs) := by
  have unnamed : names (d.map .contribute) = [] := names_contributions id d
  have asks : requests (d.map .contribute) [] = d.map .add := by
    have := requests_contributions id d [] []
    rwa [List.append_nil, requests, List.append_nil] at this
  have granted : Act.Granted [.make name (.ok d)] := Act.granted_singleton rfl
  have made (none : Act.madeIn xs = []) : Act.madeIn (.make name (.ok d) :: xs) = [d] := congrArg (d :: ·) none
  cases ca with
  | done granted' complete order =>
    have none : Act.madeIn xs = [] := List.length_eq_zero_iff.mp (by rw [complete, unnamed]; rfl)
    refine .done (granted.append granted') (by rw [made none]; rfl) ?_
    rw [made none, List.map_cons, order, none, asks]
    simp [requests, Act.request]
  | stopped stops few order =>
    have none : Act.madeIn xs = [] := List.length_eq_zero_iff.mp (Nat.le_zero.mp (by rwa [unnamed] at few))
    refine .stopped (granted.then_stops stops) (by rw [made none]; exact Nat.le_refl 1) fun ds before all => ?_
    obtain rfl : [d] = ds := (made none ▸ before).eq_of_length (by rw [all]; rfl)
    refine List.cons_prefix_cons.mpr ⟨rfl, (order [] ?_ ?_).trans ?_⟩
    · exact none ▸ List.prefix_refl []
    · rw [unnamed]
      rfl
    · rw [asks]
      exact List.prefix_append _ _

/-- Contributions are handed over in turn, up to the first that is refused. -/
lemma contribute_noted (w : Workshop σ) (cs : List Contribution) (l : Ledger σ) :
    ∃ r l' xs, w.noted.contribute cs l = (r, l') ∧ w.Takes l l' xs ∧ Carries (cs.map .contribute) r xs := by
  induction cs generalizing l with
  | nil => exact ⟨.ok (), l, [], rfl, .nil w l, .done (List.forall_mem_nil _) rfl rfl⟩
  | cons c rest ih =>
    have takes₁ := w.takes_add c l
    cases h : w.noted.collector.add c l with
    | mk o l₁ =>
      rw [h] at takes₁
      have carries₁ := carries_add c o
      cases o with
      | error e =>
        exact ⟨_, l₁, _, contribute_of_error h rest, takes₁, carries₁.stopped_before (rest.map .contribute)⟩
      | ok u =>
        obtain ⟨r, l', ys, eq, takes, carries⟩ := ih l₁
        exact ⟨r, l', _, (contribute_of_ok h rest).trans eq, takes₁.append takes, carries₁.append carries⟩

/-- A step makes the requests that it stands for, or is stopped at one of them. -/
lemma perform_noted (w : Workshop σ) (step : PlanStep) (l : Ledger σ) :
    ∃ r l' xs, w.noted.perform step l = (r, l') ∧ w.Takes l l' xs ∧ Carries [step] r xs := by
  cases step with
  | contribute c => exact w.contribute_noted [c] l
  | follow name =>
    have takes₁ := w.takes_make name l
    cases h : w.noted.instantiate name l with
    | mk o l₁ =>
      rw [h] at takes₁
      cases o with
      | error e => exact ⟨_, l₁, _, perform_of_unmade h, takes₁, carries_make_error name e⟩
      | ok d =>
        obtain ⟨r, l', xs, eq, takes, carries⟩ := w.contribute_noted d l₁
        exact ⟨r, l', _, (perform_of_made h).trans eq, takes₁.append takes, carries.made name⟩

/-- The steps of a plan are carried out in turn, up to the first that fails. -/
lemma performAll_noted (w : Workshop σ) (plan : List PlanStep) (l : Ledger σ) :
    ∃ r l' xs, w.noted.performAll plan l = (r, l') ∧ w.Takes l l' xs ∧ Carries plan r xs := by
  induction plan generalizing l with
  | nil => exact ⟨.ok (), l, [], rfl, .nil w l, .done (List.forall_mem_nil _) rfl rfl⟩
  | cons step rest ih =>
    obtain ⟨r₁, l₁, xs, eq₁, takes₁, carries₁⟩ := w.perform_noted step l
    cases r₁ with
    | error e => exact ⟨_, l₁, xs, performAll_of_error eq₁ rest, takes₁, carries₁.stopped_before rest⟩
    | ok u =>
      obtain ⟨r, l', ys, eq, takes, carries⟩ := ih l₁
      exact ⟨r, l', _, (performAll_of_ok eq₁ rest).trans eq, takes₁.append takes, carries₁.append carries⟩

/-! ## Main statement -/

/-- Writing requests and replies down changes nothing. -/
lemma mirrors_noted (w : Workshop σ) : w.Mirrors w.noted Ledger.state :=
  ⟨fun _ _ => rfl, fun _ _ => rfl⟩

variable {spec : Spec}

/-- A production whose plan is stopped is stopped. -/
lemma Carries.follows (ca : Carries spec.plan (.error e) xs) : Follows spec (.error e) xs := by
  cases ca with
  | stopped stops few order =>
    rw [spec.names_plan] at few order
    refine ⟨few, fun ds before all => ?_, fun e' h => ?_, nofun⟩
    · rw [← Spec.requests_plan all]
      exact (order ds before all).trans (List.prefix_append _ _)
    · cases h
      exact stops

/-- A production whose plan is carried out makes one request more, and comes to the reply to it. -/
lemma Carries.follows_build (ca : Carries spec.plan (.ok ()) xs) (o : Except SourcesError Model) :
    Follows spec ((o.mapError .sources).map (Model.applyCache · spec.overrideCache spec.strategy))
      (xs ++ [.build o]) := by
  cases ca with
  | done granted complete order =>
    rw [spec.names_plan] at complete
    have all : (xs ++ [Act.build o]).map Act.request = spec.requests (Act.madeIn (xs ++ [Act.build o])) := by
      rw [Act.madeIn_concat_build, ← Spec.requests_plan complete, List.map_append, order]
      rfl
    rw [← Act.madeIn_concat_build xs o] at complete
    refine ⟨Nat.le_of_eq complete, fun ds before full => ?_, fun e h => ?_, fun a h => ?_⟩
    · obtain rfl := before.eq_of_length (complete.trans full.symm)
      exact all ▸ List.prefix_rfl
    · cases o with
      | error e' =>
        cases h
        exact granted.then_stops (Act.stops_singleton rfl)
      | ok m => cases h
    · cases o with
      | error e => cases h
      | ok m =>
        cases h
        exact ⟨granted.append (Act.granted_singleton rfl), complete, all, m, List.getLast?_concat, rfl⟩

/-- A production by a spec asks the workshop for what the spec declares, one request after another, up to the first that
fails. Writing the requests and replies down changes nothing, and the replies are those of the workshop. -/
theorem follows_spec (w : Workshop σ) (spec : Spec) (s : σ) :
    let a := w.noted.produce spec ⟨s, []⟩
    w.produce spec s = (a.1, a.2.state) ∧
    w.answers (a.2.acts.map Act.request) s = (a.2.acts, a.2.state) ∧
    Follows spec a.1 a.2.acts := by
  intro a
  obtain ⟨r, l, xs, eq, takes, carries⟩ := w.performAll_noted spec.plan ⟨s, []⟩
  have plain : w.performAll spec.plan s = (r, l.state) := by
    have mirror := w.mirrors_noted.performAll spec.plan ⟨s, []⟩
    rwa [eq] at mirror
  cases r with
  | error e =>
    have ha : a = (.error e, l) := produce_of_error eq
    have acts : l.acts = xs := takes.acts
    rw [ha, acts]
    exact ⟨produce_of_error plain, takes.answers, carries.follows⟩
  | ok u =>
    have built := takes.append (w.takes_build l)
    have ha : a = (_, (w.noted.collector.build l).2) := produce_of_ok eq
    have acts : (w.noted.collector.build l).2.acts = _ := built.acts
    rw [ha, acts]
    exact ⟨produce_of_ok plain, built.answers, carries.follows_build _⟩

/-- A spec that declares something in each of the eight groups: all of it is taken, or nothing is asked for any more once
a class of its first descriptor is refused. -/
theorem follows_spec_in_full :
    let spec : Spec :=
      ⟨["p", "p"], [.animal], ["pets", "none"], [⟨"Owner"⟩], ["Vet"], ["r.xml"], [⟨"Doctor", ⟨"Vet"⟩⟩],
        [⟨"clinic.Visit"⟩], true, "read-only"⟩
    let classes : ClassCatalog := ["Pet", "Cat", "Owner", "Vet"].map fun name => (name, ⟨[.root name []], []⟩)
    let shop (pets : List String) : Workshop Recording :=
      .ofRegistry (Recorder.collector classes .none)
        ((DescriptorRegistry.empty.register "pets" (.ok (.ofClasses pets))).register "none" (.ok []))
    let taken := (shop ["Pet", "Cat"]).noted.produce spec ⟨⟨[], .empty (.ofSerial 0)⟩, []⟩
    let refused := (shop ["Pet", "Dog", "Cat"]).noted.produce spec ⟨⟨[], .empty (.ofSerial 0)⟩, []⟩
    (Follows spec taken.1 taken.2.acts ∧ taken.2.acts.map Act.request =
      [.add (.package "p"), .add (.package "p"), .add (.bundle .animal), .make "pets", .add (.mappedClass ⟨"Pet"⟩),
        .add (.mappedClass ⟨"Cat"⟩), .make "none", .add (.mappedClass ⟨"Owner"⟩), .add (.className "Vet"),
        .add (.resource "r.xml"), .add (.queryImport "Doctor" ⟨"Vet"⟩),
        .add (.queryImport "Visit" ⟨"clinic.Visit"⟩), .build]) ∧
    Follows spec refused.1 refused.2.acts ∧ refused.1 = .error (.sources (.unknownClass "Dog")) ∧
      refused.2.acts.map Act.request =
        [.add (.package "p"), .add (.package "p"), .add (.bundle .animal), .make "pets", .add (.mappedClass ⟨"Pet"⟩),
          .add (.mappedClass ⟨"Dog"⟩)] := by
  intro spec classes shop taken refused
  have follows : Follows spec taken.1 taken.2.acts := (follows_spec (shop ["Pet", "Cat"]) spec _).2.2
  have follows' : Follows spec refused.1 refused.2.acts := (follows_spec (shop ["Pet", "Dog", "Cat"]) spec _).2.2
  refine ⟨⟨follows, ?_⟩, follows', ?_, ?_⟩
  all_goals decide +kernel

end Workshop

end ModelScopes
