import ModelScopes.Extension.Basic
import ModelScopes.Proofs.Scope.Leaks

/-!
# Test instances that are made ready at the same time

A call for a test instance looks for the unit's scope, chooses a producer, creates the scope or is given the one that is
there by then, and hands it to the instance. Between these steps other calls for the same unit may come. Whatever their
order, one call creates the scope, all calls that answer with a scope answer with this one, the creating call hands it
to its instance if the instance takes scopes, and nothing is handed over by a call that looks for the scope after it
was created. So if calls come one after another then the scope is handed over by the creating call only; but a call
that looks before the scope is created and asks for it afterwards hands it over, too. The main statement is
`Reception.hands_out`; that a call by itself is `Extension.postProcess` is `Reception.run_postProcess`.
-/

namespace ModelScopes

open scoped List

variable {P H : Type}

/-- How far a call for a test instance has come. -/
inductive Stage (P : Type) where
  | asking
  | choosing
  | creating (p : P) (registry : Registry)
  | handing (i : ScopeId)
  | done (r : Processed)

/-- A call for a test instance. -/
structure Arrival (P : Type) where
  inst : Instance P
  stage : Stage P

/-- The world, and all calls for test instances of one unit. -/
structure Reception (P H : Type) where
  world : World P H
  arrivals : List (Arrival P)

/-- What one of the calls does in one step; a creating step tells whether the scope was made in it. -/
inductive Stride where
  | enter (c : Nat)
  | look (c : Nat)
  | choose (c : Nat)
  | create (c : Nat) (new : Bool)
  | hand (c : Nat)
  deriving DecidableEq

namespace Stride

/-- The call that goes on. -/
def call : Stride → Nat
  | enter c | look c | choose c | create c _ | hand c => c

/-- Whether the scope is made. -/
def makes : Stride → Bool
  | create _ new => new
  | _ => false

end Stride

/-- Each call is done before the next one begins. -/
def OneByOne (t : List Stride) : Prop :=
  ∀ m m' m'', [m, m', m''] <+ t → m.call = m''.call → m'.call = m.call

/-- The steps of a call that comes after all others are done keep it so that calls come one after another. -/
lemma OneByOne.append {t t' : List Stride} {c : Nat} (turns : OneByOne t) (before : ∀ m ∈ t, m.call < c)
    (mine : ∀ m ∈ t', m.call = c) : OneByOne (t ++ t') := by
  intro m m' m'' h same
  obtain ⟨l, l', eq, first, last⟩ := List.sublist_append_iff.mp h
  match l, l', eq with
  | [], _, rfl => rw [mine m' (last.subset (by simp)), mine m (last.subset (by simp))]
  | [_, _, _], [], rfl => exact turns m m' m'' first same
  | [_], [_, _], rfl | [_, _], [_], rfl =>
    -- the last of the three steps is the new call's, but the first is not
    have old : m.call < c := before m (first.subset List.mem_cons_self)
    have new : m''.call = c := mine m'' (last.subset (by simp))
    omega

namespace Reception

/-- A call comes to a stage, in another world. -/
def proceed (s : Reception P H) (c : Nat) (a : Arrival P) (stage : Stage P) (w : World P H) : Reception P H :=
  ⟨w, s.arrivals.set c ⟨a.inst, stage⟩⟩

/-- What a call answers that has a scope to hand over. -/
def handOver (x : Extension P) (inst : Instance P) (i : ScopeId) : Processed :=
  ⟨.ok i, if x.config.injectScope && inst.takesScope then some i else none⟩

section Step

variable (x : Extension P) (produce : Produce P H) (ctx : Context)

/-- One step of one call. The catalog of specs may be another one whenever a producer is chosen. -/
inductive Step (s : Reception P H) : Stride → Reception P H → Prop where
  | enter (inst : Instance P) : Step s (.enter s.arrivals.length) ⟨s.world, s.arrivals ++ [⟨inst, .asking⟩]⟩
  | found {c : Nat} {a : Arrival P} {i : ScopeId} :
    s.arrivals[c]? = some a → a.stage = .asking → x.find ctx s.world = some i →
    Step s (.look c) (s.proceed c a (.done ⟨.ok i, none⟩) s.world)
  | miss {c : Nat} {a : Arrival P} :
    s.arrivals[c]? = some a → a.stage = .asking → x.find ctx s.world = none →
    Step s (.look c) (s.proceed c a .choosing s.world)
  | refuse {c : Nat} {a : Arrival P} {e : ScopeError} (specs : SpecCatalog) :
    s.arrivals[c]? = some a → a.stage = .choosing → x.producerFor specs a.inst ctx = .error e →
    Step s (.choose c) (s.proceed c a (.done ⟨.error e, none⟩) s.world)
  | choose {c : Nat} {a : Arrival P} {p : P} (specs : SpecCatalog) :
    s.arrivals[c]? = some a → a.stage = .choosing → x.producerFor specs a.inst ctx = .ok p →
    Step s (.choose c)
      (s.proceed c a (.creating p (s.world.freshRegistry x.config.settings).1)
        (s.world.freshRegistry x.config.settings).2)
  | fail {c : Nat} {a : Arrival P} {p : P} {registry : Registry} {e : ScopeError} :
    s.arrivals[c]? = some a → a.stage = .creating p registry →
    (s.world.getOrCreate produce x.storage (x.key ctx) p registry).1 = .error e →
    Step s (.create c false)
      (s.proceed c a (.done ⟨.error e, none⟩) (s.world.getOrCreate produce x.storage (x.key ctx) p registry).2)
  | create {c : Nat} {a : Arrival P} {p : P} {registry : Registry} {i : ScopeId} :
    s.arrivals[c]? = some a → a.stage = .creating p registry →
    (s.world.getOrCreate produce x.storage (x.key ctx) p registry).1 = .ok i →
    Step s (.create c (x.find ctx s.world).isNone)
      (s.proceed c a (.handing i) (s.world.getOrCreate produce x.storage (x.key ctx) p registry).2)
  | hand {c : Nat} {a : Arrival P} {i : ScopeId} :
    s.arrivals[c]? = some a → a.stage = .handing i →
    Step s (.hand c) (s.proceed c a (.done (handOver x a.inst i)) s.world)

/-- Any number of steps, with what happens in them. -/
inductive Run (s : Reception P H) : List Stride → Reception P H → Prop where
  | rest : Run s [] s
  | step {t : List Stride} {s' s'' : Reception P H} {m : Stride} :
    Run s t s' → Step x produce ctx s' m s'' → Run s (t ++ [m]) s''

end Step

/-- A call has returned with this. -/
def Returned (s : Reception P H) (c : Nat) (inst : Instance P) (r : Processed) : Prop :=
  s.arrivals[c]? = some ⟨inst, .done r⟩

/-- What calls that come at the same time answer and hand over. -/
structure HandsOut (x : Extension P) (produce : Produce P H) (ctx : Context) (t : List Stride) (s : Reception P H) :
    Prop where
  /-- A scope that is found was made in one step, and if none is found then none was made. -/
  made : t.countP Stride.makes = if (x.find ctx s.world).isSome then 1 else 0
  /-- All calls that answer with a scope answer with the one that is found. -/
  same : ∀ c inst r i, s.Returned c inst r → r.outcome = .ok i → x.find ctx s.world = some i
  /-- The call that made the scope answers with it, and hands it over if its instance takes scopes. -/
  maker : ∀ c inst r, s.Returned c inst r → .create c true ∈ t → ∃ i, r = handOver x inst i
  /-- Nothing else is handed over than what is answered, and that only to instances that take scopes. -/
  own : ∀ c inst r i, s.Returned c inst r → r.injected = some i →
    r.outcome = .ok i ∧ x.config.injectScope ∧ inst.takesScope
  /-- A call that looks for the scope once it is made hands nothing over. -/
  late : ∀ c c' inst r, s.Returned c inst r → [.create c' true, .look c] <+ t → r.injected = none
  /-- If the calls come one after another then only the one that made the scope hands it over. -/
  alone : OneByOne t → ∀ c inst r i, s.Returned c inst r → r.injected = some i → .create c true ∈ t
  /-- Each call that has not returned can go on. -/
  goes : ∀ (c : Nat) (a : Arrival P), s.arrivals[c]? = some a → (∀ r, a.stage ≠ .done r) →
    ∃ m s', Step x produce ctx s m s' ∧ m.call = c

/-- A call made the scope, or it looked before another one made it and asked for it afterwards. -/
def Reaches (t : List Stride) (c : Nat) : Prop :=
  .create c true ∈ t ∨ ∃ c', [.look c, .create c' true, .create c false] <+ t

/-- A call has looked, and no scope was made before. -/
def Looked (t : List Stride) (c : Nat) : Prop :=
  .look c ∈ t ∧ ∀ c', ¬ [.create c' true, .look c] <+ t

/-- How the steps so far fit the stage that a call has come to. -/
inductive Fits (x : Extension P) (ctx : Context) (t : List Stride) (w : World P H) (c : Nat) (inst : Instance P) :
    Stage P → Prop where
  | asking : .look c ∉ t → .create c true ∉ t → Fits x ctx t w c inst .asking
  | choosing : Looked t c → .create c true ∉ t → Fits x ctx t w c inst .choosing
  | creating (p : P) (registry : Registry) :
    Looked t c → .create c true ∉ t → Fits x ctx t w c inst (.creating p registry)
  | handing (i : ScopeId) : Looked t c → x.find ctx w = some i → Reaches t c → Fits x ctx t w c inst (.handing i)
  | done (r : Processed) :
    (∀ i, r.outcome = .ok i → x.find ctx w = some i) →
    (∀ i, r.injected = some i → r.outcome = .ok i ∧ x.config.injectScope ∧ inst.takesScope ∧ Looked t c ∧ Reaches t c) →
    (.create c true ∈ t → ∃ i, r = handOver x inst i) → Fits x ctx t w c inst (.done r)

/-- What all steps keep. -/
structure Orderly (x : Extension P) (ctx : Context) (t : List Stride) (s : Reception P H) : Prop where
  tidy : (s.world.storages x.storage).Tidy
  made : t.countP Stride.makes = if (x.find ctx s.world).isSome then 1 else 0
  entered : ∀ m ∈ t, m.call < s.arrivals.length
  fits : ∀ (c : Nat) (a : Arrival P), s.arrivals[c]? = some a → Fits x ctx t s.world c a.inst a.stage

variable {x : Extension P} {produce : Produce P H} {ctx : Context} {s s' : Reception P H} {t : List Stride} {m : Stride}
  {c c' : Nat} {inst : Instance P} {a : Arrival P} {stage : Stage P} {w w' : World P H}

/-! ## Orders of steps -/

/-- Of two steps one comes before the other. -/
lemma sublist_or_sublist {m m' : Stride} (h : m ∈ t) (h' : m' ∈ t) (ne : m ≠ m') : [m, m'] <+ t ∨ [m', m] <+ t := by
  obtain ⟨before, after, rfl⟩ := List.append_of_mem h
  rcases List.mem_append.mp h' with early | late
  · exact .inr ((List.singleton_sublist.mpr early).append (List.Sublist.cons_cons m (List.nil_sublist after)))
  · rcases List.mem_cons.mp late with e | late
    · exact absurd e.symm ne
    · exact .inl ((List.Sublist.cons_cons m (List.singleton_sublist.mpr late)).trans (List.sublist_append_right _ _))

/-- What ends in another step than the last one came before it. -/
lemma sublist_of_concat {l : List Stride} {m' : Stride} (h : l ++ [m'] <+ t ++ [m]) (ne : m' ≠ m) : l ++ [m'] <+ t := by
  rcases List.sublist_append_iff.mp h with ⟨l₁, l₂, e, h₁, h₂⟩
  rcases List.sublist_singleton.mp h₂ with rfl | rfl
  · rwa [e, List.append_nil]
  · exact absurd (List.append_inj_right' e rfl) (by simpa using ne)

/-- A step that has not happened is not the next one if that is another. -/
lemma not_mem_concat {m' : Stride} (h : m' ∉ t) (ne : m' ≠ m) : m' ∉ t ++ [m] := by
  simpa [ne] using h

/-- A call that has reached the scope has still reached it later. -/
lemma Reaches.concat (re : Reaches t c) (m : Stride) : Reaches (t ++ [m]) c := by
  rcases re with made | ⟨c', between⟩
  · exact .inl (List.mem_append_left _ made)
  · exact .inr ⟨c', between.trans (List.sublist_append_left _ _)⟩

/-- A call that has looked in time has still done so after a step that is no other look of its own. -/
lemma Looked.concat (lo : Looked t c) (ne : m ≠ .look c) : Looked (t ++ [m]) c :=
  ⟨List.mem_append_left _ lo.1, fun c' h => lo.2 c' (sublist_of_concat (l := [.create c' true]) h ne.symm)⟩

/-! ## One step -/

/-- A call fits as well after a step of another one, if a scope that is found stays so. -/
lemma Fits.concat (fi : Fits x ctx t w c inst stage) (ne : m.call ≠ c)
    (stays : ∀ i, x.find ctx w = some i → x.find ctx w' = some i) : Fits x ctx (t ++ [m]) w' c inst stage := by
  have other : ∀ m', m'.call = c → m' ≠ m := fun m' mine e => ne (e ▸ mine)
  cases fi with
  | asking unlooked unmade =>
    exact .asking (not_mem_concat unlooked (other _ rfl)) (not_mem_concat unmade (other _ rfl))
  | choosing lo unmade => exact .choosing (lo.concat (other _ rfl).symm) (not_mem_concat unmade (other _ rfl))
  | creating p registry lo unmade =>
    exact .creating p registry (lo.concat (other _ rfl).symm) (not_mem_concat unmade (other _ rfl))
  | handing i lo found re => exact .handing i (lo.concat (other _ rfl).symm) (stays i found) (re.concat m)
  | done r answers own maker =>
    refine .done r (fun i h => stays i (answers i h)) (fun i h => ?_) fun h => maker ?_
    · obtain ⟨outcome, inject, takes, lo, re⟩ := own i h
      exact ⟨outcome, inject, takes, lo.concat (other _ rfl).symm, re.concat m⟩
    · by_contra old
      exact not_mem_concat old (other _ rfl) h

/-- One call goes on, and the others stay. -/
lemma Orderly.proceed (or : Orderly x ctx t s) (hc : s.arrivals[c]? = some a) (mine : m.call = c)
    (tidy : (w.storages x.storage).Tidy)
    (made : (t ++ [m]).countP Stride.makes = if (x.find ctx w).isSome then 1 else 0)
    (stays : ∀ i, x.find ctx s.world = some i → x.find ctx w = some i)
    (fits : Fits x ctx (t ++ [m]) w c a.inst stage) : Orderly x ctx (t ++ [m]) (s.proceed c a stage w) := by
  have lt : c < s.arrivals.length := (List.getElem?_eq_some_iff.mp hc).1
  refine ⟨tidy, made, fun m' h => ?_, fun c' a' h => ?_⟩
  · rw [Reception.proceed, List.length_set]
    rcases List.mem_append.mp h with old | new
    · exact or.entered m' old
    · cases List.mem_singleton.mp new
      rwa [mine]
  · rw [Reception.proceed, List.getElem?_set] at h
    split at h
    case isTrue e =>
      subst e
      cases h
      exact fits
    case isFalse ne => exact (or.fits c' a' h).concat (fun e => ne (mine.symm.trans e)) stays

/-- One call goes on in a world with the same storages, without making a scope, and the others stay. -/
lemma Orderly.proceed_same (or : Orderly x ctx t s) (hc : s.arrivals[c]? = some a) (mine : m.call = c)
    (unmade : m.makes = false) (kept : w.storages = s.world.storages)
    (fits : Fits x ctx (t ++ [m]) w c a.inst stage) : Orderly x ctx (t ++ [m]) (s.proceed c a stage w) := by
  have same : x.find ctx w = x.find ctx s.world := by
    rw [Extension.find, World.find, kept, ← World.find, ← Extension.find]
  refine or.proceed hc mine ?_ ?_ (fun i h => by rwa [same]) fits
  · rw [kept]
    exact or.tidy
  · rw [List.countP_append, or.made, same]
    simp [unmade]

/-- A call that asks for the scope is given the one that is found; else it makes one, or nothing is found still. -/
lemma Orderly.ask (or : Orderly x ctx t s) (di : produce.Discreet) (p : P) (registry : Registry) :
    let g := s.world.getOrCreate produce x.storage (x.key ctx) p registry
    (g.2.storages x.storage).Tidy ∧
      ((∃ i, x.find ctx s.world = some i ∧ g = (.ok i, s.world)) ∨
        (∃ e, x.find ctx s.world = none ∧ g.1 = .error e ∧ x.find ctx g.2 = none) ∨
        ∃ i, x.find ctx s.world = none ∧ g.1 = .ok i ∧ x.find ctx g.2 = some i) := by
  have kept := congrFun (di.storages p registry (s.world.beforeBuild x.storage (x.key ctx))) x.storage
  obtain ⟨i, h, eq⟩ | ⟨e, v, w', h, -, eq, -, ti, -, found⟩ | ⟨m, v, w', h, -, eq, -, ti, -, found⟩ :=
    World.getOrCreate_cases or.tidy kept
  · rw [eq]
    exact ⟨or.tidy, .inl ⟨i, h, rfl⟩⟩
  · rw [eq]
    exact ⟨ti, .inr (.inl ⟨e, h, rfl, (found _).trans h⟩)⟩
  · rw [eq]
    exact ⟨ti, .inr (.inr ⟨_, h, rfl, (found _).trans (if_pos rfl)⟩)⟩

/-- If the scope was made, and no scope was made before a call looked, then it was made afterwards. -/
lemma Looked.sublist (lo : Looked t c) {m' : Stride} (h : m' ∈ t) (makes : m'.makes) :
    ∃ c', [.look c, .create c' true] <+ t := by
  cases m' with
  | create c' new =>
    cases makes
    rcases sublist_or_sublist lo.1 h nofun with first | last
    · exact ⟨c', first⟩
    · exact absurd last (lo.2 c')
  | _ => cases makes

/-- Before the first call all is in order. -/
lemma Orderly.start (tidy : (w.storages x.storage).Tidy) (new : x.find ctx w = none) :
    Orderly x ctx [] (⟨w, []⟩ : Reception P H) :=
  ⟨tidy, by simp [new], nofun, fun c a h => by simp at h⟩

/-- All steps keep what `Orderly` says. -/
lemma orderly_step (or : Orderly x ctx t s) (di : produce.Discreet) (st : Step x produce ctx s m s') :
    Orderly x ctx (t ++ [m]) s' := by
  cases st with
  | enter inst =>
    refine ⟨or.tidy, by simpa [Stride.makes] using or.made, fun m' h => ?_, fun c' a' h => ?_⟩
    · rw [List.length_append]
      rcases List.mem_append.mp h with old | new
      · exact Nat.lt_add_right 1 (or.entered m' old)
      · cases List.mem_singleton.mp new
        exact Nat.lt_succ_self _
    · have unknown : ∀ m', m'.call = s.arrivals.length → m' ∉ t := fun m' e h =>
        Nat.lt_irrefl _ (e ▸ or.entered m' h)
      rw [List.getElem?_append] at h
      split at h
      case isTrue lt => exact (or.fits c' a' h).concat (Nat.ne_of_gt lt) fun _ => id
      case isFalse ge =>
        rw [List.getElem?_singleton] at h
        split at h
        case isTrue zero =>
          obtain rfl : c' = s.arrivals.length := by omega
          cases h
          exact .asking (not_mem_concat (unknown _ rfl) nofun) (not_mem_concat (unknown _ rfl) nofun)
        case isFalse => cases h
  | @found c a i hc hp found =>
    have fi := or.fits c a hc
    rw [hp] at fi
    cases fi with
    | asking _ unmade =>
      refine or.proceed_same hc rfl rfl rfl (.done _ (fun j h => ?_) nofun fun h => ?_)
      · cases h
        exact found
      · exact absurd h (not_mem_concat unmade nofun)
  | @miss c a hc hp none =>
    have fi := or.fits c a hc
    rw [hp] at fi
    cases fi with
    | asking unlooked unmade =>
      refine or.proceed_same hc rfl rfl rfl (.choosing ⟨List.mem_append_right _ (List.mem_singleton_self _), ?_⟩
        (not_mem_concat unmade nofun))
      -- no scope is found, so none was made
      intro c' h
      have zero : t.countP Stride.makes = 0 := by simpa [none] using or.made
      have mem : .create c' true ∈ t ++ [.look c] := h.subset List.mem_cons_self
      rcases List.mem_append.mp mem with old | new
      · exact List.countP_eq_zero.mp zero _ old rfl
      · cases List.mem_singleton.mp new
  | @refuse c a e specs hc hp =>
    have fi := or.fits c a hc
    rw [hp] at fi
    cases fi with
    | choosing _ unmade =>
      exact or.proceed_same hc rfl rfl rfl
        (.done _ nofun nofun fun h => absurd h (not_mem_concat unmade nofun))
  | @choose c a p specs hc hp =>
    have fi := or.fits c a hc
    rw [hp] at fi
    cases fi with
    | choosing lo unmade =>
      exact or.proceed_same hc rfl rfl rfl (.creating p _ (lo.concat nofun) (not_mem_concat unmade nofun))
  | @fail c a p registry e hc hp failed =>
    have fi := or.fits c a hc
    rw [hp] at fi
    obtain ⟨tidy, ⟨i, -, eq⟩ | ⟨e', none, -, none'⟩ | ⟨i, -, ok, -⟩⟩ := or.ask di p registry
    · rw [eq] at failed
      cases failed
    · cases fi with
      | creating _ _ _ unmade =>
        refine or.proceed hc rfl tidy ?_ (fun i h => ?_)
          (.done _ nofun nofun fun h => absurd h (not_mem_concat unmade nofun))
        · rw [List.countP_append, or.made, none, none']
          rfl
        · rw [none] at h
          cases h
    · rw [ok] at failed
      cases failed
  | @create c a p registry i hc hp made =>
    have fi := or.fits c a hc
    rw [hp] at fi
    cases fi with
    | creating _ _ lo unmade =>
      obtain ⟨tidy, ⟨j, found, eq⟩ | ⟨e, -, failed, -⟩ | ⟨j, none, ok, found⟩⟩ := or.ask di p registry
      · rw [eq] at made ⊢
        cases made
        rw [found]
        -- the scope was made by another call, after this one looked
        have count : 0 < t.countP Stride.makes := by simp [or.made, found]
        obtain ⟨m', mem, makes⟩ := List.countP_pos_iff.mp count
        obtain ⟨c', before⟩ := lo.sublist mem makes
        exact or.proceed_same hc rfl rfl rfl
          (.handing i (lo.concat nofun) found (.inr ⟨c', before.append (List.Sublist.refl _)⟩))
      · rw [failed] at made
        cases made
      · rw [ok] at made
        cases made
        refine or.proceed hc rfl tidy ?_ (fun k h => ?_) (.handing i (lo.concat nofun) found (.inl ?_))
        · rw [List.countP_append, or.made, none, found]
          rfl
        · rw [none] at h
          cases h
        · rw [none]
          exact List.mem_append_right _ (List.mem_singleton_self _)
  | @hand c a i hc hp =>
    have fi := or.fits c a hc
    rw [hp] at fi
    cases fi with
    | handing _ lo found re =>
      refine or.proceed_same hc rfl rfl rfl (.done _ (fun j h => ?_) (fun j h => ?_) fun _ => ⟨i, rfl⟩)
      · cases h
        exact found
      · simp only [handOver] at h
        split at h
        case isTrue both =>
          cases h
          obtain ⟨inject, takes⟩ := Bool.and_eq_true_iff.mp both
          exact ⟨rfl, inject, takes, lo.concat nofun, re.concat _⟩
        case isFalse => cases h

/-- Any number of steps keep all in order. -/
lemma orderly_run (or : Orderly x ctx [] s) (di : produce.Discreet) (run : Run x produce ctx s t s') :
    Orderly x ctx t s' := by
  induction run with
  | rest => exact or
  | step _ st ih => exact orderly_step ih di st

/-! ## Main statements -/

/-- A call that has not returned is not kept from going on by any other. -/
lemma goes_on (x : Extension P) (produce : Produce P H) (ctx : Context) (hc : s.arrivals[c]? = some a)
    (undone : ∀ r, a.stage ≠ .done r) : ∃ m s', Step x produce ctx s m s' ∧ m.call = c := by
  cases hp : a.stage with
  | asking =>
    cases h : x.find ctx s.world with
    | none => exact ⟨_, _, .miss hc hp h, rfl⟩
    | some i => exact ⟨_, _, .found hc hp h, rfl⟩
  | choosing =>
    cases h : x.producerFor .empty a.inst ctx with
    | error e => exact ⟨_, _, .refuse .empty hc hp h, rfl⟩
    | ok p => exact ⟨_, _, .choose .empty hc hp h, rfl⟩
  | creating p registry =>
    cases h : (s.world.getOrCreate produce x.storage (x.key ctx) p registry).1 with
    | error e => exact ⟨_, _, .fail hc hp h, rfl⟩
    | ok i => exact ⟨_, _, .create hc hp h, rfl⟩
  | handing i => exact ⟨_, _, .hand hc hp, rfl⟩
  | done r => exact absurd hp (undone r)

/-- If no scope is there at first then, in whichever order calls for one unit go on, one call makes the scope if any
does, all that answer with a scope answer with this one, and it is handed over by the call that made it and by no call
that looks for it afterwards. -/
theorem hands_out (di : produce.Discreet) (tidy : (w.storages x.storage).Tidy) (new : x.find ctx w = none)
    (run : Run x produce ctx ⟨w, []⟩ t s) : s.HandsOut x produce ctx t := by
  have or : Orderly x ctx t s := orderly_run (.start tidy new) di run
  refine ⟨or.made, fun c inst r i h => ?_, fun c inst r h => ?_, fun c inst r i h hi => ?_,
    fun c c' inst r h after => ?_, fun turns c inst r i h hi => ?_, fun c a hc => goes_on x produce ctx hc⟩
  · cases or.fits c _ h with
    | done _ answers _ _ => exact answers i
  · cases or.fits c _ h with
    | done _ _ _ maker => exact maker
  · cases or.fits c _ h with
    | done _ _ own _ =>
      obtain ⟨outcome, inject, takes, -⟩ := own i hi
      exact ⟨outcome, inject, takes⟩
  · cases or.fits c _ h with
    | done _ _ own _ =>
      cases hi : r.injected with
      | none => rfl
      | some i =>
        obtain ⟨-, -, -, lo, -⟩ := own i hi
        exact absurd after (lo.2 c')
  · cases or.fits c _ h with
    | done _ _ own _ =>
      obtain ⟨-, -, -, -, made | ⟨c', between⟩⟩ := own i hi
      · exact made
      · obtain rfl : c' = c := turns _ _ _ between rfl
        exact between.subset (by simp)

section Alone

variable {p : P} {registry : Registry} {i : ScopeId}

/-- If nothing is found then a creating step makes the scope. -/
lemma Step.create_new (hc : s.arrivals[c]? = some a) (hp : a.stage = .creating p registry)
    (none : x.find ctx s.world = none)
    (made : (s.world.getOrCreate produce x.storage (x.key ctx) p registry).1 = .ok i) :
    Step x produce ctx s (.create c true)
      (s.proceed c a (.handing i) (s.world.getOrCreate produce x.storage (x.key ctx) p registry).2) := by
  have step := Step.create hc hp made
  rwa [none] at step

/-- If a scope is found then a creating step makes none. -/
lemma Step.create_again {j : ScopeId} (hc : s.arrivals[c]? = some a) (hp : a.stage = .creating p registry)
    (found : x.find ctx s.world = some j)
    (given : (s.world.getOrCreate produce x.storage (x.key ctx) p registry).1 = .ok i) :
    Step x produce ctx s (.create c false)
      (s.proceed c a (.handing i) (s.world.getOrCreate produce x.storage (x.key ctx) p registry).2) := by
  have step := Step.create hc hp given
  rwa [found] at step

/-- The call that came last goes on. -/
lemma last_goes_on {arrivals : List (Arrival P)} {stage' : Stage P}
    (run : ∃ t, (∀ m ∈ t, m.call = arrivals.length) ∧ Run x produce ctx s t ⟨w, arrivals ++ [⟨inst, stage⟩]⟩)
    (mine : m.call = arrivals.length)
    (st : Step x produce ctx ⟨w, arrivals ++ [⟨inst, stage⟩]⟩ m
      ((⟨w, arrivals ++ [⟨inst, stage⟩]⟩ : Reception P H).proceed arrivals.length ⟨inst, stage⟩ stage' w')) :
    ∃ t, (∀ m ∈ t, m.call = arrivals.length) ∧ Run x produce ctx s t ⟨w', arrivals ++ [⟨inst, stage'⟩]⟩ := by
  obtain ⟨t, all, run⟩ := run
  refine ⟨t ++ [m], fun m' h => ?_, by simpa [proceed] using run.step st⟩
  rcases List.mem_append.mp h with old | new
  · exact all m' old
  · rw [List.mem_singleton.mp new, mine]

/-- A call that nobody else comes between answers, hands over and leaves what `Extension.postProcess` does. -/
theorem run_postProcess (x : Extension P) (produce : Produce P H) (ctx : Context) (specs : SpecCatalog)
    (inst : Instance P) (s : Reception P H) :
    let a := x.postProcess produce specs inst ctx s.world
    ∃ t, (∀ m ∈ t, m.call = s.arrivals.length) ∧
      Run x produce ctx s t ⟨a.2, s.arrivals ++ [⟨inst, .done a.1⟩]⟩ := by
  have here : ∀ (w : World P H) (stage : Stage P),
      (⟨w, s.arrivals ++ [⟨inst, stage⟩]⟩ : Reception P H).arrivals[s.arrivals.length]? = some ⟨inst, stage⟩ :=
    fun w stage => List.getElem?_concat_length
  have entered : ∃ t, (∀ m ∈ t, m.call = s.arrivals.length) ∧
      Run x produce ctx s t ⟨s.world, s.arrivals ++ [⟨inst, .asking⟩]⟩ :=
    ⟨[] ++ [.enter s.arrivals.length], by simp [Stride.call], .step .rest (.enter inst)⟩
  cases h : x.find ctx s.world with
  | some i =>
    have eq : x.postProcess produce specs inst ctx s.world = (⟨.ok i, none⟩, s.world) := by
      simp [Extension.postProcess, h]
    rw [eq]
    exact last_goes_on entered rfl (.found (here _ _) rfl h)
  | none =>
    -- each step is the one that this call can take next, in the world that the step before has left
    have looked := last_goes_on entered rfl (.miss (here _ _) rfl h)
    cases hp : x.producerFor specs inst ctx with
    | error e =>
      have eq : x.postProcess produce specs inst ctx s.world = (⟨.error e, none⟩, s.world) := by
        simp [Extension.postProcess, h, hp]
      rw [eq]
      exact last_goes_on looked rfl (.refuse specs (here _ _) rfl hp)
    | ok p =>
      have chosen := last_goes_on looked rfl (.choose specs (here _ _) rfl hp)
      cases hg : (s.world.freshRegistry x.config.settings).2.getOrCreate produce x.storage (x.key ctx) p
          (s.world.freshRegistry x.config.settings).1 with
      | mk r w' =>
        cases r with
        | error e =>
          have eq : x.postProcess produce specs inst ctx s.world = (⟨.error e, none⟩, w') := by
            simp [Extension.postProcess, h, hp, hg]
          have failed := last_goes_on chosen rfl (.fail (here _ _) rfl (congrArg Prod.fst hg))
          simpa only [eq, hg] using failed
        | ok i =>
          have eq : x.postProcess produce specs inst ctx s.world = (handOver x inst i, w') := by
            simp [Extension.postProcess, h, hp, hg, handOver]
          have made := last_goes_on chosen rfl (.create_new (here _ _) rfl h (congrArg Prod.fst hg))
          simpa only [eq, hg] using last_goes_on made rfl (.hand (here _ _) rfl)

/-- Steps after steps are one run. -/
lemma Run.trans {t' : List Stride} {s'' : Reception P H} (run : Run x produce ctx s t s')
    (run' : Run x produce ctx s' t' s'') : Run x produce ctx s (t ++ t') s'' := by
  induction run' with
  | rest => simpa using run
  | step _ st ih => simpa using ih.step st

/-- Calls that come one after another make up a run of which each call is done before the next one begins. -/
theorem run_in_turn (x : Extension P) (produce : Produce P H) (ctx : Context) (visits : List (SpecCatalog × Instance P))
    (w : World P H) :
    ∃ t, OneByOne t ∧ Run x produce ctx ⟨w, []⟩ t (visits.foldl (fun s v =>
      let a := x.postProcess produce v.1 v.2 ctx s.world
      ⟨a.2, s.arrivals ++ [⟨v.2, .done a.1⟩]⟩) ⟨w, []⟩) := by
  suffices later : ∀ (s : Reception P H) (t : List Stride), Run x produce ctx ⟨w, []⟩ t s → OneByOne t →
      (∀ m ∈ t, m.call < s.arrivals.length) → ∃ t, OneByOne t ∧ Run x produce ctx ⟨w, []⟩ t (visits.foldl (fun s v =>
        let a := x.postProcess produce v.1 v.2 ctx s.world
        ⟨a.2, s.arrivals ++ [⟨v.2, .done a.1⟩]⟩) s) from
    later ⟨w, []⟩ [] .rest (fun _ _ _ h => by cases h) nofun
  induction visits with
  | nil => exact fun s t run turns _ => ⟨t, turns, run⟩
  | cons v rest ih =>
    intro s t run turns before
    obtain ⟨t', mine, run'⟩ := run_postProcess x produce ctx v.1 v.2 s
    refine ih _ _ (run.trans run') (turns.append before mine) fun m h => ?_
    rw [List.length_append]
    rcases List.mem_append.mp h with old | new
    · exact Nat.lt_add_right 1 (before m old)
    · rw [mine m new]
      exact Nat.lt_succ_self _

end Alone

/-- Two calls look before there is a scope, the build of the first fails, and the second makes the scope; a third one
looks afterwards. Only the second hands the scope over. -/
theorem hands_out_after_failure :
    let x : Extension Unit := ⟨⟨"demo", true, .empty⟩, 0, fun _ => ()⟩
    let ctx : Context := .detached "A" "A"
    let inst : Instance Unit := ⟨some (), true⟩
    let t : List Stride :=
      [.enter 0, .enter 1, .look 0, .look 1, .choose 0, .choose 1, .create 0 false, .create 1 true, .enter 2, .look 2,
        .hand 1]
    ∃ s : Reception Unit Nat, Run x .everyOther ctx ⟨.start 0, []⟩ t s ∧ s.Returned 1 inst ⟨.ok 0, some 0⟩ ∧
      s.Returned 2 inst ⟨.ok 0, none⟩ ∧ s.HandsOut x .everyOther ctx t := by
  intro x ctx inst t
  have di : Produce.everyOther.Discreet := World.discreet_ofHost _
  have start : Run x .everyOther ctx (⟨.start 0, []⟩ : Reception Unit Nat) [] ⟨.start 0, []⟩ := .rest
  have entered := (start.step (.enter inst)).step (.enter inst)
  have looked := (entered.step (.miss (c := 0) rfl rfl rfl)).step (.miss (c := 1) rfl rfl rfl)
  have chosen := (looked.step (.choose .empty (c := 0) rfl rfl rfl)).step (.choose .empty (c := 1) rfl rfl rfl)
  have failed := chosen.step (.fail (c := 0) (e := .producer "out of order") rfl rfl (by decide +kernel))
  have made := failed.step (.create_new (c := 1) (i := 0) rfl rfl (by decide +kernel) (by decide +kernel))
  have found := (made.step (.enter inst)).step (.found (c := 2) (i := 0) rfl rfl (by decide +kernel))
  have handed := found.step (.hand (c := 1) rfl rfl)
  exact ⟨_, handed, rfl, rfl, hands_out di .empty rfl handed⟩

/-- A call hands nothing over if its instance takes no scopes, though it made the scope. Two calls that look before
there is a scope both hand it over, though the second is given the scope that the first made. -/
theorem handed_never_or_twice :
    let x : Extension Unit := ⟨⟨"demo", true, .empty⟩, 0, fun _ => ()⟩
    let ctx : Context := .detached "A" "A"
    let start : Reception Unit Nat := ⟨.start 1, []⟩
    (∃ s, Run x .everyOther ctx start [.enter 0, .look 0, .choose 0, .create 0 true, .hand 0] s ∧
      s.arrivals = [⟨⟨some (), false⟩, .done ⟨.ok 0, none⟩⟩]) ∧
    ∃ s, Run x .everyOther ctx start
        [.enter 0, .enter 1, .look 0, .look 1, .choose 0, .choose 1, .create 0 true, .hand 0, .create 1 false, .hand 1]
        s ∧
      s.arrivals = [⟨⟨some (), true⟩, .done ⟨.ok 0, some 0⟩⟩, ⟨⟨some (), true⟩, .done ⟨.ok 0, some 0⟩⟩] := by
  intro x ctx start
  have run : Run x .everyOther ctx start [] start := .rest
  constructor
  · have looked := (run.step (.enter ⟨some (), false⟩)).step (.miss (c := 0) rfl rfl rfl)
    have chosen := looked.step (.choose .empty (c := 0) rfl rfl rfl)
    have made := chosen.step (.create_new (c := 0) (i := 0) rfl rfl rfl (by decide +kernel))
    exact ⟨_, made.step (.hand (c := 0) rfl rfl), rfl⟩
  · have entered := (run.step (.enter ⟨some (), true⟩)).step (.enter ⟨some (), true⟩)
    have looked := (entered.step (.miss (c := 0) rfl rfl rfl)).step (.miss (c := 1) rfl rfl rfl)
    have chosen := (looked.step (.choose .empty (c := 0) rfl rfl rfl)).step (.choose .empty (c := 1) rfl rfl rfl)
    have made := chosen.step (.create_new (c := 0) (i := 0) rfl rfl rfl (by decide +kernel))
    have handed := made.step (.hand (c := 0) rfl rfl)
    have given := handed.step (.create_again (c := 1) (i := 0) (j := 0) rfl rfl (by decide +kernel) (by decide +kernel))
    exact ⟨_, given.step (.hand (c := 1) rfl rfl), rfl⟩

end Reception

end ModelScopes
