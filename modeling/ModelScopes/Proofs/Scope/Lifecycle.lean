import ModelScopes.Proofs.Scope.Inversion

/-!
# Life of a scope

A scope is asked again and again: for its model, to let the model go, to close, and for its phase. The transcript
of its calls shows the scope and the world before and after each, and `Lifecycle` says what every transcript obeys
whatever the producer does from call to call: the producer is called once for each call that asks an empty scope
for its model, and at no other time; what was built is given out until it is let go of; what was closed stays as
it is. The calls of the producer are those that `Produce.noted` writes down on the way. The main statement is
`Scope.lifecycle`.
-/

namespace ModelScopes

variable {P H : Type}

/-- A call of a producer: what it was given, and what came of it. -/
structure ProducerCall (P : Type) where
  producer : P
  registry : Registry
  outcome : Except ScopeError Model
  deriving DecidableEq

/-- A host, and the calls of producers so far. -/
structure Noted (P H : Type) where
  host : H
  calls : List (ProducerCall P)

/-- The world with another host. -/
def World.mapHost {H' : Type} (f : H → H') (w : World P H) : World P H' :=
  ⟨w.scopes, w.storages, w.events, w.serial, f w.host⟩

/-- The same producers, each call of which is written down. -/
def Produce.noted (produce : Produce P H) : Produce P (Noted P H) := fun p registry w =>
  let (r, w') := produce p registry (w.mapHost Noted.host)
  (r, w'.mapHost fun h => ⟨h, w.host.calls ++ [⟨p, registry, r⟩]⟩)

/-- What is asked of a scope. -/
inductive ScopeCall where
  | model
  | invalidate
  | close
  | phase
  deriving DecidableEq, Repr

/-- What a scope answers. -/
inductive ScopeAnswer where
  | model (r : Except ScopeError Built)
  | invalidated (r : Except ScopeError Unit)
  | closed
  | phase (p : ScopePhase)

/-- A call of a scope, its answer, and the scope and the world before and after it. -/
structure Exchange (P H : Type) where
  call : ScopeCall
  before : Scope P × World P H
  answer : ScopeAnswer
  after : Scope P × World P H

/-- The answer of a closed scope. -/
def ScopeCall.refusal (key : ScopeKey) : ScopeCall → ScopeAnswer
  | model => .model (.error (.inactive key))
  | invalidate => .invalidated (.error (.inactive key))
  | close => .closed
  | phase => .phase .closed

namespace Exchange

/-- Whether an empty scope is asked for its model. -/
def AsksEmpty (x : Exchange P H) : Prop :=
  x.call = .model ∧ x.before.1.phase = .activeEmpty

instance (x : Exchange P H) : Decidable x.AsksEmpty :=
  inferInstanceAs (Decidable (_ ∧ _))

/-- The exchange as it is without what was written down. -/
def forget (x : Exchange P (Noted P H)) : Exchange P H :=
  ⟨x.call, (x.before.1, x.before.2.mapHost Noted.host), x.answer, (x.after.1, x.after.2.mapHost Noted.host)⟩

/-- What an empty scope makes of what its producer came up with. -/
def Takes (x : Exchange P H) : Except ScopeError Model → Prop
  | .ok m => ∃ b, b.model = m ∧ x.answer = .model (.ok b) ∧ x.after.1.state = .active (some b)
  | .error e => x.answer = .model (.error e) ∧ x.after.1.phase = .activeEmpty

end Exchange

namespace Scope

/-- Asks a scope. -/
def exchange (produce : Produce P H) (call : ScopeCall) (s : Scope P) (w : World P H) : Exchange P H :=
  match call with
  | .model => ⟨.model, (s, w), .model (s.model produce w).1, (s.model produce w).2⟩
  | .invalidate => ⟨.invalidate, (s, w), .invalidated (s.invalidate w).1, (s.invalidate w).2⟩
  | .close => ⟨.close, (s, w), .closed, s.close w⟩
  | .phase => ⟨.phase, (s, w), .phase s.phase, (s, w)⟩

/-- Asks a scope again and again. -/
def transcript (produce : Produce P H) : List ScopeCall → Scope P → World P H → List (Exchange P H)
  | [], _, _ => []
  | call :: rest, s, w =>
    let x := s.exchange produce call w
    x :: x.after.1.transcript produce rest x.after.2

end Scope

/-- What the transcript of a scope obeys, whose key, registry and producer are these. -/
structure Lifecycle (key : ScopeKey) (registry : Registry) (p : P) (t : List (Exchange P (Noted P H))) : Prop where
  /-- Each call finds the scope and the world as the one before left them. -/
  linked : ∀ before x y after, t = before ++ x :: y :: after → y.before = x.after
  /-- An empty scope that is asked for its model calls its producer once, and takes what comes of it. -/
  builds : ∀ x ∈ t, x.AsksEmpty →
    ∃ r, x.after.2.host.calls = x.before.2.host.calls ++ [⟨p, registry, r⟩] ∧ x.Takes r
  /-- No other call reaches the producer. -/
  rests : ∀ x ∈ t, ¬ x.AsksEmpty → x.after.2.host.calls = x.before.2.host.calls
  /-- From first to last the producer is called as often as an empty scope is asked for its model. -/
  counts : ∀ x y, t.head? = some x → t.getLast? = some y →
    ∃ made, y.after.2.host.calls = x.before.2.host.calls ++ made ∧ made.length = t.countP (·.AsksEmpty) ∧
      ∀ c ∈ made, c.producer = p ∧ c.registry = registry
  /-- A model that was given out is given out again until it is let go of. -/
  keeps : ∀ before x between y after b, t = before ++ x :: between ++ y :: after →
    x.call = .model → x.answer = .model (.ok b) → (∀ z ∈ between, z.call = .model ∨ z.call = .phase) →
    y.before.1.phase = .activePopulated ∧ (y.call = .model → y.answer = .model (.ok b))
  /-- An active scope lets its model go. -/
  releases : ∀ x ∈ t, x.call = .invalidate → x.before.1.phase ≠ .closed →
    x.answer = .invalidated (.ok ()) ∧ x.after.1.phase = .activeEmpty
  /-- A scope that was closed refuses every call and changes nothing any more. -/
  ends : ∀ before x after, t = before ++ x :: after → x.call = .close →
    x.after.1.phase = .closed ∧ ∀ y ∈ after, y.answer = y.call.refusal key ∧ y.after = x.after
  /-- The phase is told as it is. -/
  tells : ∀ x ∈ t, x.call = .phase → x.answer = .phase x.before.1.phase ∧ x.after = x.before

/-- A producer that is noted has written its call down once it is done. -/
lemma Produce.noted_calls (produce : Produce P H) (p : P) (registry : Registry) (w : World P (Noted P H)) :
    (produce.noted p registry w).2.host.calls =
      w.host.calls ++ [⟨p, registry, (produce.noted p registry w).1⟩] :=
  rfl

namespace Scope

variable {produce : Produce P H} {s : Scope P} {w : World P H}

/-! ## One call -/

/-- An exchange notes the call that was made. -/
@[simp] lemma exchange_call (call : ScopeCall) : (s.exchange produce call w).call = call := by
  cases call <;> rfl

/-- The exchange of a call for the model, with its answer. -/
lemma exchange_model :
    s.exchange produce .model w = ⟨.model, (s, w), .model (s.model produce w).1, (s.model produce w).2⟩ :=
  rfl

/-- An exchange notes the scope and the world from before the call. -/
@[simp] lemma exchange_before (call : ScopeCall) : (s.exchange produce call w).before = (s, w) := by
  cases call <;> rfl

/-- Whatever is called, the scope only ages. -/
lemma ages_exchange (call : ScopeCall) : s.Ages (s.exchange produce call w).after.1 := by
  cases call with
  | model => exact ages_model produce s w
  | invalidate => exact ages_invalidate s w
  | close => exact ages_close s w
  | phase => exact .refl s

/-- A closed scope refuses every call in the call's own way, and nothing changes. -/
lemma exchange_of_closed (h : s.state = .closed) (call : ScopeCall) :
    (s.exchange produce call w).answer = call.refusal s.key ∧ (s.exchange produce call w).after = (s, w) := by
  cases call with
  | model => simp [exchange, model_of_closed h, ScopeCall.refusal]
  | invalidate => simp [exchange, invalidate_of_closed h, ScopeCall.refusal]
  | close => simp [exchange, close_of_closed h, ScopeCall.refusal]
  | phase => simp [exchange, phase_eq_closed_iff.mpr h, ScopeCall.refusal]

/-- A scope that holds a model is not changed by a look at it. -/
lemma exchange_of_populated {b : Built} (h : s.state = .active (some b)) {call : ScopeCall}
    (hc : call = .model ∨ call = .phase) : (s.exchange produce call w).after = (s, w) := by
  rcases hc with rfl | rfl
  · simp [exchange, model_of_populated h]
  · rfl

/-- A scope that holds a model answers with that model. -/
lemma answer_of_populated {b : Built} (h : s.state = .active (some b)) :
    (s.exchange produce .model w).answer = .model (.ok b) := by
  simp [exchange, model_of_populated h]

/-- A scope that gave its model out holds it. -/
lemma state_of_model_ok {b : Built} (h : (s.model produce w).1 = .ok b) :
    (s.model produce w).2.1.state = .active (some b) := by
  obtain ⟨-, eq⟩ | ⟨b', held, eq⟩ | ⟨e, w', -, -, eq⟩ | ⟨m, w', -, -, eq⟩ := s.model_cases produce w
  · rw [eq] at h
    cases h
  · rw [eq] at h ⊢
    cases h
    exact held
  · rw [eq] at h
    cases h
  · rw [eq] at h ⊢
    cases h
    rfl

/-! ## Transcripts -/

/-- Each place in a transcript shows the scope being asked, aged, and what comes after is a transcript again. -/
lemma transcript_split {calls : List ScopeCall} {before after : List (Exchange P H)} {x : Exchange P H}
    (e : s.transcript produce calls w = before ++ x :: after) :
    ∃ s' w' rest, x = s'.exchange produce x.call w' ∧ s.Ages s' ∧
      after = x.after.1.transcript produce rest x.after.2 := by
  -- each call before only ages the scope, and leaves the rest of the calls to the scope it came to
  induction before generalizing calls s w with
  | nil =>
    cases calls with
    | nil => cases e
    | cons call rest =>
      obtain ⟨rfl, rfl⟩ := List.cons.inj e
      exact ⟨s, w, rest, by simp, .refl s, rfl⟩
  | cons y before ih =>
    cases calls with
    | nil => cases e
    | cons call rest =>
      obtain ⟨rfl, e'⟩ := List.cons.inj e
      obtain ⟨s', w', rest', hx, ag, ha⟩ := ih e'
      exact ⟨s', w', rest', hx, (ages_exchange call).trans ag, ha⟩

/-- Every exchange of a transcript was made with the scope at some later age. -/
lemma exists_of_mem_transcript {calls : List ScopeCall} {x : Exchange P H}
    (hx : x ∈ s.transcript produce calls w) : ∃ s' w', x = s'.exchange produce x.call w' ∧ s.Ages s' := by
  obtain ⟨before, after, e⟩ := List.append_of_mem hx
  obtain ⟨s', w', _, h, ag, _⟩ := transcript_split e
  exact ⟨s', w', h, ag⟩

/-- From a closed scope on there are only refusals. -/
lemma transcript_of_closed (h : s.state = .closed) (calls : List ScopeCall) :
    ∀ x ∈ s.transcript produce calls w, x.answer = x.call.refusal s.key ∧ x.after = (s, w) := by
  induction calls with
  | nil =>
    intro x hx
    cases hx
  | cons call rest ih =>
    intro x hx
    obtain ⟨ha, hs⟩ : (s.exchange produce call w).answer = call.refusal s.key ∧
        (s.exchange produce call w).after = (s, w) := exchange_of_closed h call
    rcases List.mem_cons.mp hx with rfl | hx
    · exact ⟨by simpa using ha, hs⟩
    · rw [hs] at hx
      exact ih x hx

/-- A populated scope stays as it is while it is asked for nothing but its model and its phase. -/
lemma transcript_of_populated {b : Built} (h : s.state = .active (some b)) {calls : List ScopeCall}
    {between after : List (Exchange P H)} {y : Exchange P H}
    (e : s.transcript produce calls w = between ++ y :: after)
    (hb : ∀ z ∈ between, z.call = .model ∨ z.call = .phase) : y = s.exchange produce y.call w := by
  induction between generalizing calls with
  | nil =>
    cases calls with
    | nil => cases e
    | cons call rest =>
      obtain ⟨rfl, _⟩ := List.cons.inj e
      simp
  | cons z between ih =>
    cases calls with
    | nil => cases e
    | cons call rest =>
      obtain ⟨rfl, e'⟩ := List.cons.inj e
      have hc := hb _ List.mem_cons_self
      rw [exchange_call] at hc
      rw [exchange_of_populated h hc] at e'
      exact ih e' fun z hz => hb z (List.mem_cons_of_mem _ hz)

/-! ## Calls of the producer -/

/-- An empty scope that is asked for its model calls its producer once, and takes what comes of it. -/
lemma exchange_builds (s : Scope P) (w : World P (Noted P H)) {call : ScopeCall}
    (h : (s.exchange produce.noted call w).AsksEmpty) :
    ∃ r, (s.exchange produce.noted call w).after.2.host.calls = w.host.calls ++ [⟨s.producer, s.registry, r⟩] ∧
      (s.exchange produce.noted call w).Takes r := by
  obtain ⟨hc, hph⟩ := h
  have he : s.state = .active none := by simpa using hph
  rw [exchange_call] at hc
  subst hc
  have noted := produce.noted_calls s.producer s.registry (w.emit (.building s.key))
  cases hp : produce.noted s.producer s.registry (w.emit (.building s.key)) with
  | mk r w' =>
    rw [hp] at noted
    refine ⟨r, ?_, ?_⟩
    · cases r with
      | error e => simpa [exchange, model_of_failed he hp] using noted
      | ok m => simpa [exchange, model_of_built he hp] using noted
    · cases r with
      | error e => simp [Exchange.Takes, exchange, model_of_failed he hp, he]
      | ok m => simp [Exchange.Takes, exchange, model_of_built he hp]

/-- No other call reaches the producer. -/
lemma exchange_rests (s : Scope P) (w : World P (Noted P H)) {call : ScopeCall}
    (h : ¬ (s.exchange produce.noted call w).AsksEmpty) :
    (s.exchange produce.noted call w).after.2.host.calls = w.host.calls := by
  cases call with
  | model =>
    have ne : s.state ≠ .active none := by simpa [Exchange.AsksEmpty] using h
    obtain ⟨-, eq⟩ | ⟨b, -, eq⟩ | ⟨_, _, empty, -⟩ | ⟨_, _, empty, -⟩ := s.model_cases produce.noted w
    · rw [exchange_model, eq]
    · rw [exchange_model, eq]
    · exact absurd empty ne
    · exact absurd empty ne
  | invalidate => exact congrArg Noted.calls (invalidate_world s w).2.2.2
  | close => exact congrArg Noted.calls (close_world s w).2.2.2
  | phase => rfl

/-- The producer is called as often as an empty scope is asked for its model. -/
lemma transcript_counts (s : Scope P) (w : World P (Noted P H)) (calls : List ScopeCall)
    {y : Exchange P (Noted P H)} (hy : (s.transcript produce.noted calls w).getLast? = some y) :
    ∃ made, y.after.2.host.calls = w.host.calls ++ made ∧
      made.length = (s.transcript produce.noted calls w).countP (·.AsksEmpty) ∧
      ∀ c ∈ made, c.producer = s.producer ∧ c.registry = s.registry := by
  induction calls generalizing s w with
  | nil => cases hy
  | cons call rest ih =>
    -- one call adds one entry or none, as it asks an empty scope or not
    have one : ∃ made, (s.exchange produce.noted call w).after.2.host.calls = w.host.calls ++ made ∧
        made.length = (if (s.exchange produce.noted call w).AsksEmpty then 1 else 0) ∧
        ∀ c ∈ made, c.producer = s.producer ∧ c.registry = s.registry := by
      by_cases h : (s.exchange produce.noted call w).AsksEmpty
      · obtain ⟨r, hr, _⟩ := exchange_builds s w h
        exact ⟨_, hr, by simp [h], by simp⟩
      · exact ⟨[], by simp [exchange_rests s w h], by simp [h], by simp⟩
    obtain ⟨made, hw, hn, hm⟩ := one
    have ag : s.Ages (s.exchange produce.noted call w).after.1 := ages_exchange call
    rw [transcript, List.getLast?_cons] at hy
    rw [transcript, List.countP_cons]
    cases ht : ((s.exchange produce.noted call w).after.1.transcript produce.noted rest
        (s.exchange produce.noted call w).after.2).getLast? with
    | none =>
      rw [ht] at hy
      cases hy
      exact ⟨made, hw, by simpa [List.getLast?_eq_none_iff.mp ht] using hn, hm⟩
    | some z =>
      rw [ht] at hy
      cases hy
      obtain ⟨later, hw', hn', hm'⟩ := ih _ _ ht
      refine ⟨made ++ later, by rw [hw', hw, List.append_assoc], ?_, ?_⟩
      · simp only [List.length_append, hn, hn', decide_eq_true_eq]
        omega
      · intro c hc
        rcases List.mem_append.mp hc with old | new
        · exact hm c old
        · exact ⟨(hm' c new).1.trans ag.producer, (hm' c new).2.trans ag.registry⟩

/-- Writing the calls of the producer down changes nothing else in an exchange. -/
lemma forget_exchange (s : Scope P) (w : World P (Noted P H)) (call : ScopeCall) :
    (s.exchange produce.noted call w).forget = s.exchange produce call (w.mapHost Noted.host) := by
  cases call with
  | model =>
    -- what the noted producer makes of its world is what the producer makes of the world without the notes
    have noted : ∀ r w', produce s.producer s.registry ((w.mapHost Noted.host).emit (.building s.key)) = (r, w') →
        produce.noted s.producer s.registry (w.emit (.building s.key)) =
          (r, w'.mapHost fun h => ⟨h, w.host.calls ++ [⟨s.producer, s.registry, r⟩]⟩) := by
      intro r w' hp
      have hw : (w.emit (.building s.key)).mapHost Noted.host =
          (w.mapHost Noted.host).emit (.building s.key) := rfl
      simp only [Produce.noted, hw, hp, World.host_emit]
    obtain ⟨closed, eq⟩ | ⟨b, held, eq⟩ | ⟨e, w', empty, hp, eq⟩ | ⟨m, w', empty, hp, eq⟩ :=
      s.model_cases produce (w.mapHost Noted.host)
    · rw [exchange_model, exchange_model, eq, model_of_closed closed]
      rfl
    · rw [exchange_model, exchange_model, eq, model_of_populated held]
      rfl
    · rw [exchange_model, exchange_model, eq, model_of_failed empty (noted _ _ hp)]
      rfl
    · rw [exchange_model, exchange_model, eq, model_of_built empty (noted _ _ hp)]
      rfl
  | invalidate =>
    simp only [exchange, Exchange.forget, invalidate]
    cases s.state with
    | closed => rfl
    | active held => cases held <;> rfl
  | close =>
    simp only [exchange, Exchange.forget, close]
    cases s.state <;> rfl
  | phase => rfl

/-- Writing the calls of the producer down changes nothing else in a transcript. -/
lemma forget_transcript (s : Scope P) (w : World P (Noted P H)) (calls : List ScopeCall) :
    (s.transcript produce.noted calls w).map Exchange.forget = s.transcript produce calls (w.mapHost Noted.host) := by
  induction calls generalizing s w with
  | nil => rfl
  | cons call rest ih =>
    have hx : (s.exchange produce.noted call w).forget = s.exchange produce call (w.mapHost Noted.host) :=
      forget_exchange s w call
    simp only [transcript, List.map_cons, ih, hx, List.cons.injEq, true_and]
    rw [← hx]
    rfl

/-! ## Main statement -/

/-- The transcript of any scope obeys the rules for its key, its registry and its producer. -/
lemma transcript_lifecycle (s : Scope P) (w : World P (Noted P H)) (calls : List ScopeCall) :
    Lifecycle s.key s.registry s.producer (s.transcript produce.noted calls w) where
  linked := by
    intro before x y after e
    obtain ⟨s', w', rest, _, _, hr⟩ := transcript_split e
    cases rest with
    | nil => cases hr
    | cons call rest =>
      obtain ⟨rfl, _⟩ := List.cons.inj hr
      simp
  builds := by
    intro x hx ha
    obtain ⟨s', w', hx', ag⟩ := exists_of_mem_transcript hx
    rw [hx'] at ha ⊢
    simpa [ag.producer, ag.registry] using exchange_builds s' w' ha
  rests := by
    intro x hx ha
    obtain ⟨s', w', hx', _⟩ := exists_of_mem_transcript hx
    rw [hx'] at ha ⊢
    simpa using exchange_rests s' w' ha
  counts := by
    intro x y hx hy
    cases calls with
    | nil => cases hx
    | cons call rest =>
      cases hx
      simpa using transcript_counts s w (call :: rest) hy
  keeps := by
    intro before x between y after b e hc ha hb
    rw [List.append_assoc, List.cons_append] at e
    -- the exchange that gave the model was made with some scope, which has held this model ever since
    obtain ⟨s', w', rest, hx, _, hr⟩ := transcript_split e
    rw [hc] at hx
    subst hx
    have held : (s'.exchange produce.noted .model w').after.1.state = .active (some b) :=
      state_of_model_ok (by simpa [exchange] using ha)
    have hy := transcript_of_populated held hr.symm hb
    refine ⟨?_, fun hcy => ?_⟩
    · rw [hy, exchange_before]
      exact phase_eq_activePopulated_iff.mpr ⟨b, held⟩
    · rw [hy, hcy]
      exact answer_of_populated held
  releases := by
    intro x hx hc ha
    obtain ⟨s', w', hx', _⟩ := exists_of_mem_transcript hx
    rw [hc] at hx'
    subst hx'
    cases hs : s'.state with
    | closed => exact absurd (by simpa using hs) ha
    | active held => simp [exchange, invalidate_of_active hs]
  ends := by
    intro before x after e hc
    obtain ⟨s', w', rest, hx, ag, hr⟩ := transcript_split e
    rw [hc] at hx
    subst hx
    have closed : (s'.exchange produce.noted .close w').after.1.state = .closed := by simp [exchange]
    refine ⟨by simpa using closed, ?_⟩
    intro y hy
    rw [hr] at hy
    have key : (s'.exchange produce.noted .close w').after.1.key = s.key := by simp [exchange, ag.key]
    simpa [key] using transcript_of_closed closed rest y hy
  tells := by
    intro x hx hc
    obtain ⟨s', w', hx', _⟩ := exists_of_mem_transcript hx
    rw [hc] at hx'
    subst hx'
    exact ⟨rfl, rfl⟩

/-- A new scope is empty, and all its calls obey the rules, with the calls of its producer written down on the way. If
its model is built at once, then this is the first of its calls: there is a scope only if the producer succeeds, and
it obeys the rules from this call on. -/
theorem lifecycle (produce : Produce P H) (key : ScopeKey) (registry : Registry) (p : P)
    (w : World P (Noted P H)) (calls : List ScopeCall) :
    (new key registry p).phase = .activeEmpty ∧
    ((new key registry p).transcript produce.noted calls w).map Exchange.forget =
      (new key registry p).transcript produce calls (w.mapHost Noted.host) ∧
    Lifecycle key registry p ((new key registry p).transcript produce.noted calls w) ∧
    match opened produce.noted key registry p w with
    | (.error e, w') => w'.host.calls = w.host.calls ++ [⟨p, registry, .error e⟩]
    | (.ok s, w') =>
      ∃ x m, x.AsksEmpty ∧ x.Takes (.ok m) ∧ x.before = (new key registry p, w) ∧ x.after = (s, w') ∧
        w'.host.calls = w.host.calls ++ [⟨p, registry, .ok m⟩] ∧
        Lifecycle key registry p (x :: s.transcript produce.noted calls w') := by
  refine ⟨rfl, forget_transcript _ w calls, transcript_lifecycle (new key registry p) w calls, ?_⟩
  -- a scope is made with its model by asking a new one for it
  have asks : ((new key registry p).exchange produce.noted .model w).AsksEmpty := ⟨rfl, rfl⟩
  obtain ⟨r, made, takes⟩ := exchange_builds (new key registry p) w asks
  have first : Lifecycle key registry p ((new key registry p).transcript produce.noted (.model :: calls) w) :=
    transcript_lifecycle (new key registry p) w (.model :: calls)
  rw [transcript] at first
  rw [exchange_model] at asks made takes first
  cases r with
  | error e =>
    have failed : ((new key registry p).model produce.noted w).1 = .error e := by simpa using takes.1
    rw [opened_of_failed failed]
    exact made
  | ok m =>
    obtain ⟨b, hm, hb, hs⟩ := takes
    have built : ((new key registry p).model produce.noted w).1 = .ok b := by simpa using hb
    rw [opened_of_built built]
    exact ⟨_, m, asks, ⟨b, hm, hb, hs⟩, rfl, rfl, made, first⟩

end Scope

end ModelScopes
