import ModelScopes.Proofs.Callers.Order
import ModelScopes.Proofs.Scope.Leaks

/-!
# A call on its own

When nobody else calls, finding or creating a scope is one run of a caller that never starts again: it ends with the
same answer, and leaves the storage the same.
-/

namespace ModelScopes

variable {P H : Type}

/-- The storage of a world, on which nobody has called yet. -/
def Crowd.ofWorld (w : World P H) (st : StorageId) : Crowd :=
  ⟨w.storages st, fun _ => none, [], [], w.scopes.length⟩

namespace World

variable {produce : Produce P H} {w : World P H} {st : StorageId}

/-- A caller that is alone reads the slot of its key. -/
lemma run_to_reading (w : World P H) (st : StorageId) (key : ScopeKey) :
    ∃ t s, Run (.ofWorld w st) t s ∧ (∀ c, .retry c ∉ t) ∧
      s.storage = ((w.storages st).fetch key).2 ∧ s.made = w.scopes.length ∧
      s.callers = [⟨key, none, .reading ((w.storages st).fetch key).1⟩] := by
  have here : ((w.storages st).fetch key).2.isCurrent key ((w.storages st).fetch key).1 = true := by
    simp [Storage.isCurrent, Storage.slot?_fetch]
  have entered := (Run.rest (s := .ofWorld w st)).step (@Step.enter _ key none (Crowd.permits_none _))
  have fetched := entered.step (@Step.fetch _ 0 _ rfl rfl)
  have acquired := fetched.step (@Step.acquire _ 0 _ _ rfl rfl rfl)
  have checked := acquired.step (@Step.check _ 0 _ _ rfl rfl here)
  exact ⟨_, _, checked, by simp, rfl, rfl, rfl⟩

/-- Finding or creating is what a caller does that is alone. -/
theorem getOrCreate_alone (di : produce.Discreet) (key : ScopeKey) (p : P) (registry : Registry) :
    ∃ t s, Run (.ofWorld w st) (t ++ [.leave 0 key (w.getOrCreate produce st key p registry).1]) s ∧
      (∀ c, .retry c ∉ t) ∧ s.storage = (w.getOrCreate produce st key p registry).2.storages st := by
  obtain ⟨t, s, run, none_retried, storage, made, callers⟩ := run_to_reading w st key
  have hc : s.callers[0]? = some ⟨key, none, .reading ((w.storages st).fetch key).1⟩ := by rw [callers]; rfl
  cases hr : ((w.storages st).fetch key).2.read ((w.storages st).fetch key).1 with
  | some i =>
    have eq : w.getOrCreate produce st key p registry =
        (.ok i, w.modifyStorage st fun _ => ((w.storages st).fetch key).2) := by
      simp only [getOrCreate, hr]
    have read := run.step (.read hc rfl (by rw [storage]; exact hr))
    have left := read.step (.leave (Crowd.caller_put hc _) rfl)
    rw [eq]
    refine ⟨_, _, left, ?_, ?_⟩
    · simpa using none_retried
    · simpa using storage
  | none =>
    have eq : w.getOrCreate produce st key p registry =
        (w.modifyStorage st fun _ => ((w.storages st).fetch key).2).createIn produce st key
          ((w.storages st).fetch key).1 p registry := by
      simp only [getOrCreate, hr]
    have missed := run.step (.miss hc rfl (by rw [storage]; exact hr))
    have hc₁ := Crowd.caller_put hc (.building ((w.storages st).fetch key).1)
    -- there is no other caller that could have been called from within the build
    have idle : (s.put 0 ⟨key, none, .reading ((w.storages st).fetch key).1⟩
        (.building ((w.storages st).fetch key).1)).Idle 0 := by
      intro x hx e
      simp [Crowd.put, callers] at hx
      simp [hx] at e
    have kept := congrFun (di.storages p registry (w.beforeBuild st key)) st
    have length := (di.ages p registry (w.beforeBuild st key)).length
    cases hp : produce p registry (w.beforeBuild st key) with
    | mk r v =>
      rw [hp] at kept length
      have stored : v.storages st = ((w.storages st).fetch key).2 := kept.trans (by rw [storages_beforeBuild])
      cases r with
      | error e =>
        have failed := missed.step (.fail e hc₁ rfl idle)
        have hc₂ := Crowd.caller_put hc₁ (.releasing ((w.storages st).fetch key).1 e)
        have released := failed.step (.release hc₂ rfl)
        have left := released.step (.leave (Crowd.caller_put hc₂ _) rfl)
        rw [eq, createIn, openScope_of_failed hp]
        refine ⟨_, _, left, by simpa using none_retried, ?_⟩
        simp [storage, stored]
      | ok m =>
        have length : v.scopes.length = s.made := length.trans made.symm
        have built := missed.step (.build hc₁ rfl idle)
        have hc₂ := Crowd.caller_put hc₁ (.publishing ((w.storages st).fetch key).1 s.made)
        have published := built.step (.publish hc₂ rfl)
        have left := published.step (.leave (Crowd.caller_put hc₂ _) rfl)
        rw [eq, createIn, openScope_of_built hp, length]
        refine ⟨_, _, left, by simpa using none_retried, ?_⟩
        simp [storage, stored]

end World

end ModelScopes
