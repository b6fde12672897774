import Mathlib.Data.List.Induction
import Mathlib.Tactic.Common

/-!
# Since

`Since p q xs` says of a list that is written from left to right that `p` has been there and `q` has not been there
since, and `Each C xs` that every place stands in the relation `C` to all that is before it. Both are known by what the
last place of the list adds (`since_concat`, `each_concat`), so that an induction on a run that goes on at its end can
use them.
-/

namespace ModelScopes

variable {α β : Type} {p q p' q' : α → Prop} {xs : List α} {x : α}

/-- Some `p` is in the list, and no `q` is behind it. -/
def Since (p q : α → Prop) (xs : List α) : Prop :=
  ∃ before x after, xs = before ++ x :: after ∧ p x ∧ ∀ y ∈ after, ¬ q y

/-- Every place of the list stands in a relation to what is before it. -/
def Each (C : List α → α → Prop) (xs : List α) : Prop :=
  ∀ before x after, xs = before ++ x :: after → C before x

/-- Nothing has happened in an empty list. -/
@[simp] lemma not_since_nil : ¬ Since p q [] := by
  rintro ⟨before, x, after, eq, -⟩
  cases before <;> cases eq

/-- It has happened since if it happens last, or if it had happened before and is not undone. -/
@[simp] lemma since_concat : Since p q (xs ++ [x]) ↔ p x ∨ (¬ q x ∧ Since p q xs) := by
  constructor
  · rintro ⟨before, y, after, eq, py, none⟩
    rcases List.eq_nil_or_concat after with rfl | ⟨after, z, rfl⟩
    · obtain ⟨-, e⟩ := List.append_inj' eq rfl
      cases e
      exact .inl py
    · rw [List.concat_eq_append, ← List.cons_append, ← List.append_assoc] at eq
      obtain ⟨rfl, e⟩ := List.append_inj' eq rfl
      cases e
      rw [List.concat_eq_append, List.forall_mem_append, List.forall_mem_singleton] at none
      exact .inr ⟨none.2, before, y, after, rfl, py, none.1⟩
  · rintro (px | ⟨nq, before, y, after, rfl, py, none⟩)
    · exact ⟨xs, x, [], rfl, px, nofun⟩
    · refine ⟨before, y, after ++ [x], by simp, py, ?_⟩
      rw [List.forall_mem_append, List.forall_mem_singleton]
      exact ⟨none, nq⟩

/-- What happens more often, and is undone less often, has happened since all the more. -/
lemma Since.mono (si : Since p q xs) (hp : ∀ x, p x → p' x) (hq : ∀ x, q' x → q x) : Since p' q' xs := by
  obtain ⟨before, x, after, eq, px, none⟩ := si
  exact ⟨before, x, after, eq, hp x px, fun y hy qy => none y hy (hq y qy)⟩

/-- It is decided by one pass from the left. -/
lemma since_iff_foldl [DecidablePred p] [DecidablePred q] :
    xs.foldl (fun b x => decide (p x) || (!decide (q x) && b)) false = true ↔ Since p q xs := by
  induction xs using List.reverseRecOn with
  | nil => simp
  | append_singleton xs x ih => simp [List.foldl_append, ← ih]

instance [DecidablePred p] [DecidablePred q] : Decidable (Since p q xs) :=
  decidable_of_iff _ since_iff_foldl

variable {C : List α → α → Prop}

/-- Nothing is asked of an empty list. -/
@[simp] lemma each_nil : Each C [] := by
  intro before x after eq
  cases before <;> cases eq

/-- One item more is asked for its own part, after all items before it. -/
@[simp] lemma each_concat : Each C (xs ++ [x]) ↔ Each C xs ∧ C xs x := by
  constructor
  · intro each
    refine ⟨fun before y after eq => each before y (after ++ [x]) (by simp [eq]), each xs x [] rfl⟩
  · rintro ⟨each, last⟩ before y after eq
    rcases List.eq_nil_or_concat after with rfl | ⟨after, z, rfl⟩
    · obtain ⟨rfl, e⟩ := List.append_inj' eq rfl
      cases e
      exact last
    · rw [List.concat_eq_append, ← List.cons_append, ← List.append_assoc] at eq
      obtain ⟨rfl, -⟩ := List.append_inj' eq rfl
      exact each before y after rfl

/-- If no `p` comes while another one stands open, and none stands open in the end, then every `p` is followed by a `q`
with neither in between. -/
lemma followed (each : Each (fun before x => p x → ¬ Since p q before) xs) (done : ¬ Since p q xs)
    {before after : List α} (eq : xs = before ++ x :: after) (px : p x) :
    ∃ between y rest, after = between ++ y :: rest ∧ q y ∧ ∀ z ∈ between, ¬ p z ∧ ¬ q z := by
  classical
  cases first : after.find? fun y => q y with
  | none =>
    have none_after : ∀ y ∈ after, ¬ q y := by simpa using first
    exact absurd ⟨before, x, after, eq, px, none_after⟩ done
  | some y =>
    obtain ⟨qy, between, rest, rfl, none_between⟩ := List.find?_eq_some_iff_append.mp first
    have none_between : ∀ z ∈ between, ¬ q z := by simpa using none_between
    refine ⟨between, y, rest, rfl, by simpa using qy, fun z hz => ⟨fun pz => ?_, none_between z hz⟩⟩
    -- a second one would come while `x` stands open
    obtain ⟨left, right, rfl⟩ := List.append_of_mem hz
    refine each (before ++ x :: left) z (right ++ y :: rest) (by simp [eq]) pz ⟨before, x, left, rfl, px, ?_⟩
    exact fun w hw => none_between w (List.mem_append_left _ hw)

end ModelScopes
