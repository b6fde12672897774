import Mathlib.Data.List.DropRight
import Mathlib.Data.List.Infix
import ModelScopes.ClassName

/-!
# Simple names

The simple name of a class stands at the end of its name, holds no separator, and reaches back to the last separator or
to the beginning. No other text does so, and so the simple name is the longest end of the name without a separator. The
main statement is `ClassName.simpleName_iff`.
-/

namespace ModelScopes.ClassName

/-- No separator stands in the text. -/
def Unseparated (s : String) : Prop :=
  '.' ∉ s.toList ∧ '$' ∉ s.toList

/-- The text is the end of the name, without a separator, and stands behind one or is all of the name. -/
structure EndsPlain (name s : String) : Prop where
  unseparated : Unseparated s
  suffix : ∃ p, name = p ++ s
  cut : name = s ∨ ∃ p, name = p ++ "." ++ s ∨ name = p ++ "$" ++ s

variable {cs s : List Char} {c : Char}

/-- Parts of a name are separated by a dot or a dollar sign. -/
lemma isSeparator_iff : isSeparator c ↔ c = '.' ∨ c = '$' := by
  simp [isSeparator]

/-- A text is in one part if none of its characters is a separator. -/
lemma unseparated_iff {s : String} : Unseparated s ↔ ∀ c ∈ s.toList, ¬ isSeparator c := by
  simp only [Unseparated, isSeparator_iff]
  grind

/-! ## Characters -/

/-- There is no separator in the last part. -/
lemma not_isSeparator_of_mem (h : c ∈ lastPart cs) : ¬ isSeparator c := by
  simpa using List.mem_rtakeWhile_imp h

/-- Without a separator all is the last part. -/
lemma lastPart_of_unseparated (h : ∀ c ∈ s, ¬ isSeparator c) : lastPart s = s :=
  List.rtakeWhile_eq_self_iff.mpr (by simpa using h)

/-- What stands behind a separator and holds none is the last part. -/
lemma lastPart_append_cons (p : List Char) (sep : isSeparator c) (h : ∀ c ∈ s, ¬ isSeparator c) :
    lastPart (p ++ c :: s) = s := by
  have plain : ∀ c ∈ s.reverse, (!isSeparator c) = true := by simpa using h
  rw [lastPart, List.reverse_append, List.reverse_cons, List.append_assoc, List.takeWhile_append_of_pos plain]
  simp [sep]

/-- Before the last part stands a separator, or nothing. -/
lemma eq_lastPart_or (cs : List Char) : cs = lastPart cs ∨ ∃ p c, isSeparator c ∧ cs = p ++ c :: lastPart cs := by
  have split : cs.rdropWhile (fun c => !isSeparator c) ++ lastPart cs = cs := List.rdropWhile_append_rtakeWhile
  rcases List.eq_nil_or_concat (cs.rdropWhile fun c => !isSeparator c) with none | ⟨p, c, last⟩
  · rw [none, List.nil_append] at split
    exact .inl split.symm
  · have stops : ¬ (!isSeparator c) = true := by
      have := List.rdropWhile_last_not (fun c => !isSeparator c) cs (by simp [last])
      simpa [last] using this
    rw [last, List.concat_eq_append, List.append_assoc, List.singleton_append] at split
    exact .inr ⟨p, c, by simpa using stops, split.symm⟩

/-- No longer end is without a separator. -/
lemma suffix_lastPart (suffix : s <:+ cs) (h : ∀ c ∈ s, ¬ isSeparator c) : s <:+ lastPart cs := by
  rcases eq_lastPart_or cs with all | ⟨p, c, sep, split⟩
  · rwa [← all]
  · have behind : c :: lastPart cs <:+ cs := ⟨p, split.symm⟩
    rcases List.suffix_or_suffix_of_suffix suffix behind with shorter | longer
    · rcases List.suffix_cons_iff.mp shorter with rfl | shorter
      · exact absurd sep (h c (List.mem_cons_self ..))
      · exact shorter
    · exact absurd sep (h c (longer.subset (List.mem_cons_self ..)))

/-! ## Texts -/

/-- The characters of the simple name are the last part of those of the name. -/
lemma toList_simpleName (n : ClassName) : n.simpleName.toList = lastPart n.name.toList := by
  simp [simpleName]

/-- A name in one part is its own simple name. -/
lemma simpleName_of_unseparated {s : String} (h : Unseparated s) : (mk s).simpleName = s := by
  rw [simpleName, lastPart_of_unseparated (unseparated_iff.mp h), String.ofList_toList]

/-- Whatever stands before a separator does not matter to the simple name. -/
lemma simpleName_append (p : String) {sep : String} (one : sep.toList = [c]) (is_sep : isSeparator c) {s : String}
    (h : Unseparated s) : (mk (p ++ sep ++ s)).simpleName = s := by
  have split : (p ++ sep ++ s).toList = p.toList ++ c :: s.toList := by simp [one]
  rw [simpleName, split, lastPart_append_cons _ is_sep (unseparated_iff.mp h), String.ofList_toList]

/-- The simple name is in one part, and stands at the end of the name, behind a separator or alone. -/
lemma endsPlain_simpleName (n : ClassName) : EndsPlain n.name n.simpleName where
  unseparated := by
    rw [unseparated_iff, toList_simpleName]
    exact fun c => not_isSeparator_of_mem
  suffix := by
    obtain ⟨p, split⟩ := List.rtakeWhile_suffix (fun c => !isSeparator c) n.name.toList
    refine ⟨String.ofList p, String.toList_injective ?_⟩
    rw [String.toList_append, toList_simpleName, String.toList_ofList]
    exact split.symm
  cut := by
    rcases eq_lastPart_or n.name.toList with all | ⟨p, c, sep, split⟩
    · exact .inl (String.toList_injective (by rw [toList_simpleName, ← all]))
    · refine .inr ⟨String.ofList p, ?_⟩
      rcases isSeparator_iff.mp sep with rfl | rfl
      · exact .inl (String.toList_injective (by simpa [toList_simpleName] using split))
      · exact .inr (String.toList_injective (by simpa [toList_simpleName] using split))

/-- A text that ends a name plainly is its simple name. -/
lemma EndsPlain.eq_simpleName {n : ClassName} {s : String} (en : EndsPlain n.name s) : n.simpleName = s := by
  obtain ⟨name⟩ := n
  rcases en.cut with rfl | ⟨p, rfl | rfl⟩
  · exact simpleName_of_unseparated en.unseparated
  · exact simpleName_append p rfl (by decide) en.unseparated
  · exact simpleName_append p rfl (by decide) en.unseparated

/-- The simple name is the one text that stands at the end of the name without a separator, behind one or with nothing
before it. So it is what stands behind a separator if no other one follows, it is the longest end of the name without a
separator, and it is its own simple name. -/
theorem simpleName_iff (n : ClassName) :
    (∀ s, n.simpleName = s ↔ EndsPlain n.name s) ∧
    (∀ p s, Unseparated s → (mk (p ++ "." ++ s)).simpleName = s ∧ (mk (p ++ "$" ++ s)).simpleName = s) ∧
    (∀ p s, n.name = p ++ s → Unseparated s → ∃ q, n.simpleName = q ++ s) ∧
    (mk n.simpleName).simpleName = n.simpleName := by
  refine ⟨fun s => ⟨?_, EndsPlain.eq_simpleName⟩, fun p s plain => ?_, fun p s split plain => ?_, ?_⟩
  · rintro rfl
    exact endsPlain_simpleName n
  · exact ⟨simpleName_append p rfl (by decide) plain, simpleName_append p rfl (by decide) plain⟩
  · have suffix : s.toList <:+ n.name.toList := ⟨p.toList, by rw [split, String.toList_append]⟩
    obtain ⟨q, longest⟩ := suffix_lastPart suffix (unseparated_iff.mp plain)
    refine ⟨String.ofList q, String.toList_injective ?_⟩
    rw [toList_simpleName, String.toList_append, String.toList_ofList, longest]
  · exact simpleName_of_unseparated (endsPlain_simpleName n).unseparated

/-- Names that begin with a separator, end with one, or have two beside each other. -/
example : (mk "a.b.Outer$Inner").simpleName = "Inner" ∧ (mk "$.a").simpleName = "a" ∧ (mk "a.$").simpleName = "" := by
  decide

end ModelScopes.ClassName
