import Mathlib.Data.List.Lex
import Mathlib.Tactic.Common

/-!
# The order of texts

Texts are compared by their characters, and characters by their code points. This is the order of the bytes by which
the texts are written in UTF-8: of two characters the one with the smaller code point has a smaller byte at the first
place where their bytes differ, and neither one's bytes begin with the other's. The main statement is
`Text.lt_iff_utf8_lt`.
-/

namespace ModelScopes.Text

/-- The bytes of a text in UTF-8. -/
def utf8 (s : String) : List UInt8 :=
  s.toUTF8.data.toList

/-- A text is encoded character by character. -/
lemma utf8_eq_flatMap (s : String) : utf8 s = s.toList.flatMap String.utf8EncodeChar := by
  have bytes : s.toUTF8 = (s.toList.flatMap String.utf8EncodeChar).toByteArray := String.utf8Encode_toList.symm
  rw [utf8, bytes, List.data_toByteArray]

/-- Code points stay below the end of the code space. -/
lemma toNat_lt_of_char (c : Char) : c.val.toNat < 0x110000 := by
  rcases c.valid with low | high
  · exact Nat.lt_trans low (by decide)
  · exact high.2

/-- What begins with the bytes of the smaller character is smaller. -/
lemma utf8EncodeChar_append_lt {c d : Char} (lt : c < d) (cs ds : List UInt8) :
    String.utf8EncodeChar c ++ cs < String.utf8EncodeChar d ++ ds := by
  have lt : c.val.toNat < d.val.toNat := lt
  have scalar := toNat_lt_of_char d
  simp only [String.utf8EncodeChar]
  generalize c.val.toNat = m at lt
  generalize d.val.toNat = n at lt scalar
  have sixths (k : Nat) : k / 4096 = k / 64 / 64 ∧ k / 262144 = k / 64 / 64 / 64 := by omega
  -- by the number of bytes of either character
  split_ifs <;>
    simp only [List.cons_append, List.nil_append, List.cons_lt_cons_iff, UInt8.lt_iff_toNat_lt, ← UInt8.toNat_inj,
      UInt8.toNat_ofNat', sixths] <;>
    omega

/-- Encoding keeps the order of texts. -/
lemma flatMap_utf8EncodeChar_lt {cs ds : List Char} (lt : cs < ds) :
    cs.flatMap String.utf8EncodeChar < ds.flatMap String.utf8EncodeChar := by
  induction cs generalizing ds with
  | nil =>
    cases ds with
    | nil => exact absurd lt (List.not_lt_nil _)
    | cons d ds =>
      obtain ⟨b, bytes, eq⟩ := List.exists_cons_of_ne_nil (@String.utf8EncodeChar_ne_nil d)
      rw [List.flatMap_nil, List.flatMap_cons, eq]
      exact List.nil_lt_cons _ _
  | cons c cs ih =>
    cases ds with
    | nil => exact absurd lt (List.not_lt_nil _)
    | cons d ds =>
      rw [List.flatMap_cons, List.flatMap_cons]
      rcases List.cons_lt_cons_iff.mp lt with less | ⟨rfl, later⟩
      · exact utf8EncodeChar_append_lt less _ _
      · exact List.append_left_lt (ih later)

/-- Texts are in the order of their bytes. -/
theorem lt_iff_utf8_lt {s t : String} : s < t ↔ utf8 s < utf8 t := by
  have mono {s t : String} (lt : s < t) : utf8 s < utf8 t := by
    rw [utf8_eq_flatMap, utf8_eq_flatMap]
    exact flatMap_utf8EncodeChar_lt (String.lt_iff.mp lt)
  refine ⟨mono, fun less => ?_⟩
  rcases Std.lt_trichotomy s t with lt | rfl | gt
  · exact lt
  · exact absurd less (List.lt_irrefl _)
  · exact absurd less (List.lt_asymm (mono gt))

end ModelScopes.Text
