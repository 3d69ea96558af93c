import Mathlib
import ScriptDisassembler.Labels

/-!
The spelling of a name determines the name. The three kinds of names begin with different
letters, and numerals can be read back; the number at the end of the name of a table's
destination has no underscore in it, so what stands before the last underscore is the table.
-/

namespace ScriptDisassembler

namespace Text

/-- The number that hexadecimal digits stand for. -/
def hexValue (digits : List Char) : Nat :=
  digits.foldl (fun value digit => 16 * value + (hexDigit? digit).getD 0) 0

theorem hexValue_concat (digits : List Char) (digit : Char) :
    hexValue (digits ++ [digit]) = 16 * hexValue digits + (hexDigit? digit).getD 0 := by
  rw [hexValue, List.foldl_append, List.foldl_cons, List.foldl_nil, ← hexValue]

theorem hexDigit?_digitChar {digit : Nat} (h : digit < 16) :
    hexDigit? digit.digitChar = some digit := by
  have hall : ∀ digit : Fin 16, hexDigit? digit.val.digitChar = some digit.val := by decide
  exact hall ⟨digit, h⟩

theorem hexValue_toDigits (n : Nat) : hexValue (Nat.toDigits 16 n) = n := by
  induction n using Nat.strongRecOn with
  | ind n ih =>
    rcases Nat.lt_or_ge n 16 with hlt | hge
    · rw [Nat.toDigits_of_lt_base hlt, ← List.nil_append [n.digitChar], hexValue_concat,
        hexDigit?_digitChar hlt]
      exact Nat.zero_add n
    · have hlast := hexDigit?_digitChar (Nat.mod_lt n (by omega : 0 < 16))
      have hfront := ih (n / 16) (by omega)
      rw [Nat.toDigits_of_base_le (by omega) hge, hexValue_concat, hlast, hfront,
        Option.getD_some]
      omega

theorem hex_injective {first second : Nat} (h : hex first = hex second) : first = second := by
  have hdigits := congrArg String.toList h
  simp only [hex, String.toList_ofList] at hdigits
  rw [← hexValue_toDigits first, hdigits, hexValue_toDigits]

theorem not_mem_toString (n : Nat) : '_' ∉ (toString n).toList := by
  rw [Nat.toString_eq_ofList_toDigits, String.toList_ofList]
  exact Nat.underscore_not_in_toDigits

/-- A list splits in one way at the last place of an element. -/
theorem append_cons_inj {α : Type} {mark : α} {first second left right : List α}
    (hleft : mark ∉ left) (hright : mark ∉ right)
    (h : first ++ mark :: left = second ++ mark :: right) : first = second ∧ left = right := by
  rcases List.append_eq_append_iff.mp h with ⟨between, rfl, heq⟩ | ⟨between, rfl, heq⟩
  · cases between with
    | nil => simpa using heq
    | cons head tail =>
      have hmem : mark ∈ left := by
        rw [(List.cons.inj heq).2]
        simp
      exact absurd hmem hleft
  · cases between with
    | nil => simpa [eq_comm] using heq
    | cons head tail =>
      have hmem : mark ∈ right := by
        rw [(List.cons.inj heq).2]
        simp
      exact absurd hmem hright

end Text

theorem Label.text_injective {first second : Label} (h : first.text = second.text) :
    first = second := by
  have hletters := congrArg String.toList h
  cases first with
  | entrypoint index =>
    cases second with
    | entrypoint other =>
      simp only [text, String.toList_append, List.append_cancel_left_eq] at hletters
      rw [Nat.repr_inj.mp (String.toList_injective hletters)]
    | code _ | tableEntry _ _ => simp [text, String.toList_append] at hletters
  | code number =>
    cases second with
    | code other =>
      simp only [text, String.toList_append, List.append_cancel_left_eq] at hletters
      rw [Nat.repr_inj.mp (String.toList_injective hletters)]
    | entrypoint _ | tableEntry _ _ => simp [text, String.toList_append] at hletters
  | tableEntry table index =>
    cases second with
    | tableEntry other place =>
      simp only [text, String.toList_append, List.append_assoc, List.append_cancel_left_eq]
        at hletters
      obtain ⟨htable, hindex⟩ := Text.append_cons_inj (Text.not_mem_toString index)
        (Text.not_mem_toString place) hletters
      rw [Text.hex_injective (String.toList_injective htable),
        Nat.repr_inj.mp (String.toList_injective hindex)]
    | entrypoint _ | code _ => simp [text, String.toList_append] at hletters

end ScriptDisassembler
