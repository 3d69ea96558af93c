import Mathlib
import ScriptDisassembler.Text.Hex

/-!
Texts by lines. A text that is put together from lines is taken apart into the same lines, if no
line has a break in it; numerals have none.
-/

namespace ScriptDisassembler

namespace Text

/-- The text has no line break. -/
def OneLine (text : String) : Prop :=
  '\n' ∉ text.toList

instance : DecidablePred OneLine := fun _ =>
  inferInstanceAs (Decidable (_ ∉ _))

theorem notMem_append {c : Char} {front back : String} (hfront : c ∉ front.toList)
    (hback : c ∉ back.toList) : c ∉ (front ++ back).toList := by
  rw [String.toList_append, List.mem_append, not_or]
  exact ⟨hfront, hback⟩

theorem OneLine.append {front back : String} (hfront : OneLine front) (hback : OneLine back) :
    OneLine (front ++ back) :=
  notMem_append hfront hback

theorem oneLine_join {texts : List String} (h : ∀ text ∈ texts, OneLine text) :
    OneLine (String.join texts) := by
  unfold OneLine
  rw [String.toList_join, List.mem_flatMap]
  rintro ⟨text, hmem, hbreak⟩
  exact h text hmem hbreak

theorem oneLine_intercalate {separator : String} {texts : List String}
    (hseparator : OneLine separator) (h : ∀ text ∈ texts, OneLine text) :
    OneLine (separator.intercalate texts) := by
  induction texts with
  | nil => exact List.not_mem_nil
  | cons first rest ih =>
    obtain ⟨hfirst, hrest⟩ := List.forall_mem_cons.mp h
    cases rest with
    | nil =>
      rw [String.intercalate_singleton]
      exact hfirst
    | cons second rest =>
      rw [String.intercalate_cons_cons]
      exact (hfirst.append hseparator).append (ih hrest)

/-- The digits of hexadecimal numerals, as they are written. -/
def hexDigits : List Char :=
  "0123456789abcdef".toList

theorem mem_hexDigits_of_mem_toDigits {n : Nat} {digit : Char} (h : digit ∈ Nat.toDigits 16 n) :
    digit ∈ hexDigits := by
  have hdigit : ∀ n : Fin 16, n.val.digitChar ∈ hexDigits := by decide
  induction n using Nat.strongRecOn with
  | ind n ih =>
    rcases Nat.lt_or_ge n 16 with hlt | hge
    · rw [Nat.toDigits_of_lt_base hlt, List.mem_singleton] at h
      rw [h]
      exact hdigit ⟨n, hlt⟩
    · rw [Nat.toDigits_of_base_le (by omega) hge, List.mem_append, List.mem_singleton] at h
      rcases h with hfront | rfl
      · exact ih (n / 16) (by omega) hfront
      · exact hdigit ⟨n % 16, Nat.mod_lt n (by omega)⟩

theorem mem_hexDigits_of_mem_hexPadded {width n : Nat} {digit : Char}
    (h : digit ∈ (hexPadded width n).toList) : digit ∈ hexDigits := by
  rw [hexPadded, String.toList_ofList, List.leftpad, List.mem_append] at h
  rcases h with hzero | hdigit
  · rw [List.eq_of_mem_replicate hzero]
    decide
  · exact mem_hexDigits_of_mem_toDigits hdigit

theorem oneLine_hex (n : Nat) : OneLine (hex n) := by
  intro hbreak
  rw [hex, String.toList_ofList] at hbreak
  exact absurd (mem_hexDigits_of_mem_toDigits hbreak) (by decide)

theorem oneLine_hexPadded (width n : Nat) : OneLine (hexPadded width n) :=
  fun hbreak => absurd (mem_hexDigits_of_mem_hexPadded hbreak) (by decide)

/-- A decimal numeral has digits only. -/
theorem notMem_toString {c : Char} (h : c.isDigit = false) (n : Nat) : c ∉ (toString n).toList := by
  intro hmem
  rw [Nat.toString_eq_ofList_toDigits, String.toList_ofList] at hmem
  rw [Nat.isDigit_of_mem_toDigits (by omega) (by omega) hmem] at h
  cases h

theorem oneLine_toString (n : Nat) : OneLine (toString n) :=
  notMem_toString (by decide) n

theorem exists_head?_hexPadded {width n : Nat} (hwidth : 0 < width) :
    ∃ digit ∈ hexDigits, (hexPadded width n).toList.head? = some digit := by
  have hlength : 0 < (hexPadded width n).toList.length := by
    rw [hexPadded, String.toList_ofList, List.length_leftpad]
    omega
  obtain ⟨digit, rest, heq⟩ := List.exists_cons_of_length_pos hlength
  refine ⟨digit, mem_hexDigits_of_mem_hexPadded (heq ▸ List.mem_cons_self), ?_⟩
  rw [heq, List.head?_cons]

/-- The text that has some lines, each of which ends with a break. -/
def unlines (texts : List String) : String :=
  String.join (texts.map (· ++ "\n"))

@[simp] theorem unlines_nil : unlines [] = "" := rfl

theorem unlines_cons (text : String) (texts : List String) :
    unlines (text :: texts) = text ++ "\n" ++ unlines texts := by
  rw [unlines, List.map_cons, String.join_cons, ← unlines]

theorem unlines_append (front back : List String) :
    unlines (front ++ back) = unlines front ++ unlines back := by
  rw [unlines, List.map_append, String.join_append, ← unlines, ← unlines]

/-- The lines of a text; after the last line break there is one more, which may be empty. -/
def lines (text : String) : List String :=
  (text.toList.splitOn '\n').map String.ofList

theorem toList_unlines (texts : List String) :
    (unlines texts).toList = ['\n'].intercalate ((texts ++ [""]).map String.toList) := by
  induction texts with
  | nil => rfl
  | cons text rest ih =>
    have hrest : (rest ++ [""]).map String.toList ≠ [] := by simp
    rw [unlines_cons, String.toList_append, String.toList_append, ih, List.cons_append,
      List.map_cons, List.intercalate_cons_of_ne_nil hrest]
    rfl

theorem lines_unlines {texts : List String} (h : ∀ text ∈ texts, OneLine text) :
    lines (unlines texts) = texts ++ [""] := by
  have hbreaks : ∀ line ∈ (texts ++ [""]).map String.toList, '\n' ∉ line := by
    intro line hline
    obtain ⟨text, htext, rfl⟩ := List.mem_map.mp hline
    rcases List.mem_append.mp htext with hmem | hlast
    · exact h text hmem
    · rw [List.mem_singleton.mp hlast]
      exact List.not_mem_nil
  rw [lines, toList_unlines, List.splitOn_intercalate '\n' hbreaks (by simp), List.map_map]
  simp only [Function.comp_def, String.ofList_toList, List.map_id']

end Text

end ScriptDisassembler
