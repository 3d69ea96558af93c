import Mathlib.Data.List.DropRight
import ScriptDisassembler.Text.Blank

/-!
Texts without the blanks at their ends. Blanks that are added at an end are taken off again, and
blanks are taken off up to the first character that is none, so what stands behind such a character
has no part in what is taken off before it.
-/

namespace ScriptDisassembler.Text

theorem trim_eq_rdropWhile (text : List Char) :
    trim text = (text.dropWhile isBlank).rdropWhile isBlank := rfl

theorem trim_blanks_append {front : List Char} (h : ∀ c ∈ front, isBlank c = true)
    (text : List Char) : trim (front ++ text) = trim text := by
  rw [trim, List.dropWhile_append_of_pos h, ← trim]

theorem rdropWhile_append_blanks {back : List Char} (h : ∀ c ∈ back, isBlank c = true)
    (text : List Char) : (text ++ back).rdropWhile isBlank = text.rdropWhile isBlank := by
  have hback : ∀ c ∈ back.reverse, isBlank c = true := fun c hc => h c (List.mem_reverse.mp hc)
  rw [List.rdropWhile, List.reverse_append, List.dropWhile_append_of_pos hback, ← List.rdropWhile]

theorem trim_append_blanks {back : List Char} (h : ∀ c ∈ back, isBlank c = true)
    (text : List Char) : trim (text ++ back) = trim text := by
  rw [trim_eq_rdropWhile, trim_eq_rdropWhile, List.dropWhile_append]
  split
  · next hempty =>
    have hback : back.dropWhile isBlank = [] := List.dropWhile_eq_nil_iff.mpr h
    rw [hback, List.isEmpty_iff.mp hempty]
  · exact rdropWhile_append_blanks h _

/-- Blanks are taken away up to a character that is none. -/
theorem dropWhile_append_cons {mark : Char} (h : isBlank mark = false) (front back : List Char) :
    (front ++ mark :: back).dropWhile isBlank = front.dropWhile isBlank ++ mark :: back := by
  rw [List.dropWhile_append]
  split
  · next hempty =>
    rw [List.isEmpty_iff.mp hempty, List.dropWhile_cons_of_neg (by rw [h]; decide)]
    rfl
  · rfl

theorem rdropWhile_append_cons {mark : Char} (h : isBlank mark = false) (front back : List Char) :
    (front ++ mark :: back).rdropWhile isBlank = front ++ mark :: back.rdropWhile isBlank := by
  have hreverse : (front ++ mark :: back).reverse = back.reverse ++ mark :: front.reverse := by
    simp
  rw [List.rdropWhile, hreverse, dropWhile_append_cons h, List.rdropWhile]
  simp

theorem trim_append_cons {mark : Char} (h : isBlank mark = false) (front back : List Char) :
    trim (front ++ mark :: back) =
      front.dropWhile isBlank ++ mark :: back.rdropWhile isBlank := by
  rw [trim_eq_rdropWhile, dropWhile_append_cons h, rdropWhile_append_cons h]

theorem trim_dropWhile (text : List Char) : trim (text.dropWhile isBlank) = trim text := by
  rw [trim, List.dropWhile_idempotent, ← trim]

theorem trim_rdropWhile (text : List Char) : trim (text.rdropWhile isBlank) = trim text := by
  have hblank : ∀ c ∈ text.rtakeWhile isBlank, isBlank c = true :=
    fun c hc => List.mem_rtakeWhile_imp hc
  have hsplit : text.rdropWhile isBlank ++ text.rtakeWhile isBlank = text := by
    rw [List.rdropWhile, List.rtakeWhile, ← List.reverse_append, List.takeWhile_append_dropWhile,
      List.reverse_reverse]
  rw [← trim_append_blanks hblank (text.rdropWhile isBlank), hsplit]

/-- A text whose ends are no blanks is left as it is. -/
theorem trim_eq_self {text : List Char} (hfirst : ∀ c ∈ text.head?, isBlank c = false)
    (hlast : ∀ c ∈ text.getLast?, isBlank c = false) : trim text = text := by
  have hdrop : ∀ {text : List Char}, (∀ c ∈ text.head?, isBlank c = false) →
      text.dropWhile isBlank = text := by
    intro text h
    cases text with
    | nil => rfl
    | cons c rest => exact List.dropWhile_cons_of_neg (by rw [h c rfl]; decide)
  have hback : text.reverse.dropWhile isBlank = text.reverse := by
    apply hdrop
    rw [List.head?_reverse]
    exact hlast
  rw [trim, hdrop hfirst, hback, List.reverse_reverse]

end ScriptDisassembler.Text
