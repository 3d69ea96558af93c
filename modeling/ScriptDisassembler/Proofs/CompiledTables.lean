import Mathlib
import ScriptDisassembler.Proofs.Lookup

/-!
The tables that are compiled from texts of definitions. The definitions are those of the lines, in
order. Their codes are bytes and all different, since the second of two definitions with one code
is refused; and there are so few of them that no place is the one that stands for none. So what is
looked up is the definition with that code, wherever there is one.
-/

namespace ScriptDisassembler.Definitions

/-- The definition on a line that has no fault. -/
def definition? {α : Type} (ofLine : List Char → Except Fault (Option α)) (line : List Char) :
    Option α :=
  match ofLine line with
  | .ok found => found
  | .error _ => none

/-- The text has no fault, and these are the definitions on its lines. -/
structure Defines {α : Type} (ofLine : List Char → Except Fault (Option α)) (text : String)
    (definitions : List α) : Prop where
  sound : ∀ line ∈ linesOf text.toList, ∃ found, ofLine line = .ok found
  definitions_eq : definitions = (linesOf text.toList).filterMap (definition? ofLine)

section

variable {α : Type} {ofLine : List Char → Except Fault (Option α)} {text : String}

/-- Every definition is that of a line. -/
theorem Defines.exists_line {definitions : List α} {definition : α}
    (h : Defines ofLine text definitions) (hmem : definition ∈ definitions) :
    ∃ line ∈ linesOf text.toList, ofLine line = .ok (some definition) := by
  rw [h.definitions_eq, List.mem_filterMap] at hmem
  obtain ⟨line, hline, hdefinition⟩ := hmem
  obtain ⟨found, hfound⟩ := h.sound line hline
  refine ⟨line, hline, ?_⟩
  rw [definition?, hfound] at hdefinition
  rw [hfound]
  exact congrArg Except.ok hdefinition

end

/-! The definition on a line. -/

theorem encodingOfLine_ok {line : List Char} {definition : EncodingDefinition}
    (h : encodingOfLine line = .ok (some definition)) :
    ∃ id code width kind, fields? "PARAM".toList line = some [id, code, width, kind] ∧
      byteField code = .ok definition.code ∧ byteField width = .ok definition.width ∧
      kindOfField? kind = some definition.kind ∧ definition.id = String.ofList id ∧
      1 ≤ definition.width ∧ definition.width ≤ 3 := by
  unfold encodingOfLine at h
  split at h
  · next id code width kind hfields =>
    simp only [bind, Except.bind, pure, Except.pure, throw, throwThe, MonadExceptOf.throw] at h
    split at h
    · cases h
    · next number hcode =>
      split at h
      · cases h
      · next words hwidth =>
        split at h
        · cases h
        · next hinside =>
          obtain ⟨hlow, hhigh⟩ := not_or.mp hinside
          split at h
          · cases h
          · next kind hkind =>
            cases h
            exact ⟨id, code, width, _, hfields, hcode, hwidth, hkind, rfl, Nat.le_of_not_lt hlow,
              Nat.le_of_not_lt hhigh⟩
  · cases h

/-- Looking a code up by way of an index finds the definition with that code. -/
structure Lookup {α : Type} (codeOf : α → Nat) (definitions : List α) (index : Array Nat) :
    Prop where
  size_eq : index.size = 256
  /-- No definition has the place that stands for none. -/
  few : definitions.length < absent
  bytes : ∀ definition ∈ definitions, codeOf definition < 256
  distinct : (definitions.map codeOf).Nodup
  inRange : ∀ code < 256, InRange index definitions.length code
  found : ∀ code < 256, ∀ definition, Tables.look? index definitions code = some definition ↔
    definition ∈ definitions ∧ codeOf definition = code
  placed : ∀ place definition, definitions[place]? = some definition →
    index[codeOf definition]? = some place ∧
      Tables.look? index definitions (codeOf definition) = some definition

namespace Indexes

variable {codes : List Nat} {index : Array Nat}

theorem lt_of_mem {code : Nat} (h : Indexes codes index) (hmem : code ∈ codes) : code < 256 := by
  obtain ⟨place, hplace⟩ := List.mem_iff_getElem?.mp hmem
  rw [← h.size_eq]
  exact (Array.getElem?_eq_some_iff.mp (h.place hplace)).1

theorem nodup (h : Indexes codes index) : codes.Nodup := by
  rw [List.nodup_iff_injective_getElem]
  intro first second heq
  have hfirst := h.place (List.getElem?_eq_getElem first.isLt)
  have hsecond := h.place (List.getElem?_eq_getElem second.isLt)
  simp only at heq
  rw [heq, hsecond, Option.some.injEq] at hfirst
  exact Fin.ext hfirst.symm

/-- Where codes are all different, a search finds the definition with a code, whichever it is. -/
theorem find?_eq_some_iff_of_nodup {α : Type} {codeOf : α → Nat} {definitions : List α}
    {code : Nat} {definition : α} (h : (definitions.map codeOf).Nodup) :
    (definitions.find? fun other => codeOf other == code) = some definition ↔
      definition ∈ definitions ∧ codeOf definition = code := by
  constructor
  · intro hfound
    exact ⟨List.mem_of_find?_eq_some hfound, by simpa using List.find?_some hfound⟩
  · rintro ⟨hmem, rfl⟩
    cases hfound : definitions.find? fun other => codeOf other == codeOf definition with
    | none => exact absurd (beq_self_eq_true _) (List.find?_eq_none.mp hfound definition hmem)
    | some other =>
      have hcodeOf : codeOf other = codeOf definition := by simpa using List.find?_some hfound
      have hother := List.mem_of_find?_eq_some hfound
      rw [List.inj_on_of_nodup_map h hother hmem hcodeOf]

theorem lookup {α : Type} {codeOf : α → Nat} {definitions : List α}
    (h : Indexes (definitions.map codeOf) index) : Lookup codeOf definitions index := by
  have hlength := h.length_lt
  rw [List.length_map] at hlength
  have hfind : ∀ code < 256, ∀ definition,
      Tables.look? index definitions code = some definition ↔
        definition ∈ definitions ∧ codeOf definition = code := by
    intro code hcode definition
    rw [Tables.look?_eq_find? h hcode, find?_eq_some_iff_of_nodup h.nodup]
  have hbytes : ∀ definition ∈ definitions, codeOf definition < 256 :=
    fun definition hmem => h.lt_of_mem (List.mem_map_of_mem hmem)
  constructor
  case size_eq => exact h.size_eq
  case few => exact hlength
  case bytes => exact hbytes
  case distinct => exact h.nodup
  case inRange =>
    intro code hcode
    have hrange := h.inRange hcode
    rwa [List.length_map] at hrange
  case found => exact hfind
  case placed =>
    intro place definition hplace
    have hmem := List.mem_of_getElem? hplace
    refine ⟨h.place ?_, (hfind _ (hbytes definition hmem) definition).mpr ⟨hmem, rfl⟩⟩
    rw [List.getElem?_map, hplace, Option.map_some]

end Indexes

/-- An encoding is of one to three words. -/
theorem Defines.width {encodingText : String} {encodings : List EncodingDefinition}
    {definition : EncodingDefinition} (h : Defines encodingOfLine encodingText encodings)
    (hmem : definition ∈ encodings) : 1 ≤ definition.width ∧ definition.width ≤ 3 := by
  obtain ⟨line, _, hline⟩ := h.exists_line hmem
  obtain ⟨_, _, _, _, _, _, _, _, _, hbounds⟩ := encodingOfLine_ok hline
  exact hbounds

end ScriptDisassembler.Definitions
