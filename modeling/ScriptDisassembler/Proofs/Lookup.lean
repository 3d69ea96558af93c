import ScriptDisassembler.Definitions.Compile
import ScriptDisassembler.Proofs.Decoding

/-!
Looking a code up by way of an index finds the one definition of that code. An index that
has been entered in full holds for every byte the place of the definition with that code, or
the place that stands for none, and no place in it is beyond the last definition. For the
definitions of the instruction set this comes to the search through all of them.
-/

namespace ScriptDisassembler

namespace Definitions

/-- An index agrees with the codes of the definitions, in order. -/
structure Indexes (codes : List Nat) (index : Array Nat) : Prop where
  size_eq : index.size = 256
  length_lt : codes.length < 255
  code : ∀ {place code : Nat}, index[code]? = some place → place ≠ absent →
    codes[place]? = some code
  place : ∀ {place code : Nat}, codes[place]? = some code → index[code]? = some place

namespace Indexes

theorem empty : Indexes [] (Array.replicate 256 absent) := by
  constructor
  · exact Array.size_replicate
  · decide
  · intro place code hplace hpresent
    rw [Array.getElem?_replicate] at hplace
    split at hplace
    · cases hplace
      exact absurd rfl hpresent
    · cases hplace
  · intro place code hcode
    cases hcode

/-- A code that has no place yet gets the next one. -/
theorem push {codes : List Nat} {index : Array Nat} {code : Nat} (h : Indexes codes index)
    (hlength : codes.length + 1 < 255) (hfree : index[code]? = some absent) :
    Indexes (codes ++ [code]) (index.setIfInBounds code codes.length) := by
  have hcode := (Array.getElem?_eq_some_iff.mp hfree).1
  constructor
  · rw [Array.size_setIfInBounds, h.size_eq]
  · rw [List.length_append, List.length_singleton]
    exact hlength
  · intro place other hplace hpresent
    rw [Array.getElem?_setIfInBounds] at hplace
    split at hplace
    · next heq =>
      cases hplace
      rw [List.getElem?_concat_length, heq]
    · have hold := h.code hplace hpresent
      have hlt := (List.getElem?_eq_some_iff.mp hold).1
      rw [List.getElem?_append_left hlt, hold]
  · intro place other hother
    rw [Array.getElem?_setIfInBounds]
    rcases Nat.lt_or_ge place codes.length with hlt | hge
    · rw [List.getElem?_append_left hlt] at hother
      have hold := h.place hother
      have hne : code ≠ other := by
        rintro rfl
        rw [hfree, Option.some.injEq] at hold
        unfold absent at hold
        omega
      rw [if_neg hne, hold]
    · have hlast : place = codes.length := by
        have hlt := (List.getElem?_eq_some_iff.mp hother).1
        rw [List.length_append, List.length_singleton] at hlt
        omega
      rw [hlast, List.getElem?_concat_length, Option.some.injEq] at hother
      rw [if_pos hother, if_pos hcode, hlast]

end Indexes

/-- The index has a place for a code, and no place beyond the last of so many definitions. -/
def InRange (index : Array Nat) (count code : Nat) : Prop :=
  ∃ place, index[code]? = some place ∧ (place = absent ∨ place < count)

theorem Indexes.inRange {codes : List Nat} {index : Array Nat} {code : Nat}
    (h : Indexes codes index) (hcode : code < 256) : InRange index codes.length code := by
  have hsize := h.size_eq
  have hplace : index[code]? = some index[code] := Array.getElem?_eq_getElem (by omega)
  refine ⟨index[code], hplace, ?_⟩
  by_cases habsent : index[code] = absent
  · exact .inl habsent
  · exact .inr (List.getElem?_eq_some_iff.mp (h.code hplace habsent)).1

theorem indexes_of_indexFrom {repeated : String → Fault} {front : List Nat}
    {codes : List (String × Nat)} {index entered : Array Nat} (h : Indexes front index)
    (hlength : front.length + codes.length < 255)
    (hentered : indexFrom repeated front.length codes index = .ok entered) :
    Indexes (front ++ codes.map Prod.snd) entered := by
  induction codes generalizing front index with
  | nil =>
    cases hentered
    rw [List.map_nil, List.append_nil]
    exact h
  | cons head rest ih =>
    obtain ⟨id, code⟩ := head
    simp only [List.length_cons] at hlength
    simp only [indexFrom] at hentered
    split at hentered
    · next hfree =>
      have hnext := h.push (by omega) hfree
      have hlast : front.length + 1 = (front ++ [code]).length := by
        rw [List.length_append, List.length_singleton]
      rw [hlast] at hentered
      have hrest := ih hnext (by omega) hentered
      rw [List.append_assoc] at hrest
      exact hrest
    · cases hentered

theorem indexes_of_indexOf {repeated : String → Fault} {codes : List (String × Nat)}
    {index : Array Nat} (hlength : codes.length < 255)
    (hindex : indexOf repeated codes = .ok index) : Indexes (codes.map Prod.snd) index :=
  indexes_of_indexFrom .empty (by simpa using hlength) hindex

/-- A byte that is no code has the place that stands for none. -/
theorem Indexes.absent_of_notMem {codes : List Nat} {index : Array Nat} {code : Nat}
    (h : Indexes codes index) (hcode : code < 256) (hnew : code ∉ codes) :
    index[code]? = some absent := by
  have hsize := h.size_eq
  have hplace : index[code]? = some index[code] := Array.getElem?_eq_getElem (by omega)
  by_cases habsent : index[code] = absent
  · rw [hplace, habsent]
  · exact absurd (List.mem_of_getElem? (h.code hplace habsent)) hnew

/-- Codes that are bytes and all different are entered. -/
theorem exists_indexFrom (repeated : String → Fault) {front : List Nat}
    {codes : List (String × Nat)} {index : Array Nat} (h : Indexes front index)
    (hlength : front.length + codes.length < 255) (hcodes : ∀ entry ∈ codes, entry.2 < 256)
    (hdistinct : (front ++ codes.map Prod.snd).Nodup) :
    ∃ entered, indexFrom repeated front.length codes index = .ok entered := by
  induction codes generalizing front index with
  | nil => exact ⟨index, rfl⟩
  | cons head rest ih =>
    obtain ⟨id, code⟩ := head
    obtain ⟨hcode, hrest⟩ := List.forall_mem_cons.mp hcodes
    simp only [List.length_cons] at hlength
    have hdistinct : (front ++ [code] ++ rest.map Prod.snd).Nodup := by
      rw [← List.append_cons]
      exact hdistinct
    have hnew : code ∉ front := by
      have hfront := (List.nodup_append.mp hdistinct).1
      intro hmem
      exact (List.nodup_append.mp hfront).2.2 code hmem code List.mem_cons_self rfl
    have hfree : index[code]? = some absent := h.absent_of_notMem hcode hnew
    have hnext := h.push (by omega) hfree
    have hlast : (front ++ [code]).length = front.length + 1 := by
      rw [List.length_append, List.length_singleton]
    obtain ⟨entered, hentered⟩ := ih hnext (by rw [hlast]; omega) hrest hdistinct
    rw [hlast] at hentered
    exact ⟨entered, by rw [indexFrom, if_pos hfree, hentered]⟩

theorem exists_indexOf (repeated : String → Fault) {codes : List (String × Nat)}
    (hlength : codes.length < 255) (hcodes : ∀ entry ∈ codes, entry.2 < 256)
    (hdistinct : (codes.map Prod.snd).Nodup) : ∃ index, indexOf repeated codes = .ok index :=
  exists_indexFrom repeated .empty (by simpa using hlength) hcodes hdistinct

namespace Tables

/-- The index leads to the definition that a search finds. -/
theorem look?_eq_find? {α : Type} {codeOf : α → Nat} {definitions : List α}
    {index : Array Nat} {code : Nat} (h : Indexes (definitions.map codeOf) index)
    (hcode : code < 256) :
    look? index definitions code =
      definitions.find? fun definition => codeOf definition == code := by
  have hsize := h.size_eq
  have hplace : index[code]? = some index[code] := Array.getElem?_eq_getElem (by omega)
  simp only [look?, hplace]
  split
  · next habsent =>
    rw [habsent] at hplace
    symm
    rw [List.find?_eq_none]
    intro definition hmem heq
    obtain ⟨place, hlt, rfl⟩ := List.mem_iff_getElem.mp hmem
    have hlength := h.length_lt
    rw [List.length_map] at hlength
    have hfound := @h.place place code (by
      rw [List.getElem?_map, List.getElem?_eq_getElem hlt, Option.map_some, beq_iff_eq.mp heq])
    rw [hplace, Option.some.injEq] at hfound
    unfold absent at hfound
    omega
  · next hpresent =>
    have hfound := h.code hplace hpresent
    rw [List.getElem?_map, Option.map_eq_some_iff] at hfound
    obtain ⟨definition, hdefinition, hcodeOf⟩ := hfound
    rw [hdefinition]
    symm
    rw [List.find?_eq_some_iff_getElem]
    obtain ⟨hlt, hget⟩ := List.getElem?_eq_some_iff.mp hdefinition
    refine ⟨beq_iff_eq.mpr hcodeOf, _, hlt, hget, ?_⟩
    intro earlier hearlier
    rw [Bool.not_eq_true', beq_eq_false_iff_ne]
    intro hsame
    have hother := @h.place earlier code (by
      rw [List.getElem?_map, List.getElem?_eq_getElem (by omega), Option.map_some, hsame])
    rw [hplace, Option.some.injEq] at hother
    omega

end Tables

/-- The tables agree with the definitions from which they were compiled. -/
theorem indexes_of_tablesOf {instructions : List InstructionDefinition}
    {encodings : List EncodingDefinition} {tables : Tables}
    (h : tablesOf instructions encodings = .ok tables) :
    tables.instructions = instructions ∧ tables.encodings = encodings ∧
      Indexes (instructions.map InstructionDefinition.code) tables.instructionIndex ∧
      Indexes (encodings.map EncodingDefinition.code) tables.encodingIndex := by
  simp only [tablesOf, bind, Except.bind, pure, Except.pure, throw, throwThe,
    MonadExceptOf.throw] at h
  split at h
  · next hfew =>
    split at h
    · next hfewEncodings =>
      split at h
      · cases h
      · next hinstructions =>
        split at h
        · cases h
        · next hencodings =>
          cases h
          have hindexes := indexes_of_indexOf (by rwa [List.length_map]) hinstructions
          have hencodingIndexes := indexes_of_indexOf (by rwa [List.length_map]) hencodings
          rw [List.map_map] at hindexes hencodingIndexes
          exact ⟨rfl, rfl, hindexes, hencodingIndexes⟩
    · cases h
  · cases h

/-- There are tables of definitions whose codes are bytes and all different. -/
theorem exists_tablesOf {instructions : List InstructionDefinition}
    {encodings : List EncodingDefinition} (hinstructions : instructions.length < 255)
    (hencodings : encodings.length < 255)
    (hcodes : ∀ definition ∈ instructions, definition.code < 256)
    (hencodingCodes : ∀ definition ∈ encodings, definition.code < 256)
    (hdistinct : (instructions.map InstructionDefinition.code).Nodup)
    (hencodingDistinct : (encodings.map EncodingDefinition.code).Nodup) :
    ∃ tables, tablesOf instructions encodings = .ok tables := by
  have hinstructionEntries : ∀ entry ∈ instructions.map fun d => (d.id, d.code), entry.2 < 256 :=
    List.forall_mem_map.mpr hcodes
  have hencodingEntries : ∀ entry ∈ encodings.map fun d => (d.id, d.code), entry.2 < 256 :=
    List.forall_mem_map.mpr hencodingCodes
  obtain ⟨index, hindex⟩ := exists_indexOf .repeatedInstruction (by rwa [List.length_map])
    hinstructionEntries (by rwa [List.map_map])
  obtain ⟨encodingIndex, hencodingIndex⟩ := exists_indexOf .repeatedEncoding
    (by rwa [List.length_map]) hencodingEntries (by rwa [List.map_map])
  refine ⟨⟨instructions, encodings, index, encodingIndex⟩, ?_⟩
  simp only [tablesOf, hinstructions, hencodings, hindex, hencodingIndex, bind, Except.bind, pure,
    Except.pure, ↓reduceIte]

end Definitions

open Definitions

/-- How an instruction is defined in the definition files. -/
def Opcode.definition (opcode : Opcode) : InstructionDefinition :=
  ⟨opcode.name, opcode.code, opcode.operands⟩

/-- How an encoding is defined in the definition files. -/
def Encoding.definition (encoding : Encoding) : EncodingDefinition :=
  ⟨encoding.name, encoding.code, encoding.width, encoding.entry.kind⟩

namespace Definitions

/-- The tables of the instruction set. -/
def catalog : Except Fault Tables :=
  tablesOf (Opcode.all.map Opcode.definition) (Encoding.all.map Encoding.definition)

end Definitions

end ScriptDisassembler
