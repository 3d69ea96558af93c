import ScriptDisassembler.Text.Hex

/-!
Names for addresses. An address that has a name keeps it; a new name may be made from the
number of names given out before. The names are listed by ascending address.
-/

namespace ScriptDisassembler

/-- The spellings of the names that a disassembly gives out. -/
inductive Label where
  /-- The target of an entrypoint is named for the entrypoint's place. -/
  | entrypoint (index : Nat)
  /-- An address that an operand denotes is named by the number of names before it. -/
  | code (number : Nat)
  /-- A destination in a table is named for the table's address and its place there. -/
  | tableEntry (table index : Nat)
deriving DecidableEq

namespace Label

def text : Label → String
  | entrypoint index => "ENTRYPOINT_" ++ toString index
  | code number => "LABEL_" ++ toString number
  | tableEntry table index => "JMP_" ++ Text.hex table ++ "_" ++ toString index

end Label

structure Labels where
  entries : List (Nat × String)
  /-- The number of names given out. -/
  count : Nat
deriving DecidableEq

namespace Labels

def empty : Labels :=
  ⟨[], 0⟩

def find? (labels : Labels) (address : Nat) : Option String :=
  labels.entries.lookup address

/-- Puts a named address before the first higher one. -/
def insertInto (address : Nat) (name : String) : List (Nat × String) → List (Nat × String)
  | [] => [(address, name)]
  | head :: tail =>
    if address < head.1 then
      (address, name) :: head :: tail
    else
      head :: insertInto address name tail

/-- The name of an address, which is made and entered if the address has none. -/
def add (labels : Labels) (address : Nat) (make : Nat → String) : String × Labels :=
  match labels.find? address with
  | some name => (name, labels)
  | none =>
    let name := make labels.count
    (name, ⟨insertInto address name labels.entries, labels.count + 1⟩)

theorem lookup_insertInto {address other : Nat} {name : String} {entries : List (Nat × String)}
    (h : entries.lookup address = none) :
    (insertInto address name entries).lookup other =
      if other = address then some name else entries.lookup other := by
  induction entries with
  | nil =>
    by_cases hother : other = address
    · simp [insertInto, hother]
    · simp [insertInto, List.lookup_cons, hother, beq_eq_false_iff_ne.mpr hother]
  | cons head tail ih =>
    obtain ⟨key, value⟩ := head
    simp only [insertInto]
    split
    · by_cases hother : other = address
      · simp [hother]
      · simp [List.lookup_cons, hother, beq_eq_false_iff_ne.mpr hother]
    · have hkey : address ≠ key := by
        rintro rfl
        simp at h
      have htail : tail.lookup address = none := by
        simpa [List.lookup_cons, beq_eq_false_iff_ne.mpr hkey] using h
      by_cases hother : other = key
      · simp [hother, Ne.symm hkey]
      · simp [List.lookup_cons, beq_eq_false_iff_ne.mpr hother, ih htail]

/-- After an addition the address has the name that was handed back, and all others have
the names they had. -/
theorem find?_add (labels : Labels) (address other : Nat) (make : Nat → String) :
    (labels.add address make).2.find? other =
      if other = address then some (labels.add address make).1 else labels.find? other := by
  simp only [add]
  split
  · next name h =>
    split
    · next heq => rw [heq, h]
    · rfl
  · next h => exact lookup_insertInto h

end Labels

end ScriptDisassembler
