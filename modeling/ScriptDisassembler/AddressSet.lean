/-!
Finite sets of addresses, kept as strictly ascending lists, so that equal sets are equal
values and a set is listed in order.
-/

namespace ScriptDisassembler

structure AddressSet where
  toList : List Nat
  ascending : toList.Pairwise (· < ·)
deriving DecidableEq

namespace AddressSet

def empty : AddressSet :=
  ⟨[], .nil⟩

instance : Membership Nat AddressSet where
  mem set address := address ∈ set.toList

instance (address : Nat) (set : AddressSet) : Decidable (address ∈ set) :=
  inferInstanceAs (Decidable (address ∈ set.toList))

def size (set : AddressSet) : Nat :=
  set.toList.length

/-- Puts an address in its place among ascending ones, unless it is there already. -/
def insertInto (address : Nat) : List Nat → List Nat
  | [] => [address]
  | head :: tail =>
    if address < head then
      address :: head :: tail
    else if address = head then
      head :: tail
    else
      head :: insertInto address tail

theorem mem_insertInto {address other : Nat} {list : List Nat} :
    other ∈ insertInto address list ↔ other = address ∨ other ∈ list := by
  induction list with
  | nil => simp [insertInto]
  | cons head tail ih =>
    simp only [insertInto]
    split
    · simp
    · split
      · simp_all
      · simp only [List.mem_cons, ih]
        grind

theorem pairwise_insertInto {address : Nat} {list : List Nat}
    (h : list.Pairwise (· < ·)) : (insertInto address list).Pairwise (· < ·) := by
  induction list with
  | nil => simp [insertInto]
  | cons head tail ih =>
    have hhead := (List.pairwise_cons.mp h).1
    have htail := (List.pairwise_cons.mp h).2
    simp only [insertInto]
    split
    · refine List.pairwise_cons.mpr ⟨?_, h⟩
      intro other hother
      rcases List.mem_cons.mp hother with rfl | hmem
      · assumption
      · have := hhead other hmem
        omega
    · split
      · exact h
      · refine List.pairwise_cons.mpr ⟨?_, ih htail⟩
        intro other hother
        rcases mem_insertInto.mp hother with rfl | hmem
        · omega
        · exact hhead other hmem

def insert (set : AddressSet) (address : Nat) : AddressSet :=
  ⟨insertInto address set.toList, pairwise_insertInto set.ascending⟩

@[simp] theorem not_mem_empty (address : Nat) : address ∉ empty :=
  List.not_mem_nil

@[simp] theorem mem_insert {address other : Nat} {set : AddressSet} :
    other ∈ set.insert address ↔ other = address ∨ other ∈ set :=
  mem_insertInto

end AddressSet

end ScriptDisassembler
