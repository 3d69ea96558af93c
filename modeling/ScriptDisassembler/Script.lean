import ScriptDisassembler.AddressSet
import ScriptDisassembler.Labels
import ScriptDisassembler.Token

/-!
A script under disassembly. Every word of the buffer is a slot, and a slot is claimed at
most once, by the number of the token that owns the word. Tokens are numbered in the order
in which they are made and are never changed. Beside them the script holds the names of
addresses and the sets of addresses found in each role.
-/

namespace ScriptDisassembler

structure Script where
  tokens : Array Token
  slots : Array (Option Nat)
  labels : Labels
  /-- Targets of the entrypoint words, in order. -/
  entrypoints : List Nat
  /-- Addresses at which a linear scan has begun. -/
  branches : AddressSet
  subroutines : AddressSet
  reentries : AddressSet
  jumpTables : AddressSet
  jumpDestinations : AddressSet
  subroutineTables : AddressSet
  subroutineDestinations : AddressSet
deriving DecidableEq

namespace Script

/-- A script of so many words about which nothing is known. -/
def blank (wordCount : Nat) : Script where
  tokens := #[]
  slots := Array.replicate wordCount none
  labels := .empty
  entrypoints := []
  branches := .empty
  subroutines := .empty
  reentries := .empty
  jumpTables := .empty
  jumpDestinations := .empty
  subroutineTables := .empty
  subroutineDestinations := .empty

def wordCount (script : Script) : Nat :=
  script.slots.size

/-- The number of the token that owns a slot. -/
def owner? (script : Script) (index : Nat) : Option Nat :=
  script.slots[index]?.join

def tokenAt? (script : Script) (index : Nat) : Option Token :=
  (script.owner? index).bind fun id => script.tokens[id]?

def isClaimed (script : Script) (index : Nat) : Bool :=
  (script.owner? index).isSome

/-- Whether a slot exists and nothing owns it. -/
def isFree (script : Script) (index : Nat) : Bool :=
  script.slots[index]? == some none

def isComplete (script : Script) : Bool :=
  script.slots.all Option.isSome

/-- The number of slots that nothing owns. -/
def unclaimed (script : Script) : Nat :=
  script.slots.countP Option.isNone

/-- Adds a token that owns no slot yet; its number is the number of tokens before it. -/
def push (script : Script) (token : Token) : Script :=
  { script with tokens := script.tokens.push token }

/-- Gives slots from `index` on to a token. -/
def fill (slots : Array (Option Nat)) (id index : Nat) : Nat → Array (Option Nat)
  | 0 => slots
  | count + 1 => fill (slots.setIfInBounds index (some id)) id (index + 1) count

/-- Whether so many slots from `index` on exist and are unclaimed. -/
def areFree (slots : Array (Option Nat)) (index : Nat) : Nat → Bool
  | 0 => index ≤ slots.size
  | count + 1 => slots[index]? == some none && areFree slots (index + 1) count

theorem getElem?_fill (slots : Array (Option Nat)) (id index count i : Nat) :
    (fill slots id index count)[i]? =
      if index ≤ i ∧ i < index + count ∧ i < slots.size then some (some id) else slots[i]? := by
  induction count generalizing slots index with
  | zero =>
    have hnot : ¬ (index ≤ i ∧ i < index + 0 ∧ i < slots.size) := by omega
    simp only [fill, hnot, ↓reduceIte]
  | succ count ih =>
    simp only [fill, ih, Array.size_setIfInBounds, Array.getElem?_setIfInBounds]
    grind

theorem areFree_iff {slots : Array (Option Nat)} {index count : Nat} :
    areFree slots index count = true ↔
      index + count ≤ slots.size ∧ ∀ i, index ≤ i → i < index + count → slots[i]? = some none := by
  induction count generalizing index with
  | zero =>
    simp only [areFree, decide_eq_true_eq, Nat.add_zero]
    exact ⟨fun h => ⟨h, fun i _ _ => by omega⟩, fun h => h.1⟩
  | succ count ih =>
    simp only [areFree, Bool.and_eq_true, beq_iff_eq, ih]
    constructor
    · rintro ⟨hfirst, hsize, hrest⟩
      refine ⟨by omega, fun i hle hlt => ?_⟩
      rcases Nat.eq_or_lt_of_le hle with rfl | hlt'
      · exact hfirst
      · exact hrest i hlt' (by omega)
    · rintro ⟨hsize, hall⟩
      exact ⟨hall index (Nat.le_refl _) (by omega), by omega,
        fun i hle hlt => hall i (by omega) (by omega)⟩

/-- A claim succeeds only if every slot it asks for is free. -/
def claim? (script : Script) (index count id : Nat) : Option Script :=
  if areFree script.slots index count then
    some { script with slots := fill script.slots id index count }
  else
    none

/-- Adds a token and lets it claim the slots at its offset. A refused claim leaves a token
that owns nothing. -/
def place (script : Script) (token : Token) : Script :=
  let pushed := script.push token
  (pushed.claim? (token.offset / 4) token.width script.tokens.size).getD pushed

def addLabel (script : Script) (address : Nat) (make : Nat → String) : String × Script :=
  let (name, labels) := script.labels.add address make
  (name, { script with labels })

/-- The tokens that own slots, by ascending offset, each once. -/
def entries (script : Script) : List Token :=
  script.slots.toList.zipIdx.filterMap fun (owner, index) =>
    match owner.bind fun id => script.tokens[id]? with
    | some token => if token.offset / 4 = index then some token else none
    | none => none

def instructions (script : Script) : List Instruction :=
  script.entries.filterMap fun
    | .instruction i => some i
    | _ => none

end Script

end ScriptDisassembler
