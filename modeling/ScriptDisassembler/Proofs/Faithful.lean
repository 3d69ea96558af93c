import ScriptDisassembler.Proofs.Displacements

/-!
The tokens of a script keep what was read. A word of data and an entrypoint have the word at
their offset, a table has the destinations that its words lead to, and every operand is one
of an instruction, some places before it among the tokens. Together with the instructions,
which are decoded at their offsets, this leaves nothing in the buffer that a token does not
tell.
-/

namespace ScriptDisassembler

variable {buffer : Buffer} {signatures : Signatures}

namespace Token

def IsOperand : Token → Prop
  | operand _ => True
  | instruction _ | data _ _ | entrypoint _ _ _ | table _ => False

/-- A token that is neither an instruction nor an operand is what the buffer says. -/
def Reads (buffer : Buffer) : Token → Prop
  | instruction _ | operand _ => True
  | data offset value => buffer.wordAt offset = .ok value
  | entrypoint offset target _ => ∃ word, buffer.wordAt offset = .ok word ∧ target = word.toNat
  | table t => Displaced buffer t.offset t.destinations

end Token

namespace Script

structure Faithful (buffer : Buffer) (script : Script) : Prop where
  belongs : ∀ {id : Nat} {operand : Operand}, script.tokens[id]? = some (.operand operand) →
    ∃ first instruction place, id = first + 1 + place ∧
      script.tokens[first]? = some (.instruction instruction) ∧
      instruction.operands[place]? = some operand
  reads : ∀ token ∈ script.tokens, token.Reads buffer

namespace Faithful

variable {script : Script}

theorem blank (buffer : Buffer) (count : Nat) : (Script.blank count).Faithful buffer := by
  constructor
  · intro id operand htoken
    simp [Script.blank] at htoken
  · intro token hmem
    simp [Script.blank] at hmem

theorem congr {other : Script} (h : script.Faithful buffer)
    (htokens : other.tokens = script.tokens) : other.Faithful buffer := by
  constructor
  · rw [htokens]
    exact h.belongs
  · rw [htokens]
    exact h.reads

theorem place {token : Token} (h : script.Faithful buffer) (hkind : ¬ token.IsOperand)
    (hreads : token.Reads buffer) : (script.place token).Faithful buffer := by
  constructor
  · intro id operand htoken
    rcases eq_or_of_place htoken with ⟨-, rfl⟩ | hold
    · exact absurd trivial hkind
    · obtain ⟨first, instruction, place, hid, hfirst, hplace⟩ := h.belongs hold
      exact ⟨first, instruction, place, hid, getElem?_place hfirst, hplace⟩
  · intro other hmem
    rw [tokens_place, Array.mem_push] at hmem
    rcases hmem with hold | rfl
    · exact h.reads other hold
    · exact hreads

theorem claimInstruction {instruction : Instruction} {entered : Script}
    (h : script.Faithful buffer) (hclaim : script.claimInstruction instruction = .ok entered) :
    entered.Faithful buffer := by
  have hextends := Extends.claimInstruction hclaim
  obtain ⟨named, hbare, htokens⟩ := mem_tokens_claimInstruction hclaim
  constructor
  · intro id operand htoken
    rcases Nat.lt_or_ge id script.tokens.size with hlt | hge
    · -- A token that was there before is still the same.
      have hold := hextends.token (Array.getElem?_eq_getElem hlt)
      rw [htoken, Option.some.injEq] at hold
      have hbefore : script.tokens[id]? = some (.operand operand) := by
        rw [hold, Array.getElem?_eq_getElem hlt]
      obtain ⟨first, owner, place, hid, hfirst, hplace⟩ := h.belongs hbefore
      exact ⟨first, owner, place, hid, hextends.token hfirst, hplace⟩
    · obtain ⟨entry, slots, labels, -, heq⟩ := claimInstruction_eq hclaim
      rw [heq] at htoken ⊢
      dsimp only at htoken ⊢
      rw [Array.getElem?_append_right hge, List.getElem?_toArray] at htoken
      obtain ⟨place, hid⟩ := Nat.exists_eq_add_of_le hge
      rw [hid, Nat.add_sub_cancel_left] at htoken
      cases place with
      | zero => simp at htoken
      | succ place =>
        rw [List.getElem?_cons_succ, List.getElem?_map, Option.map_eq_some_iff] at htoken
        obtain ⟨other, hplace, hother⟩ := htoken
        cases hother
        refine ⟨script.tokens.size, entry, place, by omega, ?_, hplace⟩
        rw [Array.getElem?_append_right (Nat.le_refl _), Nat.sub_self]
        rfl
  · intro token hmem
    rcases (htokens token).mp hmem with hold | rfl | ⟨operand, -, rfl⟩
    · exact h.reads token hold
    · trivial
    · trivial

theorem places {task : Task} {after : Script} (h : script.Faithful buffer)
    (hdisplaced : task.Displaced buffer) (hplaces : task.Places buffer script after) :
    after.Faithful buffer := by
  cases hplaces with
  | nothing hsame => exact h.congr hsame.tokens
  | instruction hdecode hclaim hsame => exact (h.claimInstruction hclaim).congr hsame.tokens
  | @table kind table found =>
    have hnamed : ({ script with
        labels := (labelDestinations table 0 found script.labels).2 } : Script).Faithful buffer :=
      h.congr rfl
    exact hnamed.place (fun hoperand => hoperand) hdisplaced

theorem found {limit : Nat} {found : Script}
    (hfound : findEntrypoints buffer limit 0 (.blank buffer.wordCount) = .ok found) :
    found.Faithful buffer := by
  have hinvariant := findEntrypoints_induction (fun _ script => script.Faithful buffer) ?_
    (blank buffer _) hfound
  · obtain ⟨-, hfaithful⟩ := hinvariant
    exact hfaithful
  · intro index target word script hword htarget h
    have hoffset := Buffer.wordOffset?_of_headerOffset? htarget
    have heq := (Buffer.wordOffset?_eq_some.mp hoffset).1
    have hnamed : ({ script with
        labels := (script.labels.add target fun _ => (Label.entrypoint index).text).2
        entrypoints := script.entrypoints ++ [target] } : Script).Faithful buffer :=
      h.congr rfl
    exact hnamed.place (fun hoperand => hoperand) ⟨word, hword, by omega⟩

theorem filled {count : Nat} {filled : Script} (h : script.Faithful buffer)
    (hfilled : fillGaps buffer count 0 script = .ok filled) : filled.Faithful buffer := by
  refine fillGaps_induction (fun _ script => script.Faithful buffer) ?_ ?_ h hfilled
  · intro index script hclaimed h
    exact h
  · intro index word script hunclaimed hword h
    exact h.place (fun hoperand => hoperand) hword

end Faithful

end Script

theorem Exploring.faithful {tasks : List Task} {survey : Survey}
    (h : Exploring buffer signatures tasks survey) : survey.script.Faithful buffer := by
  induction h with
  | start hfound => exact .found hfound
  | step hbefore hperform ih =>
    exact ih.places (hbefore.displaced _ List.mem_cons_self)
      (Task.performs_of_perform hperform).places

theorem faithful_of_disassemble {bytes : List UInt8} {script : Script}
    (h : disassemble bytes signatures = .ok script) : script.Faithful (.ofBytes bytes) := by
  rcases trace_cases bytes signatures with ⟨explored, filled, hend, hfilled, htrace⟩ |
    ⟨task, rest, survey, explored, fault, -, -, htrace⟩
  · simp only [disassemble, htrace, Except.ok.injEq] at h
    rw [← h]
    exact hend.faithful.filled hfilled
  · simp only [disassemble, htrace, reduceCtorEq] at h

end ScriptDisassembler
