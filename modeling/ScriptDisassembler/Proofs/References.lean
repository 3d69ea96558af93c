import Mathlib
import ScriptDisassembler.Proofs.Retention

/-!
The names of the addresses and the names that stand in the tokens agree. A token is given the
names of the addresses that it refers to when it is placed and is never changed, but neither
is a name: so at every later moment the token still has the names that the script has. And an
address gets a name only for a token that is placed, so an instruction that is not entered
leaves no name behind.
-/

namespace ScriptDisassembler

namespace Labels

/-- The address has a name. -/
def Names (labels : Labels) (address : Nat) : Prop :=
  ∃ name, labels.find? address = some name

variable {labels : Labels} {address other : Nat} {make : Nat → String}

theorem not_names_empty : ¬ empty.Names address := by
  intro hnames
  obtain ⟨name, hname⟩ := hnames
  simp [find?, empty] at hname

theorem find?_add_self (labels : Labels) (address : Nat) (make : Nat → String) :
    (labels.add address make).2.find? address = some (labels.add address make).1 := by
  rw [find?_add, if_pos rfl]

theorem names_add :
    (labels.add address make).2.Names other ↔ other = address ∨ labels.Names other := by
  unfold Names
  by_cases heq : other = address
  · subst heq
    simp [find?_add_self]
  · simp [find?_add, heq]

end Labels

/-- The name of an operand is that of the address which it denotes. -/
inductive Operand.Named (labels : Labels) (operand : Operand) : Prop
  | plain (haddress : operand.codeAddress? = none) (hlabel : operand.label = none)
  | code {address : Nat} {name : String} (haddress : operand.codeAddress? = some address)
      (hlabel : operand.label = some name) (hname : labels.find? address = some name)

namespace Token

/-- The names in a token are those of the addresses which it refers to. -/
def Named (labels : Labels) : Token → Prop
  | instruction i => ∀ operand ∈ i.operands, operand.Named labels
  | operand o => o.Named labels
  | data _ _ => True
  | entrypoint _ target label => labels.find? target = some label
  | table t => List.Forall₂ (fun destination label => labels.find? destination = some label)
      t.destinations t.labels

/-- The token refers to an address and so gives it a name. -/
def Refers (address : Nat) : Token → Prop
  | instruction i => ∃ operand ∈ i.operands, operand.codeAddress? = some address
  | operand _ | data _ _ => False
  | entrypoint _ target _ => address = target
  | table t => address ∈ t.destinations

end Token

section

variable {before after labels : Labels}

theorem Operand.Named.mono {operand : Operand} (hlabels : before.Extends after)
    (h : operand.Named before) : operand.Named after := by
  cases h with
  | plain haddress hlabel => exact .plain haddress hlabel
  | code haddress hlabel hname => exact .code haddress hlabel (hlabels.name hname)

theorem Token.Named.mono {token : Token} (hlabels : before.Extends after)
    (h : token.Named before) : token.Named after := by
  cases token with
  | instruction instruction =>
    intro operand hmem
    exact (h operand hmem).mono hlabels
  | operand operand => exact Operand.Named.mono hlabels h
  | data => trivial
  | entrypoint => exact hlabels.name h
  | table table => exact List.Forall₂.imp (fun _ _ hname => hlabels.name hname) h

end

namespace Script

theorem named_labelOperands {operands : List Operand} (labels : Labels)
    (hbare : ∀ operand ∈ operands, operand.label = none) :
    ∀ operand ∈ (labelOperands operands labels).1,
      operand.Named (labelOperands operands labels).2 := by
  induction operands generalizing labels with
  | nil => exact fun operand hmem => absurd hmem List.not_mem_nil
  | cons operand rest ih =>
    obtain ⟨hfirst, hrest⟩ := List.forall_mem_cons.mp hbare
    simp only [labelOperands]
    split
    · next hnone => exact List.forall_mem_cons.mpr ⟨.plain hnone hfirst, ih labels hrest⟩
    · next address hsome =>
      refine List.forall_mem_cons.mpr ⟨?_, ih _ hrest⟩
      have hname := labels.find?_add_self address fun number => (Label.code number).text
      exact .code hsome rfl ((Labels.Extends.labelOperands rest _).name hname)

theorem names_labelOperands {operands : List Operand} {labels : Labels} {address : Nat} :
    (labelOperands operands labels).2.Names address ↔ labels.Names address ∨
      ∃ operand ∈ (labelOperands operands labels).1, operand.codeAddress? = some address := by
  induction operands generalizing labels with
  | nil => simp [labelOperands]
  | cons operand rest ih =>
    simp only [labelOperands]
    split
    · next hnone => simp only [ih, List.mem_cons, exists_eq_or_imp, hnone, reduceCtorEq, false_or]
    · next target hsome =>
      have htarget : Operand.codeAddress?
          { operand with label := some (labels.add target fun number =>
            (Label.code number).text).1 } = some target := hsome
      simp only [ih, Labels.names_add, List.mem_cons, exists_eq_or_imp, htarget,
        Option.some.injEq, eq_comm, or_assoc, or_left_comm]

theorem named_labelDestinations (table place : Nat) (destinations : List Nat) (labels : Labels) :
    List.Forall₂ (fun destination name =>
        (labelDestinations table place destinations labels).2.find? destination = some name)
      destinations (labelDestinations table place destinations labels).1 := by
  induction destinations generalizing labels place with
  | nil => exact .nil
  | cons destination rest ih =>
    simp only [labelDestinations]
    refine .cons ?_ (ih _ _)
    exact (Labels.Extends.labelDestinations table (place + 1) rest _).name
      (labels.find?_add_self destination _)

theorem names_labelDestinations {table place : Nat} {destinations : List Nat} {labels : Labels}
    {address : Nat} :
    (labelDestinations table place destinations labels).2.Names address ↔
      labels.Names address ∨ address ∈ destinations := by
  induction destinations generalizing labels place with
  | nil => simp [labelDestinations]
  | cons destination rest ih =>
    simp only [labelDestinations, ih, Labels.names_add, List.mem_cons, or_assoc, or_left_comm]

theorem tokens_claimInstruction {script entered : Script} {instruction : Instruction}
    (h : script.claimInstruction instruction = .ok entered) :
    entered.tokens = script.tokens ++
      (Token.instruction { instruction with
          operands := (labelOperands instruction.operands script.labels).1 } ::
        (labelOperands instruction.operands script.labels).1.map Token.operand).toArray := by
  obtain ⟨-, -, rfl⟩ := claimInstruction_ok h
  obtain ⟨slots, -, heq⟩ := placeInstruction_eq
    { script with labels := (labelOperands instruction.operands script.labels).2 }
    { instruction with operands := (labelOperands instruction.operands script.labels).1 }
  rw [heq]

/-- The names in the tokens are those of the addresses, and the addresses with a name are
those to which a token refers. -/
structure Registered (script : Script) : Prop where
  named : ∀ token ∈ script.tokens, token.Named script.labels
  referred : ∀ {address : Nat}, script.labels.Names address ↔
    ∃ token ∈ script.tokens, token.Refers address

namespace Registered

variable {script after : Script}

theorem blank (wordCount : Nat) : (Script.blank wordCount).Registered := by
  constructor
  · intro token hmem
    simp [Script.blank] at hmem
  · intro address
    simp [Script.blank, Labels.not_names_empty]

/-- Tokens that have the names of the addresses which they refer to are added, and no other
address gets a name. -/
theorem append {added : List Token} (h : script.Registered)
    (htokens : ∀ token, token ∈ after.tokens ↔ token ∈ script.tokens ∨ token ∈ added)
    (hlabels : script.labels.Extends after.labels)
    (hnamed : ∀ token ∈ added, token.Named after.labels)
    (hnames : ∀ address, after.labels.Names address ↔
      script.labels.Names address ∨ ∃ token ∈ added, token.Refers address) :
    after.Registered := by
  constructor
  · intro token hmem
    rcases (htokens token).mp hmem with hold | hnew
    · exact (h.named token hold).mono hlabels
    · exact hnamed token hnew
  · intro address
    rw [hnames, h.referred]
    simp only [htokens, or_and_right, exists_or]

theorem sameImage (h : script.Registered) (hsame : script.SameImage after) :
    after.Registered := by
  constructor
  · rw [hsame.tokens, hsame.labels]
    exact h.named
  · rw [hsame.tokens, hsame.labels]
    exact h.referred

theorem claimInstruction {instruction : Instruction} (h : script.Registered)
    (hbare : instruction.bare = instruction)
    (hclaim : script.claimInstruction instruction = .ok after) : after.Registered := by
  have hnone : ∀ operand ∈ instruction.operands, operand.label = none := by
    rw [← hbare]
    intro operand hmem
    obtain ⟨bare, -, rfl⟩ := List.mem_map.mp hmem
    rfl
  have hlabels := labels_claimInstruction hclaim
  have hnamed := named_labelOperands script.labels hnone
  rw [← hlabels] at hnamed
  apply h.append
  · intro token
    rw [tokens_claimInstruction hclaim, Array.mem_append]
    exact or_congr_right List.mem_toArray
  · exact (Grows.claimInstruction hclaim).labels
  · refine List.forall_mem_cons.mpr ⟨hnamed, ?_⟩
    intro token hmem
    obtain ⟨operand, hoperand, rfl⟩ := List.mem_map.mp hmem
    exact hnamed operand hoperand
  · intro address
    rw [hlabels, names_labelOperands]
    simp [Token.Refers]

theorem placeTable (h : script.Registered) (table : Nat) (found : List Nat) :
    (script.placeTable table found).Registered := by
  have hlabels : (script.placeTable table found).labels =
      (labelDestinations table 0 found script.labels).2 := by
    rw [Script.placeTable, labels_place]
  apply h.append
  · intro token
    rw [Script.placeTable, tokens_place, Array.mem_push, ← List.mem_singleton]
  · exact (Grows.placeTable script table found).labels
  · rw [hlabels]
    exact List.forall_mem_singleton.mpr (named_labelDestinations table 0 found script.labels)
  · intro address
    rw [hlabels, names_labelDestinations]
    simp [Token.Refers]

theorem placeEntrypoint (h : script.Registered) (index target : Nat) :
    (script.placeEntrypoint index target).Registered := by
  have hlabels : (script.placeEntrypoint index target).labels =
      (script.labels.add target fun _ => (Label.entrypoint index).text).2 := by
    rw [Script.placeEntrypoint, labels_place]
  apply h.append
  · intro token
    rw [Script.placeEntrypoint, tokens_place, Array.mem_push, ← List.mem_singleton]
  · exact (Grows.placeEntrypoint script index target).labels
  · rw [hlabels]
    exact List.forall_mem_singleton.mpr (script.labels.find?_add_self target _)
  · intro address
    rw [hlabels, Labels.names_add, or_comm]
    simp [Token.Refers]

/-- Words of data have no names and give none. -/
theorem filled (h : script.Registered) (hfilled : script.Filled after) : after.Registered := by
  have hlabels : after.labels = script.labels := by rw [hfilled.rest]
  constructor
  · intro token hmem
    rw [hlabels]
    rcases hfilled.tokens token hmem with hold | hdata
    · exact h.named token hold
    · cases token with
      | data => trivial
      | instruction | operand | entrypoint | table => exact absurd hdata id
  · intro address
    rw [hlabels, h.referred]
    constructor
    · intro hreferred
      obtain ⟨token, hmem, hrefers⟩ := hreferred
      exact ⟨token, hfilled.extends_before.mem_tokens hmem, hrefers⟩
    · intro hreferred
      obtain ⟨token, hmem, hrefers⟩ := hreferred
      rcases hfilled.tokens token hmem with hold | hdata
      · exact ⟨token, hold, hrefers⟩
      · cases token with
        | data => exact absurd hrefers id
        | instruction | operand | entrypoint | table => exact absurd hdata id

theorem places {buffer : Buffer} {task : Task} (h : script.Registered)
    (hplaces : task.Places buffer script after) : after.Registered := by
  cases hplaces with
  | nothing hsame => exact h.sameImage hsame
  | instruction hdecode hclaim hsame =>
    obtain ⟨-, -, -, -, -, hbare⟩ := decode_ok hdecode
    exact (h.claimInstruction hbare hclaim).sameImage hsame
  | table => exact h.placeTable _ _

end Registered

/-- The targets of the entrypoint words are named for the first of the words that has them. -/
structure Headed (script : Script) : Prop where
  entrypoint : ∀ {target : Nat}, target ∈ script.entrypoints ↔
    ∃ offset name, .entrypoint offset target name ∈ script.tokens
  first : ∀ {target : Nat}, target ∈ script.entrypoints →
    script.labels.find? target = some (Label.entrypoint (script.entrypoints.idxOf target)).text

namespace Headed

variable {script after : Script}

theorem continues (h : script.Headed) (hcontinues : script.Continues after) : after.Headed := by
  constructor
  · intro target
    rw [hcontinues.entrypoints, h.entrypoint]
    constructor
    · intro hentered
      obtain ⟨offset, name, hmem⟩ := hentered
      exact ⟨offset, name, hcontinues.grows.mem_tokens hmem⟩
    · intro hentered
      obtain ⟨offset, name, hmem⟩ := hentered
      exact ⟨offset, name, hcontinues.only _ hmem trivial⟩
  · intro target hmem
    rw [hcontinues.entrypoints] at hmem ⊢
    exact hcontinues.grows.labels.name (h.first hmem)

theorem filled (h : script.Headed) (hfilled : script.Filled after)
    (hgrows : script.Grows after) : after.Headed :=
  h.continues ((Continues.refl script).filled hfilled hgrows)

theorem placeEntrypoint (h : script.Headed) (target : Nat)
    (hnames : ∀ {address : Nat}, script.labels.Names address → address ∈ script.entrypoints) :
    (script.placeEntrypoint script.entrypoints.length target).Headed := by
  have hgrows := Grows.placeEntrypoint script script.entrypoints.length target
  constructor
  · intro address
    rw [entrypoints_placeEntrypoint, List.mem_append, List.mem_singleton, h.entrypoint,
      Script.placeEntrypoint]
    simp only [tokens_place, Array.mem_push, Token.entrypoint.injEq, exists_or]
    simp
  · intro address hmem
    rw [entrypoints_placeEntrypoint] at hmem ⊢
    by_cases hknown : address ∈ script.entrypoints
    · rw [List.idxOf_append_of_mem hknown]
      exact hgrows.labels.name (h.first hknown)
    · have heq : address = target :=
        List.mem_singleton.mp ((List.mem_append.mp hmem).resolve_left hknown)
      subst heq
      -- The address has no name yet, since only addresses of entrypoints have one.
      have hnone : script.labels.find? address = none := by
        apply Option.eq_none_iff_forall_ne_some.mpr
        intro name hname
        exact hknown (hnames ⟨name, hname⟩)
      have hindex : (script.entrypoints ++ [address]).idxOf address =
          script.entrypoints.length := by
        rw [List.idxOf_append_of_notMem hknown, List.idxOf_cons_self, Nat.add_zero]
      rw [hindex, Script.placeEntrypoint, labels_place, Labels.find?_add_self,
        Labels.add_of_none hnone]

end Headed

/-- The entrypoint words before an index have been entered, and nothing else. -/
structure Opened (index : Nat) (script : Script) : Prop where
  unexplored : script.Unexplored
  registered : script.Registered
  headed : script.Headed
  count : script.entrypoints.length = index

namespace Opened

variable {index : Nat} {script : Script}

theorem blank (wordCount : Nat) : (Script.blank wordCount).Opened 0 where
  unexplored := .blank wordCount
  registered := .blank wordCount
  headed := by
    constructor
    · simp [Script.blank]
    · intro target hmem
      cases hmem
  count := rfl

theorem mem_entrypoints {address : Nat} (h : script.Opened index)
    (hnames : script.labels.Names address) : address ∈ script.entrypoints := by
  obtain ⟨token, hmem, hrefers⟩ := h.registered.referred.mp hnames
  have hentrypoint := h.unexplored.tokens token hmem
  cases token with
  | entrypoint offset target name =>
    obtain rfl : address = target := hrefers
    exact h.headed.entrypoint.mpr ⟨offset, name, hmem⟩
  | instruction | operand | data | table => exact absurd hentrypoint id

theorem placeEntrypoint (h : script.Opened index) (target : Nat) :
    (script.placeEntrypoint index target).Opened (index + 1) where
  unexplored := h.unexplored.placeEntrypoint index target
  registered := h.registered.placeEntrypoint index target
  headed := by
    rw [← h.count]
    exact h.headed.placeEntrypoint target h.mem_entrypoints
  count := by
    rw [entrypoints_placeEntrypoint, List.length_append, h.count, List.length_singleton]

end Opened

end Script

variable {buffer : Buffer} {signatures : Signatures}

theorem findEntrypoints_opened {limit : Nat} {found : Script}
    (hfound : findEntrypoints buffer limit 0 (.blank buffer.wordCount) = .ok found) :
    ∃ index, found.Opened index := by
  refine findEntrypoints_induction Script.Opened ?_ (.blank buffer.wordCount) hfound
  intro index target word script hword htarget h
  exact h.placeEntrypoint target

theorem Exploring.registered {tasks : List Task} {survey : Survey}
    (h : Exploring buffer signatures tasks survey) : survey.script.Registered := by
  induction h with
  | start hfound =>
    obtain ⟨index, hopened⟩ := findEntrypoints_opened hfound
    exact hopened.registered
  | step hbefore hperform ih => exact ih.places (Task.performs_of_perform hperform).places

theorem Exploring.headed {tasks : List Task} {survey : Survey}
    (h : Exploring buffer signatures tasks survey) : survey.script.Headed := by
  induction h with
  | start hfound =>
    obtain ⟨index, hopened⟩ := findEntrypoints_opened hfound
    exact hopened.headed
  | step hbefore hperform ih =>
    exact ih.continues ((Script.Continues.refl _).performs (Task.performs_of_perform hperform))

theorem Operand.codeAddress?_eq_some {operand : Operand} {address : Nat} :
    operand.codeAddress? = some address ↔ operand.encoding.isInline = true ∧
      ∃ value, operand.resolved = some value ∧ value.toInt = address := by
  unfold codeAddress?
  cases operand.encoding.isInline with
  | false => simp
  | true =>
    cases operand.resolved with
    | none => simp
    | some value =>
      simp only [↓reduceIte, Option.ite_none_right_eq_some, Option.some.injEq, true_and,
        exists_eq_left']
      omega

namespace Script

/-- What has a name in a script, and which name stands in which of its tokens. -/
structure NamesAgree (script : Script) : Prop where
  /-- The addresses with a name are the targets of entrypoint words, the addresses which
  inline operands denote and the destinations of tables. -/
  named : ∀ address, (∃ name, script.labels.find? address = some name) ↔
    address ∈ script.entrypoints ∨
    (∃ (instruction : Instruction) (operand : Operand) (value : Int32),
      .instruction instruction ∈ script.tokens ∧ operand ∈ instruction.operands ∧
      operand.encoding.isInline = true ∧ operand.resolved = some value ∧
      value.toInt = address) ∨
    ∃ table, .table table ∈ script.tokens ∧ address ∈ table.destinations
  operand : ∀ instruction operand, .instruction instruction ∈ script.tokens →
    operand ∈ instruction.operands →
      (operand.label.isSome = true ↔ operand.encoding.isInline = true ∧
        ∃ value, operand.resolved = some value ∧ 0 ≤ value.toInt) ∧
      ∀ name, operand.label = some name → ∃ value, operand.resolved = some value ∧
        script.labels.find? value.toInt.toNat = some name
  entrypoint : ∀ offset target name, .entrypoint offset target name ∈ script.tokens →
    target ∈ script.entrypoints ∧ script.labels.find? target = some name
  table : ∀ table, .table table ∈ script.tokens → table.labels.length = table.destinations.length ∧
    ∀ (place destination : Nat), table.destinations[place]? = some destination →
      table.labels[place]? = script.labels.find? destination
  /-- The target of an entrypoint word is named for the first word that has it. -/
  first : ∀ target ∈ script.entrypoints, script.labels.find? target =
    some ("ENTRYPOINT_" ++ toString (script.entrypoints.idxOf target))

section

variable {script : Script} {address : Nat}

theorem exists_refers_iff :
    (∃ token ∈ script.tokens, token.Refers address) ↔
      (∃ offset target name, .entrypoint offset target name ∈ script.tokens ∧ address = target) ∨
      (∃ instruction operand, .instruction instruction ∈ script.tokens ∧
        operand ∈ instruction.operands ∧ operand.codeAddress? = some address) ∨
      ∃ table, .table table ∈ script.tokens ∧ address ∈ table.destinations := by
  constructor
  · intro hreferred
    obtain ⟨token, hmem, hrefers⟩ := hreferred
    cases token with
    | entrypoint offset target name => exact .inl ⟨offset, target, name, hmem, hrefers⟩
    | instruction instruction =>
      obtain ⟨operand, hoperand, haddress⟩ := hrefers
      exact .inr (.inl ⟨instruction, operand, hmem, hoperand, haddress⟩)
    | table table => exact .inr (.inr ⟨table, hmem, hrefers⟩)
    | operand | data => exact absurd hrefers id
  · rintro (⟨offset, target, name, hmem, heq⟩ | ⟨instruction, operand, hmem, hoperand, haddress⟩ |
      ⟨table, hmem, hdestination⟩)
    · exact ⟨_, hmem, heq⟩
    · exact ⟨_, hmem, operand, hoperand, haddress⟩
    · exact ⟨_, hmem, hdestination⟩

theorem Registered.namesAgree (h : script.Registered) (hheaded : script.Headed) :
    script.NamesAgree := by
  constructor
  case named =>
    intro address
    have hentrypoint : (∃ offset target name,
        .entrypoint offset target name ∈ script.tokens ∧ address = target) ↔
          address ∈ script.entrypoints := by
      rw [hheaded.entrypoint]
      constructor
      · rintro ⟨offset, target, name, hmem, rfl⟩
        exact ⟨offset, name, hmem⟩
      · rintro ⟨offset, name, hmem⟩
        exact ⟨offset, address, name, hmem, rfl⟩
    have hnamed : script.labels.Names address ↔ _ := h.referred
    rw [exists_refers_iff, hentrypoint] at hnamed
    simpa only [Labels.Names, Operand.codeAddress?_eq_some, exists_and_left] using hnamed
  case operand =>
    intro instruction operand hmem hoperand
    have hnamed : operand.Named script.labels := h.named _ hmem operand hoperand
    cases hnamed with
    | plain haddress hlabel =>
      rw [hlabel]
      refine ⟨⟨nofun, ?_⟩, nofun⟩
      rintro ⟨hinline, value, hvalue, hnonnegative⟩
      have hsome : operand.codeAddress? = some value.toInt.toNat :=
        Operand.codeAddress?_eq_some.mpr ⟨hinline, value, hvalue, by omega⟩
      rw [haddress] at hsome
      cases hsome
    | @code address name haddress hlabel hname =>
      obtain ⟨hinline, value, hvalue, hcode⟩ := Operand.codeAddress?_eq_some.mp haddress
      have hnat : value.toInt.toNat = address := by omega
      rw [hlabel]
      refine ⟨⟨fun _ => ⟨hinline, value, hvalue, by omega⟩, fun _ => rfl⟩, ?_⟩
      rintro other ⟨⟩
      exact ⟨value, hvalue, by rw [hnat, hname]⟩
  case entrypoint =>
    intro offset target name hmem
    exact ⟨hheaded.entrypoint.mpr ⟨offset, name, hmem⟩, h.named _ hmem⟩
  case table =>
    intro table hmem
    obtain ⟨hlength, hnames⟩ := List.forall₂_iff_get.mp (h.named _ hmem)
    refine ⟨hlength.symm, ?_⟩
    intro place destination hplace
    obtain ⟨hlt, rfl⟩ := List.getElem?_eq_some_iff.mp hplace
    have hname : place < table.labels.length := by omega
    rw [List.getElem?_eq_getElem hname]
    exact (hnames place hlt hname).symm
  case first =>
    intro target hmem
    exact hheaded.first hmem

end

end Script

/-- The names agree at every moment of an exploration and so when it is over. -/
theorem names_agree_of_disassemble {bytes : List UInt8} {script : Script}
    (h : disassemble bytes signatures = .ok script) : script.NamesAgree := by
  obtain ⟨explored, hexplored, hfilled⟩ := explored_of_disassemble h
  have hgaps := fillGaps_filled hfilled
  exact (hexplored.registered.filled hgaps).namesAgree (hexplored.headed.filled hgaps (fillGaps_grows hfilled))

/-- Two entrypoint words have one target. The third leads into an instruction, so the
instruction there is not entered and the address that its operand denotes has no name. -/
def sharedTarget : List UInt8 :=
  [16, 0, 0, 0, 16, 0, 0, 0, 20, 0, 0, 0, 0xff, 0xff, 0xff, 0xff, 0x44, 2, 0, 0, 0x48, 1, 0, 0,
    3, 0, 0, 0x09, 2, 0, 0, 0, 0xff, 0xff, 0xff, 0xff, 0x49, 0, 0, 0]

theorem names_agree_of_sharedTarget :
    ∃ script, disassemble sharedTarget .empty = .ok script ∧
      script.entrypoints = [16, 16, 20] ∧
      script.labels.entries =
        [(16, "ENTRYPOINT_0"), (20, "ENTRYPOINT_2"), (28, "LABEL_2"), (36, "JMP_1c_0")] ∧
      script.NamesAgree := by
  have hread : (disassemble sharedTarget .empty).toOption.map
      (fun script => (script.entrypoints, script.labels.entries)) =
      some ([16, 16, 20],
        [(16, "ENTRYPOINT_0"), (20, "ENTRYPOINT_2"), (28, "LABEL_2"), (36, "JMP_1c_0")]) := by
    cbv
  obtain ⟨script, h, heq⟩ := exists_disassemble hread
  simp only [Prod.mk.injEq] at heq
  obtain ⟨hentrypoints, hentries⟩ := heq
  exact ⟨script, h, hentrypoints, hentries, names_agree_of_disassemble h⟩

end ScriptDisassembler
