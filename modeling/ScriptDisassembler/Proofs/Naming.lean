import ScriptDisassembler.Proofs.Displacements
import ScriptDisassembler.Proofs.Spelling

/-!
No two addresses share a name. The names come out of three numberings: the entrypoints by
their place, the anonymous names by how many names there are, the destinations of a table by
the table and their place in it. Every name says enough about its address to determine it:
the word of an entrypoint and the entry of a table are in the buffer, whenever and however
often they are read, and an anonymous number is used up when it is given out.
-/

namespace ScriptDisassembler

namespace Labels

variable {labels : Labels} {address : Nat} {name : String} {make : Nat → String}

theorem add_of_some (h : labels.find? address = some name) :
    labels.add address make = (name, labels) := by
  simp only [add, h]

theorem add_of_none (h : labels.find? address = none) :
    labels.add address make = (make labels.count,
      ⟨insertInto address (make labels.count) labels.entries, labels.count + 1⟩) := by
  simp only [add, h]

theorem mem_insertInto {entry : Nat × String} {entries : List (Nat × String)} :
    entry ∈ insertInto address name entries ↔ entry = (address, name) ∨ entry ∈ entries := by
  induction entries with
  | nil => simp [insertInto]
  | cons head tail ih =>
    simp only [insertInto]
    split
    · simp
    · simp only [List.mem_cons, ih]
      grind

theorem length_insertInto (address : Nat) (name : String) (entries : List (Nat × String)) :
    (insertInto address name entries).length = entries.length + 1 := by
  induction entries with
  | nil => rfl
  | cons head tail ih =>
    simp only [insertInto]
    split
    · rfl
    · rw [List.length_cons, ih, List.length_cons]

theorem pairwise_insertInto {entries : List (Nat × String)} (hnone : entries.lookup address = none)
    (h : entries.Pairwise (·.1 < ·.1)) :
    (insertInto address name entries).Pairwise (·.1 < ·.1) := by
  induction entries with
  | nil => simp [insertInto]
  | cons head tail ih =>
    have hother := List.lookup_eq_none_iff.mp hnone
    obtain ⟨hhead, htail⟩ := List.pairwise_cons.mp h
    simp only [insertInto]
    split
    · next hlt =>
      refine List.pairwise_cons.mpr ⟨?_, h⟩
      intro entry hentry
      rcases List.mem_cons.mp hentry with rfl | hmem
      · exact hlt
      · have hbefore := hhead entry hmem
        omega
    · next hge =>
      have hne : address ≠ head.1 := by simpa using hother head List.mem_cons_self
      have hrest : tail.lookup address = none :=
        List.lookup_eq_none_iff.mpr fun entry hmem => hother entry (List.mem_cons_of_mem head hmem)
      refine List.pairwise_cons.mpr ⟨?_, ih hrest htail⟩
      intro entry hentry
      rcases mem_insertInto.mp hentry with rfl | hmem
      · omega
      · exact hhead entry hmem

/-- Different addresses have different names, and the names of the addresses are counted. -/
structure Distinct (labels : Labels) : Prop where
  injective : ∀ {first second : Nat} {name : String}, labels.find? first = some name →
    labels.find? second = some name → first = second
  /-- No address is entered twice, so there are as many entries as addresses with a name. -/
  ascending : labels.entries.Pairwise (·.1 < ·.1)
  count_eq : labels.count = labels.entries.length

theorem distinct_empty : empty.Distinct where
  injective hfirst := by simp [find?, empty] at hfirst
  ascending := List.Pairwise.nil
  count_eq := rfl

theorem Distinct.add (h : labels.Distinct) (hnone : labels.find? address = none)
    (hfresh : ∀ {other : Nat}, labels.find? other ≠ some (make labels.count)) :
    (labels.add address make).2.Distinct := by
  constructor
  · intro first second name hfirst hsecond
    rw [find?_add, add_of_none hnone] at hfirst hsecond
    split at hfirst
    · next heq =>
      split at hsecond
      · next hother => rw [heq, hother]
      · rw [← hfirst] at hsecond
        exact absurd hsecond hfresh
    · split at hsecond
      · rw [← hsecond] at hfirst
        exact absurd hfirst hfresh
      · exact h.injective hfirst hsecond
  · rw [add_of_none hnone]
    exact pairwise_insertInto hnone h.ascending
  · rw [add_of_none hnone, length_insertInto, h.count_eq]

end Labels

namespace Label

variable {buffer : Buffer} {numbers others : Nat → Prop} {address other : Nat} {label : Label}

/-- A name fits an address if the word of the entrypoint or the entry of the table leads
there. An anonymous name has one of certain numbers and fits any address. -/
def Fits (buffer : Buffer) (numbers : Nat → Prop) (address : Nat) : Label → Prop
  | entrypoint index => ∃ word, buffer.wordAt (4 * index) = .ok word ∧ address = word.toNat
  | code number => numbers number
  | tableEntry table index => buffer.Leads table index address

theorem Fits.mono (hnumbers : ∀ {number : Nat}, numbers number → others number)
    (h : label.Fits buffer numbers address) : label.Fits buffer others address := by
  cases label with
  | entrypoint _ | tableEntry _ _ => exact h
  | code number => exact hnumbers h

/-- A name fits two addresses only if it is anonymous. -/
theorem Fits.unique (hdisjoint : ∀ {number : Nat}, numbers number → ¬ others number)
    (hfirst : label.Fits buffer numbers address) (hsecond : label.Fits buffer others other) :
    address = other := by
  cases label with
  | entrypoint index =>
    obtain ⟨word, hword, rfl⟩ := hfirst
    obtain ⟨again, hagain, rfl⟩ := hsecond
    rw [hword, Except.ok.injEq] at hagain
    rw [hagain]
  | code number => exact absurd hsecond (hdisjoint hfirst)
  | tableEntry table index => exact Buffer.Leads.unique hfirst hsecond

end Label

/-- The names are distinct, and each is spelled for what it says of its address. -/
structure Labels.Fitting (buffer : Buffer) (labels : Labels) : Prop where
  distinct : labels.Distinct
  fits : ∀ {address : Nat} {name : String}, labels.find? address = some name →
    ∃ label : Label, name = label.text ∧ label.Fits buffer (· < labels.count) address

namespace Labels.Fitting

variable {buffer : Buffer} {labels : Labels}

theorem empty (buffer : Buffer) : Labels.empty.Fitting buffer :=
  ⟨distinct_empty, fun h => by simp [find?, Labels.empty] at h⟩

theorem leads (h : labels.Fitting buffer) {table place address : Nat}
    (hfind : labels.find? address = some (Label.tableEntry table place).text) :
    buffer.Leads table place address := by
  obtain ⟨label, htext, hfits⟩ := h.fits hfind
  rw [← Label.text_injective htext] at hfits
  exact hfits

/-- The next name that fits an address without a name is not among the names given out: it
would have been given to that address. -/
theorem fresh (h : labels.Fitting buffer) {address other : Nat} {label : Label}
    (hnone : labels.find? address = none)
    (hfits : label.Fits buffer (· = labels.count) address) :
    labels.find? other ≠ some label.text := by
  intro hother
  obtain ⟨known, htext, hknown⟩ := h.fits hother
  rw [← Label.text_injective htext] at hknown
  have hsame : address = other := hfits.unique (by omega) hknown
  rw [← hsame, hnone] at hother
  cases hother

theorem add (h : labels.Fitting buffer) {address : Nat} {make : Nat → String} (label : Label)
    (hmake : make labels.count = label.text)
    (hfits : label.Fits buffer (· = labels.count) address) :
    (labels.add address make).2.Fitting buffer := by
  cases hfind : labels.find? address with
  | some name =>
    rw [add_of_some hfind]
    exact h
  | none =>
    have hcount : (labels.add address make).2.count = labels.count + 1 := by
      rw [add_of_none hfind]
    have hname : (labels.add address make).1 = label.text := by
      rw [add_of_none hfind, ← hmake]
    constructor
    · apply h.distinct.add hfind
      rw [hmake]
      exact h.fresh hfind hfits
    · intro other name hother
      rw [find?_add, hname] at hother
      rw [hcount]
      split at hother
      · next heq =>
        rw [heq]
        exact ⟨label, (Option.some.inj hother).symm, hfits.mono (by omega)⟩
      · obtain ⟨known, htext, hknown⟩ := h.fits hother
        exact ⟨known, htext, hknown.mono (by omega)⟩

theorem labelOperands (h : labels.Fitting buffer) (operands : List Operand) :
    (Script.labelOperands operands labels).2.Fitting buffer := by
  induction operands generalizing labels with
  | nil => exact h
  | cons operand rest ih =>
    simp only [Script.labelOperands]
    split
    · exact ih h
    · exact ih (h.add (.code labels.count) rfl rfl)

theorem labelDestinations (h : labels.Fitting buffer) {table index : Nat}
    {destinations : List Nat}
    (hleads : ∀ {place destination : Nat}, destinations[place]? = some destination →
      buffer.Leads table (index + place) destination) :
    (Script.labelDestinations table index destinations labels).2.Fitting buffer := by
  induction destinations generalizing labels index with
  | nil => exact h
  | cons destination rest ih =>
    simp only [Script.labelDestinations]
    apply ih
    · have hfirst : buffer.Leads table (index + 0) destination := hleads rfl
      exact h.add (.tableEntry table index) rfl hfirst
    · intro place other hother
      have hnext : buffer.Leads table (index + (place + 1)) other := hleads hother
      rw [Nat.add_assoc, Nat.add_comm 1]
      exact hnext

end Labels.Fitting

namespace Script

@[simp] theorem labels_place (script : Script) (token : Token) :
    (script.place token).labels = script.labels := by
  obtain ⟨slots, -, heq⟩ := script.place_eq token
  rw [heq]

@[simp] theorem labels_foldl_place (operands : List Operand) (script : Script) :
    (operands.foldl (fun script operand => script.place (.operand operand)) script).labels =
      script.labels := by
  obtain ⟨slots, -, heq⟩ := foldl_place_eq operands script
  rw [heq]

theorem labels_claimInstruction {script entered : Script} {instruction : Instruction}
    (h : script.claimInstruction instruction = .ok entered) :
    entered.labels = (labelOperands instruction.operands script.labels).2 := by
  obtain ⟨-, -, rfl⟩ := claimInstruction_ok h
  simp only [placeInstruction, labels_foldl_place, labels_place]

end Script

variable {buffer : Buffer} {signatures : Signatures}

theorem Displaced.fitting {table : Nat} {found front : List Nat} {labels : Labels}
    (h : Displaced buffer table found) (hfront : front <+: found)
    (hlabels : labels.Fitting buffer) :
    (Script.labelDestinations table 0 front labels).2.Fitting buffer := by
  obtain ⟨rest, rfl⟩ := hfront
  apply hlabels.labelDestinations
  intro place destination hplace
  have hinside := (List.getElem?_eq_some_iff.mp hplace).1
  rw [Nat.zero_add]
  apply h
  rw [List.getElem?_append_left hinside, hplace]

theorem Task.Places.fitting {task : Task} {script after : Script}
    (h : task.Places buffer script after) (hdisplaced : task.Displaced buffer)
    (hlabels : script.labels.Fitting buffer) : after.labels.Fitting buffer := by
  cases h with
  | nothing hsame =>
    rw [hsame.labels]
    exact hlabels
  | instruction hdecode hclaim hsame =>
    rw [hsame.labels, Script.labels_claimInstruction hclaim]
    exact hlabels.labelOperands _
  | table =>
    rw [Script.placeTable, Script.labels_place]
    exact Displaced.fitting hdisplaced (List.prefix_refl _) hlabels

theorem fitting_of_findEntrypoints {limit : Nat} {script : Script}
    (hfound : findEntrypoints buffer limit 0 (.blank buffer.wordCount) = .ok script) :
    script.labels.Fitting buffer := by
  have hinvariant := findEntrypoints_induction
    (fun _ script => script.labels.Fitting buffer) ?_ (.empty buffer) hfound
  · obtain ⟨-, hlabels⟩ := hinvariant
    exact hlabels
  · intro index target word script hword htarget hlabels
    have haddress := (Buffer.wordOffset?_eq_some.mp (Buffer.wordOffset?_of_headerOffset? htarget)).1
    rw [Script.placeEntrypoint, Script.labels_place]
    exact hlabels.add (.entrypoint index) rfl ⟨word, hword, by omega⟩

theorem Exploring.fitting {tasks : List Task} {survey : Survey}
    (h : Exploring buffer signatures tasks survey) : survey.script.labels.Fitting buffer := by
  induction h with
  | start hfound => exact fitting_of_findEntrypoints hfound
  | step hbefore hperform ih =>
    exact (Task.performs_of_perform hperform).places.fitting
      (hbefore.displaced _ List.mem_cons_self) ih

theorem Script.Reachable.fitting {script : Script} (h : script.Reachable buffer signatures) :
    script.labels.Fitting buffer := by
  cases h with
  | entering hlimit hfound => exact fitting_of_findEntrypoints hfound
  | exploring hexploring => exact hexploring.fitting
  | naming hexploring hdecode hclaim hfront => exact hexploring.fitting.labelOperands _
  | placing hexploring hdecode hclaim hfront =>
    rw [labels_foldl_place, labels_place]
    exact hexploring.fitting.labelOperands _
  | namingTable hexploring hentry hfront =>
    obtain ⟨hdisplaced, -⟩ := List.forall_mem_cons.mp hexploring.displaced
    exact Displaced.fitting hdisplaced hfront hexploring.fitting
  | filling hexploring hcount hfilled =>
    rw [(fillGaps_filled hfilled).rest]
    exact hexploring.fitting

/-- No two addresses share a name, in whatever state a disassembly is. -/
structure DistinctlyNamed (bytes : List UInt8) (signatures : Signatures) : Prop where
  reachable : ∀ {script : Script}, script.Reachable (.ofBytes bytes) signatures →
    script.labels.Distinct
  /-- The name for a place in a table is given to one address all along, whichever kind of
  table is decoded there and in whichever order. -/
  tableEntry : ∀ {script later : Script} {table place first second : Nat},
    script.Reachable (.ofBytes bytes) signatures → later.Reachable (.ofBytes bytes) signatures →
      script.labels.find? first = some (Label.tableEntry table place).text →
      later.labels.find? second = some (Label.tableEntry table place).text → first = second
  returned : ∀ {script : Script}, disassemble bytes signatures = .ok script →
    script.labels.Distinct

theorem distinctly_named (bytes : List UInt8) (signatures : Signatures) :
    DistinctlyNamed bytes signatures := by
  constructor
  · intro script hreached
    exact hreached.fitting.distinct
  · intro script later table place first second hscript hlater hfirst hsecond
    have hlead := hscript.fitting.leads hfirst
    have hled := hlater.fitting.leads hsecond
    exact hlead.unique hled
  · intro script h
    exact (reachable_of_disassemble h).fitting.distinct

/-- A table of jumps whose first destination calls a subroutine through the same table. -/
def nestedTables : List UInt8 :=
  [4, 0, 0, 0, 0x44, 2, 0, 0, 0, 0, 0, 0, 3, 0, 0, 0x09, 3, 0, 0, 0, 7, 0, 0, 0,
    0xff, 0xff, 0xff, 0x7f, 0x4a, 2, 0, 0, 0, 0, 0, 0, 0xfd, 0xff, 0xff, 0x09,
    0x49, 0, 0, 0, 0x49, 0, 0, 0]

theorem distinctly_named_of_nestedTables :
    ∃ script, disassemble nestedTables ⟨[]⟩ = .ok script ∧
      script.jumpTables.toList = [16] ∧ script.subroutineTables.toList = [16] ∧
      script.labels.entries =
        [(4, "ENTRYPOINT_0"), (16, "LABEL_1"), (28, "JMP_10_0"), (44, "JMP_10_1")] ∧
      script.labels.Distinct := by
  have hread : (disassemble nestedTables ⟨[]⟩).toOption.map
      (fun script => (script.jumpTables.toList, script.subroutineTables.toList,
        script.labels.entries)) =
      some ([16], [16],
        [(4, "ENTRYPOINT_0"), (16, "LABEL_1"), (28, "JMP_10_0"), (44, "JMP_10_1")]) := by
    cbv
  obtain ⟨script, h, heq⟩ := exists_disassemble hread
  simp only [Prod.mk.injEq] at heq
  obtain ⟨hjump, hsubroutine, hentries⟩ := heq
  exact ⟨script, h, hjump, hsubroutine, hentries, (distinctly_named nestedTables ⟨[]⟩).returned h⟩

end ScriptDisassembler
