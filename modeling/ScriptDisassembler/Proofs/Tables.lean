import Mathlib
import ScriptDisassembler.Proofs.Arrivals
import ScriptDisassembler.Proofs.Guards
import ScriptDisassembler.Proofs.Readings

/-!
The tables of a script and the destinations that were found in them. Every table that is begun
is on the stack until it is placed, and it is placed once. Nothing tells how long a table is:
its destinations are those of its first entries that lead to instructions and whose words
nothing has claimed, not even what the destinations before them lead to.
-/

namespace ScriptDisassembler

theorem AddressSet.perm_insert {set : AddressSet} {address : Nat} (h : address ∉ set) :
    (set.insert address).toList.Perm (address :: set.toList) := by
  have hinsert : (set.insert address).toList.Nodup := (set.insert address).ascending.imp Nat.ne_of_lt
  have hcons : (address :: set.toList).Nodup :=
    List.nodup_cons.mpr ⟨h, set.ascending.imp Nat.ne_of_lt⟩
  refine (List.perm_ext_iff_of_nodup hinsert hcons).mpr ?_
  intro other
  rw [List.mem_cons]
  exact AddressSet.mem_insertInto

def Token.table? : Token → Option Table
  | table t => some t
  | instruction _ | operand _ | data _ _ | entrypoint _ _ _ => none

/-- The table that a task reads, by its kind and address. -/
def Task.reading : Task → List (TableKind × Nat)
  | .entries kind table _ => [(kind, table)]
  | .probe _ | .scan _ | .arguments _ _ _ => []

namespace Script

/-- The tables of a script in the order in which they were placed. -/
def tableTokens (script : Script) : List Table :=
  script.tokens.toList.filterMap Token.table?

/-- The tables that have been begun, by their kinds and addresses. -/
def begun (script : Script) : List (TableKind × Nat) :=
  script.jumpTables.toList.map (.jump, ·) ++ script.subroutineTables.toList.map (.subroutine, ·)

variable {script : Script}

theorem mem_begun {kind : TableKind} {address : Nat} :
    (kind, address) ∈ script.begun ↔ address ∈ script.tables kind := by
  have hmem : ∀ set : AddressSet, address ∈ set.toList ↔ address ∈ set := fun _ => Iff.rfl
  cases kind <;> simp [begun, tables, hmem]

theorem nodup_begun (script : Script) : script.begun.Nodup := by
  have hkind : ∀ (kind : TableKind) (set : AddressSet), (set.toList.map (kind, ·)).Nodup :=
    fun kind set =>
      List.Nodup.map (Prod.mk_right_injective kind) (set.ascending.imp Nat.ne_of_lt)
  refine List.nodup_append.mpr ⟨hkind _ _, hkind _ _, ?_⟩
  intro first hfirst second hsecond heq
  obtain ⟨address, -, rfl⟩ := List.mem_map.mp hfirst
  obtain ⟨other, -, rfl⟩ := List.mem_map.mp hsecond
  cases heq

theorem length_begun (script : Script) :
    script.begun.length = script.jumpTables.size + script.subroutineTables.size := by
  simp [begun, AddressSet.size]

theorem begun_insertTable {kind : TableKind} {table : Nat} (h : table ∉ script.tables kind) :
    (script.insertTable kind table).begun.Perm ((kind, table) :: script.begun) := by
  cases kind with
  | jump => exact (((AddressSet.perm_insert h).map _).append_right _)
  | subroutine =>
    exact (((AddressSet.perm_insert h).map _).append_left _).trans List.perm_middle

theorem tableTokens_claimInstruction {instruction : Instruction} {entered : Script}
    (h : script.claimInstruction instruction = .ok entered) :
    entered.tableTokens = script.tableTokens := by
  obtain ⟨named, slots, labels, hbare, rfl⟩ := claimInstruction_eq h
  simp [tableTokens, Token.table?]

theorem tableTokens_placeTable (script : Script) (table : Nat) (found : List Nat) :
    ∃ names, (script.placeTable table found).tableTokens =
      script.tableTokens ++ [⟨table, found, names⟩] := by
  obtain ⟨names, slots, labels, heq⟩ := script.placeTable_eq table found
  refine ⟨names, ?_⟩
  rw [heq]
  simp [tableTokens, Token.table?]

theorem SameImage.tableTokens {after : Script} (h : script.SameImage after) :
    after.tableTokens = script.tableTokens := by
  rw [Script.tableTokens, Script.tableTokens, h.tokens]

end Script

/-- What a task does to the tables of a script: none, one that is begun, or one that is placed. -/
inductive Task.Tabulates (before : Script) : Task → Script → List Task → Prop
  | nothing {task : Task} {after : Script} {more : List Task}
      (htokens : after.tableTokens = before.tableTokens) (hbegun : after.begun = before.begun)
      (hreading : more.flatMap Task.reading = task.reading) : Tabulates before task after more
  | opens {task : Task} {after : Script} {more : List Task} {kind : TableKind} {table : Nat}
      (htokens : after.tableTokens = before.tableTokens)
      (hbegun : after.begun.Perm ((kind, table) :: before.begun))
      (hreading : more.flatMap Task.reading = (kind, table) :: task.reading) :
      Tabulates before task after more
  | closes {after : Script} {kind : TableKind} {table : Table}
      (htokens : after.tableTokens = before.tableTokens ++ [table])
      (hbegun : after.begun = before.begun) :
      Tabulates before (.entries kind table.offset table.destinations) after []

variable {buffer : Buffer} {signatures : Signatures}

theorem Follows.tabulates {instruction : Instruction} {survey after : Survey} {offset : Nat}
    {tasks : List Task} (h : Follows buffer signatures instruction survey after tasks) :
    Task.Tabulates survey.script (.scan offset) after.script tasks := by
  have honward : ∀ kind : TableKind, (kind.onward instruction).flatMap Task.reading = [] := by
    intro kind
    cases kind <;> rfl
  have htokens := h.sameImage.tableTokens
  cases h with
  | stop | onward | call | unknown | outside | gosub | fork => exact .nothing htokens rfl rfl
  | jump | conditional =>
    refine .nothing htokens (by rw [script_followEdge]) ?_
    simp [Task.reading, List.flatMap_map]
  | tableOutside | tableKnown => exact .nothing htokens rfl (honward _)
  | tableNew hflow hvalue htable hmem =>
    refine .opens htokens (Script.begun_insertTable hmem) ?_
    rw [List.flatMap_cons, honward]
    rfl

theorem Task.Tabulates.of_eq {before entered after : Script} {task : Task} {more : List Task}
    (h : Task.Tabulates entered task after more)
    (htokens : entered.tableTokens = before.tableTokens) (hbegun : entered.begun = before.begun) :
    Task.Tabulates before task after more := by
  cases h with
  | nothing hsame heq hreading => exact .nothing (hsame.trans htokens) (heq.trans hbegun) hreading
  | opens hsame hperm hreading =>
    rw [hbegun] at hperm
    exact .opens (hsame.trans htokens) hperm hreading
  | closes hplaced heq =>
    rw [htokens] at hplaced
    exact .closes hplaced (heq.trans hbegun)

theorem Task.Performs.tabulates {task : Task} {survey after : Survey} {more : List Task}
    (h : Task.Performs buffer signatures survey task after more) :
    Task.Tabulates survey.script task after.script more := by
  cases h with
  | probeKnown | probeNew | scanEnd | scanUndecodable | scanRefused | argumentsDone
  | argumentValue | argumentUnknown | argumentOutside => exact .nothing rfl rfl rfl
  | argumentEntered =>
    refine .nothing (Script.SameImage.insertRole _ _ _).tableTokens ?_ rfl
    rw [script_update, Script.insertRole]
    split <;> rfl
  | scanEntered hinside hdecode hclaim hfollow =>
    obtain ⟨named, slots, labels, -, heq⟩ := Script.claimInstruction_eq hclaim
    refine hfollow.tabulates.of_eq (Script.tableTokens_claimInstruction hclaim) ?_
    rw [heq]
    rfl
  | @tableEnd kind table found hentry =>
    obtain ⟨names, htokens⟩ := survey.script.tableTokens_placeTable table found
    obtain ⟨_, slots, labels, heq⟩ := survey.script.placeTable_eq table found
    rw [script_closeTable]
    refine .closes htokens ?_
    rw [heq]
    rfl
  | @tableEntry kind _ _ _ hentry =>
    refine .nothing (Script.SameImage.insertDestination _ _ _).tableTokens ?_ rfl
    cases kind <;> rfl

/-- The moment at which a table is placed. -/
def Table.Closed (buffer : Buffer) (signatures : Signatures) (kind : TableKind) (table : Table) :
    Prop :=
  ∃ rest survey, Exploring buffer signatures
      (.entries kind table.offset table.destinations :: rest) survey ∧
    nextDestination? buffer survey.script table.offset table.destinations = .ok none

namespace Exploring

variable {tasks : List Task} {survey : Survey}

/-- The tables that have been placed and those that are being read are the ones that have been
begun. -/
theorem records (h : Exploring buffer signatures tasks survey) :
    ∃ records : List (TableKind × Table), records.map Prod.snd = survey.script.tableTokens ∧
      ((records.map fun record => (record.1, record.2.offset)) ++
        tasks.flatMap Task.reading).Perm survey.script.begun ∧
      ∀ record ∈ records, record.2.Closed buffer signatures record.1 := by
  induction h with
  | @start found hfound =>
    have hunexplored := findEntrypoints_unexplored hfound
    refine ⟨[], ?_, ?_, nofun⟩
    · symm
      apply List.filterMap_eq_nil_iff.mpr
      intro token hmem
      have hentrypoint := hunexplored.tokens token (Array.mem_toList_iff.mp hmem)
      cases token with
      | table => exact absurd hentrypoint id
      | instruction | operand | data | entrypoint => rfl
    · have hbegun : found.begun = [] := by
        rw [hunexplored.rest]
        rfl
      simp [hbegun, List.flatMap_map, Task.reading]
  | @step task more rest survey after hbefore hperform ih =>
    obtain ⟨records, htables, hperm, hclosed⟩ := ih
    have hperforms := Task.performs_of_perform hperform
    cases hperforms.tabulates with
    | nothing htokens hbegun hreading =>
      refine ⟨records, htables.trans htokens.symm, ?_, hclosed⟩
      rw [hbegun, List.flatMap_append, hreading, ← List.flatMap_cons]
      exact hperm
    | opens htokens hbegun hreading =>
      refine ⟨records, htables.trans htokens.symm, ?_, hclosed⟩
      rw [List.flatMap_append, hreading, List.cons_append, ← List.flatMap_cons]
      exact List.perm_middle.trans ((hperm.cons _).trans hbegun.symm)
    | @closes _ kind table htokens hbegun =>
      refine ⟨records ++ [(kind, table)], ?_, ?_, ?_⟩
      · rw [List.map_append, htables, htokens]
        rfl
      · rw [hbegun, List.map_append, List.append_assoc]
        exact hperm
      · intro record hrecord
        rcases List.mem_append.mp hrecord with hold | hnew
        · exact hclosed record hold
        · rw [List.mem_singleton.mp hnew]
          cases hperforms with
          | tableEnd hentry => exact ⟨rest, survey, hbefore, hentry⟩

theorem dataless (h : Exploring buffer signatures tasks survey) :
    ∀ token ∈ survey.script.tokens, ¬ token.IsData := by
  induction h with
  | start hfound =>
    intro token hmem hdata
    have hentrypoint := (findEntrypoints_unexplored hfound).tokens token hmem
    cases token with
    | data => exact hentrypoint
    | instruction | operand | entrypoint | table => exact hdata
  | step hbefore hperform ih =>
    intro token hmem
    rcases (Task.performs_of_perform hperform).places.mem_tokens hmem with hold | ⟨hnew, -⟩
    · exact ih token hold
    · exact hnew

/-- What has claimed a slot is no data and still owns it when the exploration is over. -/
theorem claimed {explored : Survey} {index : Nat} (h : Exploring buffer signatures tasks survey)
    (hend : Exploring buffer signatures [] explored)
    (hclaimed : survey.script.isClaimed index = true) :
    ∃ token, survey.script.tokenAt? index = some token ∧
      explored.script.tokenAt? index = some token ∧ ¬ token.IsData ∧ token.Covers index ∧
      token.offset % 4 = 0 := by
  obtain ⟨token, htoken, hmem, hcovers, haligned⟩ := h.progress.layout.exists_tokenAt? hclaimed
  exact ⟨token, htoken, (h.grows_ending hend).tokenAt? htoken, h.dataless token hmem, hcovers,
    haligned⟩

end Exploring

/-- A table that is read begins inside the buffer. -/
def Task.TableInside (buffer : Buffer) : Task → Prop
  | .entries _ table _ => table < buffer.length
  | .probe _ | .scan _ | .arguments _ _ _ => True

theorem Task.Leaves.tableInside {script : Script} {task more : Task}
    (h : task.Leaves buffer script more) (hinside : task.TableInside buffer) :
    more.TableInside buffer := by
  cases h with
  | scan | arguments | argument | destination => trivial
  | entries => exact hinside
  | followed hdecode hleaves =>
    cases hleaves with
    | onward | beside | target | arguments => trivial
    | table htable => exact (Buffer.wordOffset?_eq_some.mp htable).2.2

theorem Exploring.tableInside {tasks : List Task} {survey : Survey}
    (h : Exploring buffer signatures tasks survey) : ∀ task ∈ tasks, task.TableInside buffer :=
  h.tasks_induction (Task.TableInside buffer) (fun _ => trivial) Task.Leaves.tableInside

/-- A table whose first word is free gets it. -/
theorem Script.tokenAt?_placeTable {script : Script} {table : Nat} (found : List Nat)
    (haligned : table % 4 = 0) (hfree : script.slots[table / 4]? = some none) :
    ∃ names, (script.placeTable table found).tokenAt? (table / 4) =
      some (.table ⟨table, found, names⟩) := by
  have hoffset : table = 4 * (table / 4) := by omega
  refine ⟨(labelDestinations table 0 found script.labels).1, ?_⟩
  have hrelabelled : ({ script with
      labels := (labelDestinations table 0 found script.labels).2 } : Script).slots[table / 4]? =
        some none := hfree
  simp only [placeTable]
  apply tokenAt?_eq
  · rw [owner?_place_word hrelabelled, if_pos rfl]
    · exact hoffset
    · rfl
  · rw [tokens_place, Array.getElem?_push_size]

namespace Script

/-- How the destinations of a table were found. Before each entry there is an image of the
script; from it the destination of the entry is explored in full, which leads to the image
before the next entry. -/
structure ReadThrough (buffer : Buffer) (signatures : Signatures) (script : Script)
    (kind : TableKind) (table : Table) (rest : List Task) (image : Nat → Survey) : Prop where
  opened : Exploring buffer signatures (.entries kind table.offset [] :: rest) (image 0)
  explored : ∀ {place destination : Nat}, table.destinations[place]? = some destination →
    run buffer signatures [.probe destination]
      ((image place).update (·.insertDestination kind destination)) = (image (place + 1), .ok ())
  leads : ∀ {place destination : Nat}, table.destinations[place]? = some destination →
    buffer.Leads table.offset place destination ∧ buffer.Begins destination ∧
      (image place).script.isClaimed (table.offset / 4 + place) = false
  visits : ∀ destination ∈ table.destinations, script.Visits kind destination
  stop : buffer.length ≤ table.offset + 4 * table.destinations.length ∨
    (∃ word, buffer.wordAt (table.offset + 4 * table.destinations.length) = .ok word ∧
      ∀ destination : Nat, (destination : Int) = table.offset + 4 * word.signed.toInt →
        ¬ buffer.Begins destination) ∨
    (image table.destinations.length).script.isClaimed
        (table.offset / 4 + table.destinations.length) = true ∧
      ∃ token, script.tokenAt? (table.offset / 4 + table.destinations.length) = some token ∧
        ¬ token.IsData
  /-- The first word is that of a table which begins there, or it was claimed before the table
  was placed. -/
  first : ∃ token, script.tokenAt? (table.offset / 4) = some token ∧ ¬ token.IsData ∧
    ((∃ other, token = .table other ∧ other.offset = table.offset) ∨
      ¬ token.IsTable ∧ (image table.destinations.length).script.tokenAt? (table.offset / 4) =
        some token)

theorem ReadThrough.of_closed {kind : TableKind} {table : Table} {script : Script}
    {explored : Survey} (h : table.Closed buffer signatures kind)
    (hend : Exploring buffer signatures [] explored) (hgrows : explored.script.Grows script) :
    ∃ rest image, script.ReadThrough buffer signatures kind table rest image := by
  obtain ⟨rest, last, hexploring, hentry⟩ := h
  have hreading := hexploring.reading
  obtain ⟨image, himages, hlast⟩ := hreading.images
  have haligned : table.offset % 4 = 0 := hexploring.aligned _ List.mem_cons_self
  have hinside : table.offset < buffer.length := hexploring.tableInside _ List.mem_cons_self
  have hslot : ∀ place, (table.offset + 4 * place) / 4 = table.offset / 4 + place := by omega
  refine ⟨rest, image, ?_⟩
  constructor
  case opened => exact himages.opened
  case explored => exact himages.explored
  case leads =>
    intro place destination hplace
    have hnext := himages.entry hplace
    have hlength : (table.destinations.take place).length = place := by
      have hlt := (List.getElem?_eq_some_iff.mp hplace).1
      rw [List.length_take]
      omega
    have hleads := leads_of_nextDestination? hnext
    have hunclaimed := unclaimed_of_nextDestination? hnext
    obtain ⟨word, -, hheader⟩ := nextDestination?_eq_some hnext
    rw [hlength] at hleads hunclaimed
    rw [hslot] at hunclaimed
    exact ⟨hleads, (Buffer.headerOffset?_eq_some.mp hheader).2, hunclaimed⟩
  case visits =>
    intro destination hmem
    exact (hreading.visits destination hmem).grows ((hexploring.grows_ending hend).trans hgrows)
  case stop =>
    rcases nextDestination?_eq_none hentry with houtside | hclaimed | ⟨word, hword, hinvalid⟩
    · exact .inl houtside
    · rw [hslot] at hclaimed
      obtain ⟨token, -, htoken, hdata, -⟩ := hexploring.claimed hend hclaimed
      rw [hlast]
      exact .inr (.inr ⟨hclaimed, token, hgrows.tokenAt? htoken, hdata⟩)
    · exact .inr (.inl ⟨word, hword, fun _ => Buffer.headerOffset?_eq_none hinvalid⟩)
  case first =>
    rw [hlast]
    by_cases hfree : last.script.slots[table.offset / 4]? = some none
    · -- The table gets its first word when it is placed.
      have hperform : (Task.entries kind table.offset table.destinations).perform buffer
          signatures last = (closeTable table.offset table.destinations last, .ok []) := by
        simp only [Task.perform, entryStep_eq, hentry]
      have hclosed := hexploring.step hperform
      obtain ⟨names, htoken⟩ := tokenAt?_placeTable table.destinations haligned hfree
      rw [← script_closeTable] at htoken
      have hlater := hgrows.tokenAt? ((hclosed.grows_ending hend).tokenAt? htoken)
      exact ⟨_, hlater, id, .inl ⟨_, rfl, rfl⟩⟩
    · have hclaimed : last.script.isClaimed (table.offset / 4) = true := by
        apply Bool.not_eq_false _ |>.mp
        intro hunclaimed
        refine hfree (free_of_isClaimed ?_ hunclaimed)
        have hcount := hexploring.progress.layout.wordCount_eq
        simp only [Buffer.length] at hinside
        omega
      obtain ⟨token, hbefore, hafter, hdata, hcovers, htokenAligned⟩ :=
        hexploring.claimed hend hclaimed
      refine ⟨token, hgrows.tokenAt? hafter, hdata, ?_⟩
      cases token with
      | table other =>
        have hindex := Token.covers_table.mp hcovers
        have hother : other.offset % 4 = 0 := htokenAligned
        exact .inl ⟨other, rfl, by omega⟩
      | data => exact absurd trivial hdata
      | instruction | operand | entrypoint => exact .inr ⟨id, hbefore⟩

end Script

/-- The tables of a script are those that were begun, each once, and each has been read until
it ended. -/
structure Script.TablesRead (buffer : Buffer) (signatures : Signatures) (script : Script)
    (records : List (TableKind × Table)) : Prop where
  tables : records.map Prod.snd = script.tableTokens
  count : records.length = script.jumpTables.size + script.subroutineTables.size
  distinct : (records.map fun record => (record.1, record.2.offset)).Nodup
  begun : ∀ kind address, (∃ table, (kind, table) ∈ records ∧ table.offset = address) ↔
    address ∈ script.tables kind
  read : ∀ kind table, (kind, table) ∈ records →
    ∃ rest image, script.ReadThrough buffer signatures kind table rest image

theorem tableTokens_fillGaps {count : Nat} {script filled : Script}
    (hfilled : fillGaps buffer count 0 script = .ok filled) :
    filled.tableTokens = script.tableTokens := by
  refine fillGaps_induction (fun _ filled => filled.tableTokens = script.tableTokens) ?_ ?_ rfl
    hfilled
  · intro index filled hclaimed h
    exact h
  · intro index word filled hunclaimed hword h
    rw [← h]
    simp [Script.tableTokens, Token.table?]

theorem tables_read_of_disassemble {bytes : List UInt8} {script : Script}
    (h : disassemble bytes signatures = .ok script) :
    ∃ records, script.TablesRead (.ofBytes bytes) signatures records := by
  obtain ⟨explored, hend, hfilled⟩ := explored_of_disassemble h
  obtain ⟨records, htables, hperm, hclosed⟩ := hend.records
  have hbegun : explored.script.begun = script.begun := by
    rw [(fillGaps_filled hfilled).rest]
    rfl
  rw [List.flatMap_nil, List.append_nil, hbegun] at hperm
  refine ⟨records, ?_⟩
  constructor
  case tables => rw [htables, tableTokens_fillGaps hfilled]
  case count =>
    have hlength := hperm.length_eq
    rwa [List.length_map, Script.length_begun] at hlength
  case distinct => exact hperm.nodup_iff.mpr script.nodup_begun
  case begun =>
    intro kind address
    rw [← Script.mem_begun, ← hperm.mem_iff, List.mem_map]
    constructor
    · rintro ⟨table, hmem, rfl⟩
      exact ⟨(kind, table), hmem, rfl⟩
    · rintro ⟨⟨other, table⟩, hmem, heq⟩
      cases heq
      exact ⟨table, hmem, rfl⟩
  case read =>
    intro kind table hmem
    exact Script.ReadThrough.of_closed (hclosed _ hmem) hend (fillGaps_grows hfilled)

/-- The first destination of a table is the word after its second entry, which therefore is
the last. -/
def boundedTable : List UInt8 :=
  [4, 0, 0, 0, 0x44, 2, 0, 0, 0, 0, 0, 0, 3, 0, 0, 0x09, 2, 0, 0, 0, 4, 0, 0, 0,
    0x49, 0, 0, 0, 0xff, 0xff, 0xff, 0xff, 0x49, 0, 0, 0]

theorem tables_read_of_boundedTable :
    ∃ script, disassemble boundedTable .empty = .ok script ∧ script.jumpTables.toList = [16] ∧
      script.tableTokens = [⟨16, [24, 32], ["JMP_10_0", "JMP_10_1"]⟩] ∧
      ∃ records, script.TablesRead (.ofBytes boundedTable) .empty records := by
  have hread : (disassemble boundedTable .empty).toOption.map
      (fun script => (script.jumpTables.toList, script.tableTokens)) =
      some ([16], [⟨16, [24, 32], ["JMP_10_0", "JMP_10_1"]⟩]) := by
    cbv
  obtain ⟨script, h, heq⟩ := exists_disassemble hread
  simp only [Prod.mk.injEq] at heq
  obtain ⟨hjump, htables⟩ := heq
  exact ⟨script, h, hjump, htables, tables_read_of_disassemble h⟩

end ScriptDisassembler
