import Mathlib
import ScriptDisassembler.Listing
import ScriptDisassembler.Proofs.Faithful
import ScriptDisassembler.Proofs.References
import ScriptDisassembler.Proofs.TextLines

/-!
The rows of a listing. A line of a listing is printed in one row, or in three if the offset of
its token has a name: an empty row and the definition of the name come first. A row of a token
begins with a digit and a definition with a capital letter, so neither is taken for the other;
and where the names of the methods are of one line, the rows are the lines of the text.
-/

namespace ScriptDisassembler

theorem Label.oneLine_text (label : Label) : Text.OneLine label.text := by
  cases label with
  | entrypoint index =>
    exact (by decide : Text.OneLine "ENTRYPOINT_").append (Text.oneLine_toString index)
  | code number => exact (by decide : Text.OneLine "LABEL_").append (Text.oneLine_toString number)
  | tableEntry table index =>
    have htable := (by decide : Text.OneLine "JMP_").append (Text.oneLine_hex table)
    exact (htable.append (by decide : Text.OneLine "_")).append (Text.oneLine_toString index)

/-- A name begins with a capital letter. -/
theorem Label.exists_head?_text (label : Label) (back : String) :
    ∃ first ∉ Text.hexDigits, (label.text ++ back).toList.head? = some first := by
  cases label with
  | entrypoint => exact ⟨'E', by decide, by simp [text, String.toList_append]⟩
  | code => exact ⟨'L', by decide, by simp [text, String.toList_append]⟩
  | tableEntry => exact ⟨'J', by decide, by simp [text, String.toList_append]⟩

/-- One row of a listing, as it is printed. -/
inductive ListingRow where
  | blank
  | definition (name : String)
  | token (line : ListingLine) (shown : Option (List Word))
deriving DecidableEq

namespace ListingRow

/-- The words in front of a row, if they are shown. -/
def dump : Option (List Word) → String
  | some words => String.join (words.map fun word => Text.hexPadded 8 word.toNat ++ " ") ++ "| "
  | none => ""

def text : ListingRow → String
  | blank => ""
  | definition name => name ++ ":"
  | token line shown => Text.hexPadded 5 line.offset ++ " " ++ dump shown ++ line.body

theorem exists_head?_token (line : ListingLine) (shown : Option (List Word)) :
    ∃ digit ∈ Text.hexDigits, (token line shown).text.toList.head? = some digit := by
  obtain ⟨digit, hdigit, hhead⟩ :=
    Text.exists_head?_hexPadded (n := line.offset) (by decide : 0 < 5)
  refine ⟨digit, hdigit, ?_⟩
  simp only [text, String.toList_append, List.append_assoc, List.head?_append, hhead,
    Option.some_or]

/-- Nothing but the definition of a name reads like it. -/
theorem text_eq_definition_iff {row : ListingRow} (label : Label) :
    row.text = label.text ++ ":" ↔ row = definition label.text := by
  constructor
  · intro htext
    obtain ⟨first, hfirst, hhead⟩ := label.exists_head?_text ":"
    rw [← htext] at hhead
    cases row with
    | blank => cases hhead
    | definition name =>
      have hletters := congrArg String.toList htext
      rw [text, String.toList_append, String.toList_append, List.append_left_inj] at hletters
      rw [String.toList_injective hletters]
    | token line shown =>
      obtain ⟨digit, hdigit, hother⟩ := exists_head?_token line shown
      rw [hhead, Option.some.injEq] at hother
      exact absurd (hother ▸ hdigit) hfirst
  · rintro rfl
    rfl

end ListingRow

namespace ListingLine

/-- The rows in which a line is printed. -/
def rows (line : ListingLine) (shown : Option (List Word)) : List ListingRow :=
  match line.label with
  | some name => [.blank, .definition name, .token line shown]
  | none => [.token line shown]

/-- The words of a line that are shown. -/
def shown (line : ListingLine) (buffer : Buffer) (hexDump : Bool) : Option (List Word) :=
  if hexDump then (buffer.wordsAt line.offset line.width).toOption else none

end ListingLine

/-- The text of some rows. -/
def printed (rows : List ListingRow) : String :=
  Text.unlines (rows.map ListingRow.text)

theorem printed_append (front back : List ListingRow) :
    printed (front ++ back) = printed front ++ printed back := by
  rw [printed, List.map_append, Text.unlines_append, ← printed, ← printed]

theorem lines_printed {rows : List ListingRow} (h : ∀ row ∈ rows, Text.OneLine row.text) :
    Text.lines (printed rows) = rows.map ListingRow.text ++ [""] := by
  apply Text.lines_unlines
  intro text hmem
  obtain ⟨row, hrow, rfl⟩ := List.mem_map.mp hmem
  exact h row hrow

theorem ListingLine.text_eq_printed (line : ListingLine) (shown : Option (List Word)) :
    line.text shown = printed (line.rows shown) := by
  have htext : line.text shown = (match line.label with
        | some label => "\n" ++ label ++ ":\n"
        | none => "") ++ Text.hexPadded 5 line.offset ++ " " ++ ListingRow.dump shown ++
      line.body ++ "\n" := by
    unfold ListingLine.text
    cases shown <;> rfl
  have hbreak : (":\n" : String) = ":" ++ "\n" := by decide
  rw [htext, rows]
  cases line.label with
  | none =>
    simp only [printed, List.map_cons, List.map_nil, Text.unlines_cons, Text.unlines_nil,
      ListingRow.text, String.append_assoc, String.empty_append, String.append_empty]
  | some name =>
    simp only [printed, List.map_cons, List.map_nil, Text.unlines_cons, Text.unlines_nil,
      ListingRow.text, String.append_assoc, String.empty_append, String.append_empty, hbreak]

/-- The rows of a listing, from the first to the last. -/
def Script.listingRows (script : Script) (buffer : Buffer) (signatures : Signatures)
    (hexDump : Bool) : List ListingRow :=
  (script.listingLines signatures).flatMap fun line => line.rows (line.shown buffer hexDump)

theorem mapM_eq_ok {α β ε : Type} {f : α → Except ε β} {g : α → β} {list : List α}
    (h : ∀ a ∈ list, f a = .ok (g a)) : list.mapM f = .ok (list.map g) := by
  induction list with
  | nil => rfl
  | cons head tail ih =>
    obtain ⟨hhead, htail⟩ := List.forall_mem_cons.mp h
    rw [List.mapM_cons, hhead, ih htail]
    rfl

theorem printed_flatMap {α : Type} (f : α → List ListingRow) (list : List α) :
    printed (list.flatMap f) = String.join (list.map fun a => printed (f a)) := by
  induction list with
  | nil => rfl
  | cons head tail ih =>
    rw [List.flatMap_cons, printed_append, ih, List.map_cons, String.join_cons]

/-- Where the words of every line are there to be read, the listing is its rows. -/
theorem Script.listing_eq_printed {script : Script} {buffer : Buffer} {signatures : Signatures}
    (hexDump : Bool)
    (hwords : ∀ line ∈ script.listingLines signatures,
      ∃ words, buffer.wordsAt line.offset line.width = .ok words) :
    script.listing buffer signatures hexDump =
      .ok (printed (script.listingRows buffer signatures hexDump)) := by
  have hrender : ∀ line ∈ script.listingLines signatures,
      line.render buffer hexDump = .ok (printed (line.rows (line.shown buffer hexDump))) := by
    intro line hmem
    obtain ⟨words, hwords⟩ := hwords line hmem
    rw [← ListingLine.text_eq_printed, ListingLine.render, ListingLine.shown, hwords]
    cases hexDump <;> rfl
  rw [listing, mapM_eq_ok hrender, listingRows, printed_flatMap]
  rfl

namespace ListingLine

variable {script : Script} {signatures : Signatures} {token : Token} {line : ListingLine}

theorem offset_of_ofToken? (h : ofToken? script signatures token = some line) :
    line.offset = token.offset ∧ line.label = script.labels.find? token.offset := by
  cases token with
  | operand => cases h
  | instruction | data | entrypoint | table =>
    cases h
    exact ⟨rfl, rfl⟩

theorem exists_ofToken? (script : Script) (signatures : Signatures) (h : ¬ token.IsOperand) :
    ∃ line, ofToken? script signatures token = some line := by
  cases token with
  | operand => exact absurd trivial h
  | instruction | data | entrypoint | table => exact ⟨_, rfl⟩

theorem not_isOperand_of_ofToken? (h : ofToken? script signatures token = some line) :
    ¬ token.IsOperand := by
  cases token with
  | operand => cases h
  | instruction | data | entrypoint | table => exact id

/-- The operands stand in a column of their own. -/
theorem oneLine_mnemonic {name body : String} (hname : Text.OneLine name)
    (hbody : Text.OneLine body) :
    Text.OneLine (name ++ String.ofList (List.replicate (14 - name.length) ' ') ++ body) := by
  have hblanks : Text.OneLine (String.ofList (List.replicate (14 - name.length) ' ')) := by
    intro hbreak
    rw [String.toList_ofList] at hbreak
    exact absurd (List.eq_of_mem_replicate hbreak) (by decide)
  exact (hname.append hblanks).append hbody

theorem oneLine_operandText {labels : Labels} {operand : Operand} (hnamed : operand.Named labels)
    (hlabels : ∀ {address name}, labels.find? address = some name → Text.OneLine name) :
    Text.OneLine (operandText operand) := by
  have hencoding : Text.OneLine (operand.encoding.name ++ "[") := by
    cases operand.encoding <;> decide
  have hwords : Text.OneLine (", ".intercalate
      (operand.raw.map fun word => "0x" ++ Text.hexPadded 8 word.toNat)) := by
    apply Text.oneLine_intercalate (by decide)
    intro text hmem
    obtain ⟨word, -, rfl⟩ := List.mem_map.mp hmem
    exact (by decide : Text.OneLine "0x").append (Text.oneLine_hexPadded 8 _)
  unfold operandText
  split
  · next label hlabel =>
    cases hnamed with
    | plain haddress hnone =>
      rw [hnone] at hlabel
      cases hlabel
    | code haddress hsome hname =>
      rw [hsome, Option.some.injEq] at hlabel
      rw [← hlabel]
      exact (by decide : Text.OneLine ":").append (hlabels hname)
  · exact (by decide : Text.OneLine "0x").append (Text.oneLine_hex _)
  · exact (by decide : Text.OneLine "0x").append (Text.oneLine_hex _)
  · exact (hencoding.append hwords).append (by decide)

theorem oneLine_instructionText {instruction : Instruction}
    (hoperands : ∀ operand ∈ instruction.operands, Text.OneLine (operandText operand))
    (hmethods : ∀ method ∈ signatures.methods, Text.OneLine method.name) :
    Text.OneLine (instructionText signatures instruction) := by
  have hname : Text.OneLine instruction.opcode.name := by
    cases instruction.opcode <;> decide
  have htexts : ∀ text ∈ instruction.operands.map operandText, Text.OneLine text := by
    intro text hmem
    obtain ⟨operand, hoperand, rfl⟩ := List.mem_map.mp hmem
    exact hoperands operand hoperand
  have hmethod : Text.OneLine (((signatures.method? instruction.immediate.toNat).map
      Method.name).getD "?") := by
    cases hfound : signatures.method? instruction.immediate.toNat with
    | none => decide
    | some method => exact hmethods method (List.mem_of_getElem? hfound)
  unfold instructionText
  simp only
  split
  · have harguments := Text.oneLine_intercalate (by decide : Text.OneLine ", ")
      (List.forall_mem_cons.mpr ⟨Text.oneLine_toString instruction.immediate.toNat, htexts⟩)
    exact ((oneLine_mnemonic hname harguments).append (by decide)).append hmethod
  · split
    · exact hname
    · exact oneLine_mnemonic hname (Text.oneLine_intercalate (by decide) htexts)

theorem oneLine_body (h : ofToken? script signatures token = some line)
    (hnamed : token.Named script.labels)
    (hlabels : ∀ {address name}, script.labels.find? address = some name → Text.OneLine name)
    (hmethods : ∀ method ∈ signatures.methods, Text.OneLine method.name) :
    Text.OneLine line.body := by
  cases token with
  | operand => cases h
  | instruction instruction =>
    cases h
    apply oneLine_instructionText ?_ hmethods
    intro operand hmem
    exact oneLine_operandText (hnamed operand hmem) hlabels
  | data offset value =>
    cases h
    exact (oneLine_mnemonic (by decide) (by decide)).append (Text.oneLine_hexPadded 8 _)
  | entrypoint offset target label =>
    cases h
    exact (oneLine_mnemonic (by decide) (by decide)).append (hlabels hnamed)
  | table table =>
    cases h
    have hdestinations : ∀ text ∈ table.labels.map (":" ++ ·), Text.OneLine text := by
      intro text hmem
      obtain ⟨label, hlabel, rfl⟩ := List.mem_map.mp hmem
      obtain ⟨place, hlt, rfl⟩ := List.mem_iff_getElem.mp hlabel
      obtain ⟨hlength, hnames⟩ := List.forall₂_iff_get.mp hnamed
      have hname := hnames place (by omega) hlt
      exact (by decide : Text.OneLine ":").append (hlabels hname)
    exact ((oneLine_mnemonic (by decide) (by decide)).append
      (Text.oneLine_intercalate (by decide) hdestinations)).append (by decide)

theorem token_mem_rows (line : ListingLine) (shown : Option (List Word)) :
    .token line shown ∈ line.rows shown := by
  unfold rows
  cases line.label <;> simp

theorem oneLine_rows (shown : Option (List Word)) (hbody : Text.OneLine line.body)
    (hlabel : ∀ name, line.label = some name → Text.OneLine name) :
    ∀ row ∈ line.rows shown, Text.OneLine row.text := by
  have hwords : ∀ words : List Word, Text.OneLine
      (String.join (words.map fun word => Text.hexPadded 8 word.toNat ++ " ")) := by
    intro words
    apply Text.oneLine_join
    intro text hmem
    obtain ⟨word, -, rfl⟩ := List.mem_map.mp hmem
    exact (Text.oneLine_hexPadded 8 _).append (by decide)
  have hdump : Text.OneLine (ListingRow.dump shown) := by
    cases shown with
    | none => decide
    | some words => exact (hwords words).append (by decide)
  have htoken : Text.OneLine (ListingRow.token line shown).text :=
    (((Text.oneLine_hexPadded 5 _).append (by decide)).append hdump).append hbody
  unfold rows
  cases hname : line.label with
  | none => exact List.forall_mem_singleton.mpr htoken
  | some name =>
    have hdefinition : Text.OneLine (ListingRow.definition name).text :=
      (hlabel name hname).append (by decide)
    exact List.forall_mem_cons.mpr ⟨by decide,
      List.forall_mem_cons.mpr ⟨hdefinition, List.forall_mem_singleton.mpr htoken⟩⟩

end ListingLine

end ScriptDisassembler
