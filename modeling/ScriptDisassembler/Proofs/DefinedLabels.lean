import Mathlib
import ScriptDisassembler.Proofs.ListingRows
import ScriptDisassembler.Proofs.Naming
import ScriptDisassembler.Proofs.Partition
import ScriptDisassembler.Proofs.Recorded

/-!
The names in a listing and their definitions. A row shows the names of the addresses to which its
token refers, and the row of the token at such an address comes directly after the definition of
the name. An operand has no row of its own, so a name is defined nowhere if its address is that
of a word of an operand, or is outside the script.
-/

namespace ScriptDisassembler

section

variable {first second : Int32}

theorem four_dvd_bmod {value : Int} (h : 4 ∣ value) : 4 ∣ value.bmod (2 ^ 32) := by
  rw [Int.bmod_def]
  split <;> omega

theorem four_dvd_toInt_add (hfirst : 4 ∣ first.toInt) (hsecond : 4 ∣ second.toInt) :
    4 ∣ (first + second).toInt := by
  rw [Int32.toInt_add]
  exact four_dvd_bmod (dvd_add hfirst hsecond)

theorem four_dvd_toInt_mul_four (value : Int32) : 4 ∣ (value * 4).toInt := by
  rw [Int32.toInt_mul]
  exact four_dvd_bmod (dvd_mul_left _ _)

theorem four_dvd_toInt_ofNat {n : Nat} (h : n % 4 = 0) : 4 ∣ (Int32.ofNat n).toInt := by
  rw [Int32.toInt_ofNat']
  exact four_dvd_bmod (by omega)

end

variable {buffer : Buffer} {signatures : Signatures}

/-- An inline operand counts words from an instruction, so its value is aligned as the
instruction is. -/
theorem four_dvd_of_resolve {header offset secondary : Nat} {encoding : Encoding} {value : Int32}
    (haligned : header % 4 = 0) (hinline : encoding.isInline = true)
    (h : buffer.resolve header offset secondary encoding = .ok (some value)) :
    4 ∣ value.toInt := by
  have hheader := four_dvd_toInt_ofNat haligned
  cases encoding with
  | inline1 | inline2 | inline3 | inline5 =>
    simp only [Buffer.resolve] at h
    cases hword : buffer.wordAt offset with
    | error fault =>
      rw [hword] at h
      cases h
    | ok word =>
      rw [hword] at h
      cases h
      exact four_dvd_toInt_add hheader (four_dvd_toInt_mul_four _)
  | inline4 | inline6 | inline7 =>
    cases h
    exact four_dvd_toInt_add hheader (by decide)
  | _ => exact absurd hinline (by decide)

/-- The operand denotes no address between two words. -/
def Operand.Aligned (operand : Operand) : Prop :=
  ∀ value, operand.encoding.isInline = true → operand.resolved = some value → 4 ∣ value.toInt

theorem aligned_of_decode {offset : Nat} {instruction : Instruction}
    (h : decode buffer offset = .ok instruction) :
    ∀ operand ∈ instruction.operands, operand.Aligned := by
  obtain ⟨hoffset, haligned, -⟩ := decode_ok h
  rw [← hoffset] at haligned
  intro operand hmem value hinline hvalue
  obtain ⟨place, start, hread⟩ := exists_decodeOperand h hmem
  obtain ⟨word, encoding, raw, resolved, -, -, -, -, hresolved, rfl⟩ := decodeOperand_eq_ok hread
  exact four_dvd_of_resolve haligned hinline (hresolved.trans (congrArg Except.ok hvalue))

/-- The row of a token shows a name. -/
def Token.Shows (name : String) : Token → Prop
  | instruction i => ∃ operand ∈ i.operands, operand.label = some name
  | entrypoint _ _ label => label = name
  | table t => name ∈ t.labels
  | operand _ | data _ _ => False

instance (name : String) : DecidablePred (Token.Shows name)
  | .instruction i =>
    inferInstanceAs (Decidable (∃ operand ∈ i.operands, operand.label = some name))
  | .entrypoint _ _ label => inferInstanceAs (Decidable (label = name))
  | .table t => inferInstanceAs (Decidable (name ∈ t.labels))
  | .operand _ | .data _ _ => inferInstanceAs (Decidable False)

theorem Token.Shows.not_isOperand {token : Token} {name : String} (h : token.Shows name) :
    ¬ token.IsOperand := by
  cases token with
  | operand => exact absurd h id
  | instruction | data | entrypoint | table => exact id

/-- A name that is shown is that of an address to which the token refers. -/
theorem Token.Named.exists_refers {labels : Labels} {token : Token} {name : String}
    (h : token.Named labels) (hshows : token.Shows name) :
    ∃ address, labels.find? address = some name ∧ token.Refers address := by
  cases token with
  | operand | data => exact absurd hshows id
  | entrypoint offset target label =>
    obtain rfl : label = name := hshows
    exact ⟨target, h, rfl⟩
  | instruction instruction =>
    obtain ⟨operand, hmem, hlabel⟩ := hshows
    cases h operand hmem with
    | plain haddress hnone =>
      rw [hnone] at hlabel
      cases hlabel
    | @code address other haddress hother hname =>
      rw [hother] at hlabel
      rw [← hlabel]
      exact ⟨address, hname, operand, hmem, haddress⟩
  | table table =>
    obtain ⟨place, hlt, rfl⟩ := List.mem_iff_getElem.mp hshows
    obtain ⟨hlength, hnames⟩ := List.forall₂_iff_get.mp h
    exact ⟨_, hnames place (by omega) hlt, List.getElem_mem _⟩

section

variable {letters : List Char} {front back : String}

theorem infix_front (back : String) (h : letters <:+: front.toList) :
    letters <:+: (front ++ back).toList := by
  rw [String.toList_append]
  exact h.trans (List.prefix_append _ _).isInfix

theorem infix_back (front : String) (h : letters <:+: back.toList) :
    letters <:+: (front ++ back).toList := by
  rw [String.toList_append]
  exact h.trans (List.suffix_append _ _).isInfix

theorem infix_intercalate {separator text : String} {texts : List String} (h : text ∈ texts) :
    text.toList <:+: (separator.intercalate texts).toList := by
  induction texts with
  | nil => exact absurd h List.not_mem_nil
  | cons first rest ih =>
    cases rest with
    | nil =>
      rw [List.mem_singleton.mp h, String.intercalate_singleton]
    | cons second rest =>
      rw [String.intercalate_cons_cons]
      rcases List.mem_cons.mp h with rfl | hmem
      · exact infix_front _ (infix_front _ (List.infix_refl _))
      · exact infix_back _ (ih hmem)

end

namespace ListingLine

variable {script : Script} {token : Token} {line : ListingLine} {name : String}

/-- A name is shown with a colon in front of it. -/
theorem infix_body (h : ofToken? script signatures token = some line) (hshows : token.Shows name) :
    (":" ++ name).toList <:+: line.body.toList := by
  cases token with
  | operand => cases h
  | data => exact absurd hshows id
  | entrypoint offset target label =>
    cases h
    obtain rfl : label = name := hshows
    rw [String.append_assoc]
    exact infix_back _ (List.infix_refl _)
  | instruction instruction =>
    cases h
    obtain ⟨operand, hoperand, hlabel⟩ := hshows
    have htext : operandText operand = ":" ++ name := by
      unfold operandText
      split
      · next label hsome =>
        rw [hlabel, Option.some.injEq] at hsome
        rw [hsome]
      all_goals
        next hnone _ _ =>
        rw [hlabel] at hnone
        cases hnone
    have hmem : ":" ++ name ∈ instruction.operands.map operandText :=
      htext ▸ List.mem_map_of_mem hoperand
    simp only [instructionText]
    split
    · exact infix_front _ (infix_front _ (infix_back _
        (infix_intercalate (List.mem_cons_of_mem _ hmem))))
    · split
      · next hnil =>
        rw [hnil] at hmem
        exact absurd hmem List.not_mem_nil
      · exact infix_back _ (infix_intercalate hmem)
  | table table =>
    cases h
    have hmem : ":" ++ name ∈ table.labels.map (":" ++ ·) := List.mem_map_of_mem hshows
    exact infix_front _ (infix_back _ (infix_intercalate hmem))

end ListingLine

namespace Script

variable {script : Script} {token : Token} {index address : Nat} {name : String} {hexDump : Bool}

/-- A token other than an operand owns the one slot at which it begins. -/
theorem Layout.offset_of_tokenAt? (h : script.Layout buffer)
    (htoken : script.tokenAt? index = some token) (hkind : ¬ token.IsOperand) :
    token.offset = 4 * index := by
  obtain ⟨id, howner, hat⟩ := Option.bind_eq_some_iff.mp htoken
  have hcovers := h.tiled.covers howner hat
  have hfour := h.tiled.aligned hat
  have hwidth : token.width = 1 := by
    cases token with
    | operand => exact absurd trivial hkind
    | instruction | data | entrypoint | table => rfl
  unfold Token.Covers at hcovers
  omega

/-- At most one token begins at a slot. -/
theorem entries_split (h : script.startAt? index = some token) :
    ∃ front back, script.entries = front ++ token :: back ∧
      ∀ other ∈ front ++ back, other.offset / 4 ≠ index := by
  obtain ⟨hat, -⟩ := startAt?_eq_some.mp h
  obtain ⟨id, howner, -⟩ := Option.bind_eq_some_iff.mp hat
  have hlt := (Array.getElem?_eq_some_iff.mp (slots_of_owner? howner)).1
  obtain ⟨count, hcount⟩ := Nat.exists_eq_add_of_lt hlt
  refine ⟨(List.range' 0 index).filterMap script.startAt?,
    (List.range' (index + 1) count).filterMap script.startAt?, ?_, ?_⟩
  · rw [entries_eq, wordCount, hcount, Nat.add_assoc, ← List.range'_append_1, List.range'_succ,
      Nat.zero_add, List.filterMap_append, List.filterMap_cons_some h]
  · intro other hother
    rw [← List.filterMap_append, List.mem_filterMap] at hother
    obtain ⟨place, hplace, hstart⟩ := hother
    rw [(startAt?_eq_some.mp hstart).2]
    rw [List.mem_append, List.mem_range'_1, List.mem_range'_1] at hplace
    omega

/-- The rows of some tokens. -/
def tokenRows (script : Script) (buffer : Buffer) (signatures : Signatures) (hexDump : Bool)
    (tokens : List Token) : List ListingRow :=
  (tokens.filterMap (ListingLine.ofToken? script signatures)).flatMap fun line =>
    line.rows (line.shown buffer hexDump)

theorem listingRows_eq (script : Script) (buffer : Buffer) (signatures : Signatures)
    (hexDump : Bool) : script.listingRows buffer signatures hexDump =
      script.tokenRows buffer signatures hexDump script.entries := rfl

theorem tokenRows_append (front back : List Token) :
    script.tokenRows buffer signatures hexDump (front ++ back) =
      script.tokenRows buffer signatures hexDump front ++
        script.tokenRows buffer signatures hexDump back := by
  rw [tokenRows, List.filterMap_append, List.flatMap_append]
  rfl

/-- Only for a token at an address that has the name, the name is defined. -/
theorem not_mem_tokenRows {tokens : List Token}
    (h : ∀ token ∈ tokens, ¬ token.IsOperand → script.labels.find? token.offset ≠ some name) :
    .definition name ∉ script.tokenRows buffer signatures hexDump tokens := by
  intro hmem
  obtain ⟨line, hline, hrow⟩ := List.mem_flatMap.mp hmem
  obtain ⟨token, htoken, heq⟩ := List.mem_filterMap.mp hline
  have hlabel := (ListingLine.offset_of_ofToken? heq).2
  apply h token htoken (ListingLine.not_isOperand_of_ofToken? heq)
  rw [← hlabel]
  unfold ListingLine.rows at hrow
  cases hlabelled : line.label with
  | none => simp [hlabelled] at hrow
  | some other =>
    simp only [hlabelled, List.mem_cons, ListingRow.definition.injEq, reduceCtorEq, false_or,
      or_false, List.not_mem_nil] at hrow
    rw [hrow]

theorem tokenRows_named {line : ListingLine} (back : List Token)
    (hline : ListingLine.ofToken? script signatures token = some line)
    (hname : script.labels.find? token.offset = some name) :
    script.tokenRows buffer signatures hexDump (token :: back) =
      .blank :: .definition name :: .token line (line.shown buffer hexDump) ::
        script.tokenRows buffer signatures hexDump back := by
  rw [tokenRows, List.filterMap_cons_some hline, List.flatMap_cons, ListingLine.rows,
    (ListingLine.offset_of_ofToken? hline).2, hname]
  rfl

theorem count_definition (rows : List ListingRow) (label : Label) :
    (rows.map ListingRow.text).count (label.text ++ ":") =
      rows.count (.definition label.text) := by
  rw [List.count_eq_countP, List.countP_map, List.count_eq_countP]
  apply List.countP_congr
  intro row _
  simp only [Function.comp_apply, beq_iff_eq, ListingRow.text_eq_definition_iff]

/-- The name of an address is defined once and for the token at the address, if that is not a
part of an instruction. -/
structure Defines (script : Script) (signatures : Signatures) (rows : List ListingRow)
    (name : String) (address : Nat) : Prop where
  named : ∀ other, script.labels.find? other = some name ↔ other = address
  once : ∀ token, script.tokenAt? (address / 4) = some token → ¬ token.IsOperand →
    (rows.map ListingRow.text).count (name ++ ":") = 1 ∧ token.offset = address ∧
    ∃ front back line shown, ListingLine.ofToken? script signatures token = some line ∧
      rows = front ++ .definition name :: .token line shown :: back
  nowhere : (∀ token, script.tokenAt? (address / 4) = some token → token.IsOperand) →
    (rows.map ListingRow.text).count (name ++ ":") = 0

theorem defines (hlayout : script.Layout buffer) (hlabels : script.labels.Fitting buffer)
    (hname : script.labels.find? address = some name) (haligned : address % 4 = 0) :
    script.Defines signatures (script.listingRows buffer signatures hexDump) name address := by
  obtain ⟨label, rfl, -⟩ := hlabels.fits hname
  have hother : ∀ {other : Nat}, script.labels.find? other = some label.text → other = address :=
    fun hfind => hlabels.distinct.injective hfind hname
  constructor
  case named =>
    intro other
    refine ⟨hother, ?_⟩
    rintro rfl
    exact hname
  case once =>
    intro token htoken hkind
    have hoffset : token.offset = address := by
      rw [hlayout.offset_of_tokenAt? htoken hkind]
      omega
    have hstart : script.startAt? (address / 4) = some token :=
      startAt?_eq_some.mpr ⟨htoken, by rw [hoffset]⟩
    obtain ⟨front, back, hentries, hapart⟩ := entries_split hstart
    obtain ⟨line, hline⟩ := ListingLine.exists_ofToken? script signatures hkind
    have hrows : script.listingRows buffer signatures hexDump =
        script.tokenRows buffer signatures hexDump front ++
          .blank :: .definition label.text :: .token line (line.shown buffer hexDump) ::
            script.tokenRows buffer signatures hexDump back := by
      rw [listingRows_eq, hentries, tokenRows_append, tokenRows_named back hline (hoffset ▸ hname)]
    have hnone : ∀ tokens, (∀ other ∈ tokens, other ∈ front ++ back) →
        (script.tokenRows buffer signatures hexDump tokens).count (.definition label.text) = 0 := by
      intro tokens hmem
      apply List.count_eq_zero.mpr
      apply not_mem_tokenRows
      intro other hin _ hfind
      exact hapart other (hmem other hin) (by rw [hother hfind])
    refine ⟨?_, hoffset, script.tokenRows buffer signatures hexDump front ++ [.blank],
      script.tokenRows buffer signatures hexDump back, line, line.shown buffer hexDump, hline, ?_⟩
    · rw [count_definition, hrows, List.count_append, hnone front (by simp +contextual),
        List.count_cons_of_ne (by simp), List.count_cons_self, List.count_cons_of_ne (by simp),
        hnone back (by simp +contextual)]
    · rw [hrows, List.append_cons]
  case nowhere =>
    intro hoperand
    rw [count_definition, List.count_eq_zero, listingRows_eq]
    apply not_mem_tokenRows
    intro token hmem hkind hfind
    obtain ⟨index, -, hstart⟩ := mem_entries.mp hmem
    obtain ⟨hat, hindex⟩ := startAt?_eq_some.mp hstart
    rw [hother hfind] at hindex
    rw [← hindex] at hat
    exact hkind (hoperand token hat)

end Script

/-- The address to which a token refers is that of a word, or would be. -/
theorem Token.Refers.aligned {script : Script} {token : Token} {address : Nat}
    (h : token.Refers address) (hlayout : script.Layout buffer) (hfaithful : script.Faithful buffer)
    (hentrypoints : ∀ offset target name, .entrypoint offset target name ∈ script.tokens →
      target % 4 = 0)
    (hmem : token ∈ script.tokens) : address % 4 = 0 := by
  cases token with
  | operand | data => exact absurd h id
  | entrypoint offset target name =>
    obtain rfl : address = target := h
    exact hentrypoints offset address name hmem
  | instruction instruction =>
    obtain ⟨operand, hoperand, haddress⟩ := h
    obtain ⟨id, htoken⟩ := Array.getElem?_of_mem hmem
    obtain ⟨hinline, value, hvalue, hsame⟩ := Operand.codeAddress?_eq_some.mp haddress
    have haligned := aligned_of_decode (hlayout.decoded htoken) operand.bare
      (List.mem_map_of_mem hoperand) value hinline hvalue
    omega
  | table table =>
    obtain ⟨place, hlt, rfl⟩ := List.mem_iff_getElem.mp h
    obtain ⟨id, htoken⟩ := Array.getElem?_of_mem hmem
    have haligned : table.offset % 4 = 0 := hlayout.tiled.aligned htoken
    have hdisplaced : Displaced buffer table.offset table.destinations :=
      hfaithful.reads _ hmem
    obtain ⟨word, -, heq⟩ := hdisplaced (List.getElem?_eq_getElem hlt)
    omega

/-- The words of a line are there to be read. -/
theorem Script.Layout.exists_words {script : Script} {line : ListingLine}
    (h : script.Layout buffer) (hmem : line ∈ script.listingLines signatures) :
    ∃ words, buffer.wordsAt line.offset line.width = .ok words := by
  obtain ⟨token, htoken, hline⟩ := List.mem_filterMap.mp hmem
  obtain ⟨index, hlt, hstart⟩ := mem_entries.mp htoken
  obtain ⟨hat, hindex⟩ := startAt?_eq_some.mp hstart
  obtain ⟨id, -, hid⟩ := Option.bind_eq_some_iff.mp hat
  have haligned := h.tiled.aligned hid
  have hone : token.offset + 4 * 1 ≤ buffer.length := by
    rw [h.wordCount_eq] at hlt
    unfold Buffer.length
    omega
  cases token with
  | operand => cases hline
  | instruction instruction =>
    cases hline
    have hnext := (decode_ok (h.decoded hid)).2.2.2.2.1
    rw [Instruction.next_bare] at hnext
    exact exists_wordsAt haligned hnext
  | data | entrypoint | table =>
    cases hline
    exact exists_wordsAt haligned hone

theorem Labels.Fitting.oneLine {labels : Labels} {address : Nat} {name : String}
    (h : labels.Fitting buffer) (hname : labels.find? address = some name) : Text.OneLine name := by
  obtain ⟨label, rfl, -⟩ := h.fits hname
  exact label.oneLine_text

/-- The listing of a script, and where the names that it shows are defined. -/
structure Script.LabelsDefined (bytes : List UInt8) (signatures : Signatures) (script : Script)
    (hexDump : Bool) (rows : List ListingRow) : Prop where
  listing : script.listing (.ofBytes bytes) signatures hexDump = .ok (printed rows)
  lines : (∀ method ∈ signatures.methods, Text.OneLine method.name) →
    Text.lines (printed rows) = rows.map ListingRow.text ++ [""]
  shown : ∀ token ∈ script.entries, ∀ name, token.Shows name → ∃ line shown,
    ListingLine.ofToken? script signatures token = some line ∧ .token line shown ∈ rows ∧
      (":" ++ name).toList <:+: line.body.toList
  defined : ∀ token ∈ script.entries, ∀ name, token.Shows name → ∃ address,
    token.Refers address ∧ script.Defines signatures rows name address

theorem labels_defined_of_disassemble {bytes : List UInt8} {script : Script}
    (h : disassemble bytes signatures = .ok script) (hexDump : Bool) :
    script.LabelsDefined bytes signatures hexDump
      (script.listingRows (.ofBytes bytes) signatures hexDump) := by
  obtain ⟨explored, hend, hfilled⟩ := explored_of_disassemble h
  have hgaps := fillGaps_filled hfilled
  have hregistered := hend.registered.filled hgaps
  have hheaded := hend.headed.filled hgaps (fillGaps_grows hfilled)
  have hlabels := (reachable_of_disassemble h).fitting
  obtain ⟨hlayout, -⟩ := Script.Layout.disassembled h
  have hfaithful := faithful_of_disassemble h
  have hentrypoints : ∀ offset target name,
      .entrypoint offset target name ∈ script.tokens → target % 4 = 0 := by
    intro offset target name hmem
    have hentered := hheaded.entrypoint.mpr ⟨offset, name, hmem⟩
    rw [hgaps.rest] at hentered
    exact (hend.script_bounded.entrypoints target hentered).1
  constructor
  case listing =>
    exact Script.listing_eq_printed hexDump fun line hline => hlayout.exists_words hline
  case lines =>
    intro hmethods
    apply lines_printed
    intro row hrow
    obtain ⟨line, hline, hmem⟩ := List.mem_flatMap.mp hrow
    obtain ⟨token, htoken, heq⟩ := List.mem_filterMap.mp hline
    apply ListingLine.oneLine_rows _ ?_ ?_ row hmem
    · exact ListingLine.oneLine_body heq
        (hregistered.named token (Script.mem_tokens_of_mem_entries htoken)) hlabels.oneLine hmethods
    · intro name hname
      rw [(ListingLine.offset_of_ofToken? heq).2] at hname
      exact hlabels.oneLine hname
  case shown =>
    intro token hmem name hshows
    obtain ⟨line, hline⟩ :=
      ListingLine.exists_ofToken? script signatures hshows.not_isOperand
    refine ⟨line, line.shown (.ofBytes bytes) hexDump, hline, ?_,
      ListingLine.infix_body hline hshows⟩
    exact List.mem_flatMap.mpr ⟨line, List.mem_filterMap.mpr ⟨token, hmem, hline⟩,
      line.token_mem_rows _⟩
  case defined =>
    intro token hmem name hshows
    have htoken := Script.mem_tokens_of_mem_entries hmem
    obtain ⟨address, hname, hrefers⟩ := (hregistered.named token htoken).exists_refers hshows
    have haligned := hrefers.aligned hlayout hfaithful hentrypoints htoken
    exact ⟨address, hrefers, Script.defines hlayout hlabels hname haligned⟩

/-- A call of a subroutine behind the return of the script. -/
def calledSubroutine : List UInt8 :=
  [4, 0, 0, 0, 0x48, 1, 0, 0, 3, 0, 0, 0x09, 0x49, 0, 0, 0, 0x49, 0, 0, 0]

theorem labels_defined_of_calledSubroutine :
    ∃ script, disassemble calledSubroutine .empty = .ok script ∧
      script.listing (.ofBytes calledSubroutine) .empty false =
        .ok ("00000 entrypoint    :ENTRYPOINT_0\n\nENTRYPOINT_0:\n00004 gosub         :LABEL_1\n" ++
          "0000c return\n\nLABEL_1:\n00010 return\n") ∧
      script.LabelsDefined calledSubroutine .empty false
        (script.listingRows (.ofBytes calledSubroutine) .empty false) := by
  have hread : (disassemble calledSubroutine .empty).toOption.map
      (fun script => script.listing (.ofBytes calledSubroutine) .empty false) =
      some (.ok ("00000 entrypoint    :ENTRYPOINT_0\n\nENTRYPOINT_0:\n" ++
        "00004 gosub         :LABEL_1\n0000c return\n\nLABEL_1:\n00010 return\n")) := by
    cbv
  obtain ⟨script, h, hlisting⟩ := exists_disassemble hread
  exact ⟨script, h, hlisting, labels_defined_of_disassemble h false⟩

/-- A listing shows a name that is defined in none of its lines. -/
def Undefined (bytes : List UInt8) (name : String) : Prop :=
  ∃ script text, disassemble bytes .empty = .ok script ∧
    (∃ token ∈ script.entries, token.Shows name) ∧
    script.listing (.ofBytes bytes) .empty false = .ok text ∧ name ++ ":" ∉ Text.lines text

theorem Undefined.of_reading {bytes : List UInt8} {name text : String}
    (hread : (disassemble bytes .empty).toOption.map (fun script =>
      (decide (∃ token ∈ script.entries, token.Shows name),
        script.listing (.ofBytes bytes) .empty false)) = some (true, .ok text))
    (hlines : name ++ ":" ∉ Text.lines text) : Undefined bytes name := by
  obtain ⟨script, h, heq⟩ := exists_disassemble hread
  rw [Prod.mk.injEq, decide_eq_true_eq] at heq
  exact ⟨script, text, h, heq.1, heq.2, hlines⟩

/-- The second entrypoint leads into the operand of the instruction to which the first leads,
and the operand reads like an instruction. -/
def innerEntrypoint : List UInt8 :=
  [8, 0, 0, 0, 12, 0, 0, 0, 2, 1, 0, 0, 0x49, 0, 0, 0]

/-- A jump beyond the end of the script. -/
def farJump : List UInt8 :=
  [4, 0, 0, 0, 0x40, 1, 0, 0, 5, 0, 0, 0x09]

/-- Neither the name of the second entrypoint nor that of the target of the jump is defined. -/
theorem undefined_labels :
    Undefined innerEntrypoint "ENTRYPOINT_1" ∧ Undefined farJump "LABEL_1" := by
  constructor
  · have hread : (disassemble innerEntrypoint .empty).toOption.map (fun script =>
        (decide (∃ token ∈ script.entries, token.Shows "ENTRYPOINT_1"),
          script.listing (.ofBytes innerEntrypoint) .empty false)) =
        some (true, .ok ("00000 entrypoint    :ENTRYPOINT_0\n" ++
          "00004 entrypoint    :ENTRYPOINT_1\n\nENTRYPOINT_0:\n00008 wait          0x49\n")) := by
      cbv
    exact .of_reading hread (by decide +kernel)
  · have hread : (disassemble farJump .empty).toOption.map (fun script =>
        (decide (∃ token ∈ script.entries, token.Shows "LABEL_1"),
          script.listing (.ofBytes farJump) .empty false)) =
        some (true, .ok ("00000 entrypoint    :ENTRYPOINT_0\n\nENTRYPOINT_0:\n" ++
          "00004 jmp           :LABEL_1\n")) := by
      cbv
    exact .of_reading hread (by decide +kernel)

end ScriptDisassembler
