import Mathlib
import ScriptDisassembler.Definitions.Compile
import ScriptDisassembler.Proofs.Trimming

/-!
How a definition may be written on a line. There may be blanks before the keyword and around each
field, anything may follow the closing parenthesis, and a byte may be in decimal or in hexadecimal
notation. However it is written, the same definition is read.
-/

namespace ScriptDisassembler

namespace Text

/-- Blanks within a line. -/
def Blanks (text : List Char) : Prop :=
  ∀ c ∈ text, isBlank c = true ∧ c ≠ '\n'

theorem Blanks.notMem {text : List Char} {c : Char} (h : Blanks text)
    (hc : isBlank c = false ∨ c = '\n') : c ∉ text := by
  intro hmem
  obtain ⟨hblank, hbreak⟩ := h c hmem
  rcases hc with hsolid | heq
  · rw [hblank] at hsolid
    cases hsolid
  · exact hbreak heq

end Text

open Text

namespace Definitions

/-! Fields between commas. -/

theorem intercalate_cons {separator : Char} (first : List Char) {rest : List (List Char)}
    (h : rest ≠ []) : [separator].intercalate (first :: rest) =
      first ++ separator :: [separator].intercalate rest := by
  rw [List.intercalate_cons_of_ne_nil h, List.append_assoc]
  rfl

theorem notMem_intercalate {c separator : Char} {pieces : List (List Char)} (hne : c ≠ separator)
    (h : ∀ piece ∈ pieces, c ∉ piece) : c ∉ [separator].intercalate pieces := by
  induction pieces with
  | nil => exact List.not_mem_nil
  | cons first rest ih =>
    obtain ⟨hfirst, hrest⟩ := List.forall_mem_cons.mp h
    cases rest with
    | nil => rwa [List.intercalate_singleton]
    | cons second others =>
      rw [intercalate_cons first (List.cons_ne_nil second others), List.mem_append, List.mem_cons]
      rintro (hmem | heq | hmem)
      · exact hfirst hmem
      · exact hne heq
      · exact ih hrest hmem

/-- Blanks at the end of the last piece do not count. -/
theorem map_trim_splitOn_rdropWhile {pieces : List (List Char)} (hne : pieces ≠ [])
    (h : ∀ piece ∈ pieces, ',' ∉ piece) :
    ((([','].intercalate pieces).rdropWhile isBlank).splitOn ',').map trim = pieces.map trim := by
  induction pieces with
  | nil => exact absurd rfl hne
  | cons first rest ih =>
    obtain ⟨hfirst, hrest⟩ := List.forall_mem_cons.mp h
    cases rest with
    | nil =>
      have hlast : ',' ∉ first.rdropWhile isBlank :=
        fun hmem => hfirst ((List.rdropWhile_prefix isBlank first).subset hmem)
      rw [List.intercalate_singleton, List.splitOn_eq_singleton hlast, List.map_singleton,
        trim_rdropWhile, List.map_singleton]
    | cons second others =>
      have hcons := List.cons_ne_nil second others
      rw [intercalate_cons first hcons, rdropWhile_append_cons (by decide),
        List.splitOn_append_cons_self_of_not_mem hfirst, List.map_cons, ih hcons hrest]
      rfl

/-- Blanks at either end of the pieces do not count. -/
theorem map_trim_splitOn_trim {pieces : List (List Char)} (hne : pieces ≠ [])
    (h : ∀ piece ∈ pieces, ',' ∉ piece) :
    ((trim ([','].intercalate pieces)).splitOn ',').map trim = pieces.map trim := by
  obtain ⟨first, rest, rfl⟩ := List.exists_cons_of_ne_nil hne
  obtain ⟨hfirst, hrest⟩ := List.forall_mem_cons.mp h
  have hfront : ([','].intercalate (first :: rest)).dropWhile isBlank =
      [','].intercalate (first.dropWhile isBlank :: rest) := by
    cases rest with
    | nil => rw [List.intercalate_singleton, List.intercalate_singleton]
    | cons second others =>
      have hcons := List.cons_ne_nil second others
      rw [intercalate_cons _ hcons, intercalate_cons _ hcons, dropWhile_append_cons (by decide)]
  have hpieces : ∀ piece ∈ first.dropWhile isBlank :: rest, ',' ∉ piece :=
    List.forall_mem_cons.mpr ⟨fun hmem => hfirst (List.dropWhile_subset isBlank hmem), hrest⟩
  rw [trim_eq_rdropWhile, hfront, map_trim_splitOn_rdropWhile (List.cons_ne_nil _ _) hpieces,
    List.map_cons, trim_dropWhile, List.map_cons]

theorem insideParenthesis?_append {inside : List Char} (h : ')' ∉ inside) (rest : List Char) :
    insideParenthesis? (inside ++ ')' :: rest) = some inside := by
  have hinside : ∀ c ∈ inside, (c != ')') = true := by
    intro c hmem
    rw [bne_iff_ne]
    rintro rfl
    exact h hmem
  have hend : (')' :: rest).takeWhile (· != ')') = [] := rfl
  rw [insideParenthesis?, if_pos (by simp), List.takeWhile_append_of_pos hinside, hend,
    List.append_nil]

/-- Between the keyword and the first closing parenthesis of a line are its fields. -/
theorem fields?_eq_some {lead keyword trail : List Char} {first : Char}
    {pieces : List (List Char)} (hkeyword : isBlank first = false)
    (hlead : ∀ c ∈ lead, isBlank c = true) (hne : pieces ≠ [])
    (hcomma : ∀ piece ∈ pieces, ',' ∉ piece) (hparenthesis : ∀ piece ∈ pieces, ')' ∉ piece) :
    fields? (first :: keyword)
        (lead ++ first :: keyword ++ '(' :: ([','].intercalate pieces ++ ')' :: trail)) =
      some (pieces.map trim) := by
  have hinside : ')' ∉ [','].intercalate pieces := notMem_intercalate (by decide) hparenthesis
  have hfields := map_trim_splitOn_trim hne hcomma
  generalize [','].intercalate pieces = inside at hinside hfields
  have hline : lead ++ first :: keyword ++ '(' :: (inside ++ ')' :: trail) =
      lead ++ first :: (keyword ++ '(' :: inside) ++ ')' :: trail := by simp
  have hfront : lead.dropWhile isBlank = [] := List.dropWhile_eq_nil_iff.mpr hlead
  -- Neither the keyword nor the parenthesis is blank, so trimming does not reach the fields.
  have htrim : trim (lead ++ first :: keyword ++ '(' :: (inside ++ ')' :: trail)) =
      first :: keyword ++ ['('] ++ (inside ++ ')' :: trail.rdropWhile isBlank) := by
    rw [hline, trim_append_cons (by decide), dropWhile_append_cons hkeyword, hfront]
    simp
  have hprefix := List.isPrefixOf?_eq_some_iff_append_eq.mpr htrim.symm
  have hrest : ')' ∉ inside.dropWhile isBlank :=
    fun hmem => hinside (List.dropWhile_subset isBlank hmem)
  rw [fields?, hprefix]
  show (insideParenthesis? (trim (inside ++ ')' :: trail.rdropWhile isBlank))).map _ = _
  rw [trim_append_cons (by decide), insideParenthesis?_append hrest, Option.map_some,
    trim_dropWhile, hfields]

/-- A line that does not begin with the keyword has no fields. -/
theorem fields?_eq_none {keyword line : List Char} (h : ¬ keyword ++ ['('] <+: trim line) :
    fields? keyword line = none := by
  have hnone : (keyword ++ ['(']).isPrefixOf? (trim line) = none := by
    rw [Option.eq_none_iff_forall_ne_some]
    intro rest hrest
    exact h ⟨rest, List.isPrefixOf?_eq_some_iff_append_eq.mp hrest⟩
  rw [fields?, hnone]

/-! Bytes. -/

/-- A digit and its value. -/
def DecimalDigit (digit : Char) (value : Nat) : Prop :=
  "0123456789".toList[value]? = some digit

def HexadecimalDigit (digit : Char) (value : Nat) : Prop :=
  "0123456789abcdef".toList[value]? = some digit ∨ "0123456789ABCDEF".toList[value]? = some digit

/-- Digits and the number that they write in a base. -/
inductive Numeral (Digit : Char → Nat → Prop) (base : Nat) : List Char → Nat → Prop
  | single {digit : Char} {value : Nat} (hdigit : Digit digit value) :
    Numeral Digit base [digit] value
  | concat {front : List Char} {number : Nat} {digit : Char} {value : Nat}
      (hfront : Numeral Digit base front number) (hdigit : Digit digit value) :
    Numeral Digit base (front ++ [digit]) (base * number + value)

/-- How a number may be written in a definition. -/
inductive Spelled : List Char → Nat → Prop
  | decimal {digits : List Char} {number : Nat} (h : Numeral DecimalDigit 10 digits number) :
    Spelled digits number
  | hexadecimal {digits : List Char} {number : Nat}
      (h : Numeral HexadecimalDigit 16 digits number) : Spelled ('0' :: 'x' :: digits) number

/-- Every number can be written. -/
theorem numeral_toDigits (n : Nat) : Numeral DecimalDigit 10 (Nat.toDigits 10 n) n := by
  have hdigit : ∀ value : Fin 10, "0123456789".toList[value.val]? = some value.val.digitChar := by
    decide
  induction n using Nat.strongRecOn with
  | ind n ih =>
    rcases Nat.lt_or_ge n 10 with hlt | hge
    · rw [Nat.toDigits_of_lt_base hlt]
      exact .single (hdigit ⟨n, hlt⟩)
    · have hlast : DecimalDigit (n % 10).digitChar (n % 10) :=
        hdigit ⟨n % 10, Nat.mod_lt n (by omega)⟩
      have hconcat := Numeral.concat (ih (n / 10) (by omega)) hlast
      rw [Nat.div_add_mod] at hconcat
      rw [Nat.toDigits_of_base_le (by omega) hge]
      exact hconcat

theorem DecimalDigit.mem {digit : Char} {value : Nat} (h : DecimalDigit digit value) :
    digit ∈ "0123456789".toList :=
  List.mem_of_getElem? h

theorem HexadecimalDigit.mem {digit : Char} {value : Nat} (h : HexadecimalDigit digit value) :
    digit ∈ "0123456789abcdefABCDEF".toList := by
  have hlower : "0123456789abcdef".toList ⊆ "0123456789abcdefABCDEF".toList := by decide
  have hupper : "0123456789ABCDEF".toList ⊆ "0123456789abcdefABCDEF".toList := by decide
  rcases h with h | h
  · exact hlower (List.mem_of_getElem? h)
  · exact hupper (List.mem_of_getElem? h)

theorem DecimalDigit.decimalDigit?_eq {digit : Char} {value : Nat} (h : DecimalDigit digit value) :
    decimalDigit? digit = some value := by
  have hall : ∀ value : Fin 10, decimalDigit? ("0123456789".toList[value]) = some value.val := by
    decide
  obtain ⟨hlt, rfl⟩ := List.getElem?_eq_some_iff.mp h
  exact hall ⟨value, hlt⟩

theorem HexadecimalDigit.hexDigit?_eq {digit : Char} {value : Nat}
    (h : HexadecimalDigit digit value) : hexDigit? digit = some value := by
  have hlower : ∀ value : Fin 16,
      hexDigit? ("0123456789abcdef".toList[value]) = some value.val := by decide
  have hupper : ∀ value : Fin 16,
      hexDigit? ("0123456789ABCDEF".toList[value]) = some value.val := by decide
  rcases h with h | h
  · obtain ⟨hlt, rfl⟩ := List.getElem?_eq_some_iff.mp h
    exact hlower ⟨value, hlt⟩
  · obtain ⟨hlt, rfl⟩ := List.getElem?_eq_some_iff.mp h
    exact hupper ⟨value, hlt⟩

theorem numeral?_append (digit? : Char → Option Nat) (base start : Nat) (front back : List Char) :
    numeral? digit? base start (front ++ back) =
      (numeral? digit? base start front).bind fun number => numeral? digit? base number back := by
  induction front generalizing start with
  | nil => rfl
  | cons c rest ih =>
    rw [List.cons_append, numeral?, numeral?]
    cases digit? c with
    | none => rfl
    | some digit => exact ih _

namespace Numeral

variable {Digit : Char → Nat → Prop} {base number : Nat} {digits : List Char}

theorem ne_nil (h : Numeral Digit base digits number) : digits ≠ [] := by
  cases h <;> simp

theorem forall_mem {property : Char → Prop} (h : Numeral Digit base digits number)
    (hdigit : ∀ digit value, Digit digit value → property digit) : ∀ c ∈ digits, property c := by
  induction h with
  | single hvalue => exact List.forall_mem_singleton.mpr (hdigit _ _ hvalue)
  | concat hfront hvalue ih =>
    intro c hmem
    rcases List.mem_append.mp hmem with hmem | hmem
    · exact ih c hmem
    · rw [List.mem_singleton.mp hmem]
      exact hdigit _ _ hvalue

theorem numeral?_eq {digit? : Char → Option Nat} (h : Numeral Digit base digits number)
    (hdigit : ∀ digit value, Digit digit value → digit? digit = some value) :
    numeral? digit? base 0 digits = some number := by
  induction h with
  | single hvalue =>
    simp only [numeral?, hdigit _ _ hvalue, Nat.mul_zero, Nat.zero_add]
  | concat hfront hvalue ih =>
    rw [numeral?_append, ih, Option.bind_some]
    simp only [numeral?, hdigit _ _ hvalue]

/-- A numeral below 256 is read as a byte, since no digit is a plus sign. -/
theorem byteNumeral?_eq {digit? : Char → Option Nat} (h : Numeral Digit base digits number)
    (hdigit : ∀ digit value, Digit digit value → digit? digit = some value)
    (hplus : ∀ value, ¬ Digit '+' value) (hlt : number < 256) :
    byteNumeral? digit? base digits = some number := by
  have hnot : ∀ digit value, Digit digit value → digit ≠ '+' := by
    rintro digit value hvalue rfl
    exact hplus value hvalue
  have hsign : ∀ rest, digits = '+' :: rest → False := by
    rintro rest rfl
    exact h.forall_mem hnot '+' List.mem_cons_self rfl
  have hempty : digits.isEmpty = false := List.isEmpty_eq_false_iff.mpr h.ne_nil
  rw [byteNumeral?.eq_2 digit? base digits hsign, if_neg (by rw [hempty]; decide),
    h.numeral?_eq hdigit, Option.filter_eq_some_iff]
  exact ⟨rfl, decide_eq_true hlt⟩

end Numeral

/-- In either notation the byte is read that is written. -/
theorem Spelled.byteField_eq {text : List Char} {number : Nat} (h : Spelled text number)
    (hlt : number < 256) : byteField text = .ok number := by
  cases h with
  | decimal h =>
    have hread := h.byteNumeral?_eq (fun _ _ => DecimalDigit.decimalDigit?_eq)
      (fun value hplus => absurd hplus.mem (by decide)) hlt
    have hx : ∀ digits, text = '0' :: 'x' :: digits → False := by
      rintro digits rfl
      exact absurd (h.forall_mem (fun _ _ hdigit => hdigit.mem) 'x' (by simp)) (by decide)
    rw [byteField, byte.eq_2 text hx, hread]
    rfl
  | hexadecimal h =>
    have hread := h.byteNumeral?_eq (fun _ _ => HexadecimalDigit.hexDigit?_eq)
      (fun value hplus => absurd hplus.mem (by decide)) hlt
    rw [byteField, byte, hread]
    rfl

/-! Lines. -/

/-- A field that can be told from what stands around it. -/
structure Plain (field : List Char) : Prop where
  comma : ',' ∉ field
  parenthesis : ')' ∉ field
  oneLine : '\n' ∉ field
  first : ∀ c ∈ field.head?, isBlank c = false
  last : ∀ c ∈ field.getLast?, isBlank c = false

theorem plain_of_forall {field : List Char}
    (h : ∀ c ∈ field, isBlank c = false ∧ c ≠ ',' ∧ c ≠ ')') : Plain field := by
  constructor
  case comma => exact fun hmem => (h _ hmem).2.1 rfl
  case parenthesis => exact fun hmem => (h _ hmem).2.2 rfl
  case oneLine => exact fun hmem => absurd (h _ hmem).1 (by decide)
  case first => exact fun c hc => (h c (List.mem_of_mem_head? hc)).1
  case last => exact fun c hc => (h c (List.mem_of_mem_getLast? hc)).1

theorem Spelled.plain {text : List Char} {number : Nat} (h : Spelled text number) : Plain text := by
  have hall : ∀ c ∈ "0123456789abcdefABCDEFx".toList, isBlank c = false ∧ c ≠ ',' ∧ c ≠ ')' :=
    List.forall_iff_forall_mem.mp (by decide)
  have hdecimal : "0123456789".toList ⊆ "0123456789abcdefABCDEFx".toList := by decide
  have hhexadecimal : "0123456789abcdefABCDEF".toList ⊆ "0123456789abcdefABCDEFx".toList := by
    decide
  apply plain_of_forall
  intro c hmem
  apply hall
  cases h with
  | decimal h => exact hdecimal (h.forall_mem (fun _ _ hdigit => hdigit.mem) c hmem)
  | hexadecimal h =>
    rcases List.mem_cons.mp hmem with rfl | hmem
    · decide
    · rcases List.mem_cons.mp hmem with rfl | hmem
      · decide
      · exact hhexadecimal (h.forall_mem (fun _ _ hdigit => hdigit.mem) c hmem)

/-- A field with blanks around it. -/
def Padded (field text : List Char) : Prop :=
  ∃ front back, Blanks front ∧ Blanks back ∧ text = front ++ field ++ back

theorem Padded.trim_eq {field text : List Char} (h : Padded field text) (hfield : Plain field) :
    trim text = field := by
  obtain ⟨front, back, hfront, hback, rfl⟩ := h
  rw [trim_append_blanks (fun c hc => (hback c hc).1),
    trim_blanks_append (fun c hc => (hfront c hc).1), trim_eq_self hfield.first hfield.last]

theorem Padded.notMem {field text : List Char} {c : Char} (h : Padded field text)
    (hc : isBlank c = false ∨ c = '\n') (hfield : c ∉ field) : c ∉ text := by
  obtain ⟨front, back, hfront, hback, rfl⟩ := h
  rw [List.mem_append, List.mem_append]
  rintro ((hmem | hmem) | hmem)
  · exact hfront.notMem hc hmem
  · exact hfield hmem
  · exact hback.notMem hc hmem

theorem forall_padded {fields padded : List (List Char)} (h : List.Forall₂ Padded fields padded)
    (hplain : ∀ field ∈ fields, Plain field) : padded.map trim = fields ∧
      ∀ piece ∈ padded, ',' ∉ piece ∧ ')' ∉ piece ∧ '\n' ∉ piece := by
  induction h with
  | nil => exact ⟨rfl, nofun⟩
  | @cons field piece fields padded hfirst hrest ih =>
    obtain ⟨hfield, hfields⟩ := List.forall_mem_cons.mp hplain
    obtain ⟨htrim, hpieces⟩ := ih hfields
    refine ⟨by rw [List.map_cons, hfirst.trim_eq hfield, htrim],
      List.forall_mem_cons.mpr ⟨⟨?_, ?_, ?_⟩, hpieces⟩⟩
    · exact hfirst.notMem (.inl (by decide)) hfield.comma
    · exact hfirst.notMem (.inl (by decide)) hfield.parenthesis
    · exact hfirst.notMem (.inr rfl) hfield.oneLine

/-- A line with some fields in parentheses after a keyword. -/
inductive Line (keyword : List Char) (fields : List (List Char)) : List Char → Prop
  | mk {lead trail : List Char} {padded : List (List Char)} (hlead : Blanks lead)
      (hpadded : List.Forall₂ Padded fields padded) (htrail : '\n' ∉ trail) :
    Line keyword fields (lead ++ keyword ++ '(' :: ([','].intercalate padded ++ ')' :: trail))

/-- Fields may be written without blanks and with nothing else on the line. -/
theorem exists_line (keyword : List Char) (fields : List (List Char)) :
    ∃ line, Line keyword fields line := by
  have hpadded : List.Forall₂ Padded fields fields :=
    List.forall₂_same.mpr fun field _ => ⟨[], [], nofun, nofun, by simp⟩
  have hlead : Blanks [] := nofun
  exact ⟨_, .mk hlead hpadded (List.not_mem_nil : '\n' ∉ [])⟩

namespace Line

variable {first : Char} {keyword line : List Char} {fields : List (List Char)}

theorem fields?_eq (h : Line (first :: keyword) fields line) (hkeyword : isBlank first = false)
    (hne : fields ≠ []) (hplain : ∀ field ∈ fields, Plain field) :
    fields? (first :: keyword) line = some fields := by
  cases h with
  | @mk lead trail padded hlead hpadded htrail =>
    obtain ⟨htrim, hpieces⟩ := forall_padded hpadded hplain
    have hsome : padded ≠ [] := by
      rintro rfl
      exact hne htrim.symm
    have hcomma : ∀ piece ∈ padded, ',' ∉ piece := fun piece hmem => (hpieces piece hmem).1
    have hparenthesis : ∀ piece ∈ padded, ')' ∉ piece := fun piece hmem => (hpieces piece hmem).2.1
    rw [fields?_eq_some hkeyword (fun c hc => (hlead c hc).1) hsome hcomma hparenthesis, htrim]

theorem oneLine (h : Line keyword fields line) (hkeyword : '\n' ∉ keyword)
    (hplain : ∀ field ∈ fields, Plain field) : '\n' ∉ line := by
  cases h with
  | @mk lead trail padded hlead hpadded htrail =>
    obtain ⟨-, hpieces⟩ := forall_padded hpadded hplain
    have hlead := hlead.notMem (.inr rfl)
    have hinside : '\n' ∉ [','].intercalate padded :=
      notMem_intercalate (by decide) fun piece hmem => (hpieces piece hmem).2.2
    simp [hlead, hkeyword, hinside, htrail]

/-- Anything may be added after the closing parenthesis. -/
theorem append {more : List Char} (h : Line keyword fields line) (hmore : '\n' ∉ more) :
    Line keyword fields (line ++ more) := by
  cases h with
  | @mk lead trail padded hlead hpadded htrail =>
    have hline : lead ++ keyword ++ '(' :: ([','].intercalate padded ++ ')' :: trail) ++ more =
        lead ++ keyword ++ '(' :: ([','].intercalate padded ++ ')' :: (trail ++ more)) := by simp
    rw [hline]
    exact .mk hlead hpadded (by simp [htrail, hmore])

end Line

/-- The word for a kind. -/
def kindWord : EncodingKind → List Char
  | .value => "value".toList
  | .runtime => "runtime".toList
  | .inline => "inline".toList

theorem kindOfField?_kindWord (kind : EncodingKind) : kindOfField? (kindWord kind) = some kind := by
  cases kind <;> rfl

theorem plain_kindWord (kind : EncodingKind) : Plain (kindWord kind) := by
  apply plain_of_forall
  cases kind <;> exact List.forall_iff_forall_mem.mp (by decide)

/-- A line that is written for the definition of an instruction. -/
def InstructionDefinition.Written (definition : InstructionDefinition) (line : List Char) : Prop :=
  ∃ code, Spelled code definition.code ∧
    Line "DEF".toList (definition.id.toList :: code :: definition.operands.map String.toList) line

/-- A line that is written for the definition of an encoding. -/
def EncodingDefinition.Written (definition : EncodingDefinition) (line : List Char) : Prop :=
  ∃ code width, Spelled code definition.code ∧ Spelled width definition.width ∧
    Line "PARAM".toList [definition.id.toList, code, width, kindWord definition.kind] line

theorem InstructionDefinition.exists_written (definition : InstructionDefinition) :
    ∃ line, definition.Written line := by
  have hcode := Spelled.decimal (numeral_toDigits definition.code)
  obtain ⟨line, hline⟩ := exists_line "DEF".toList (definition.id.toList ::
    Nat.toDigits 10 definition.code :: definition.operands.map String.toList)
  exact ⟨line, _, hcode, hline⟩

theorem EncodingDefinition.exists_written (definition : EncodingDefinition) :
    ∃ line, definition.Written line := by
  have hcode := Spelled.decimal (numeral_toDigits definition.code)
  have hwidth := Spelled.decimal (numeral_toDigits definition.width)
  obtain ⟨line, hline⟩ := exists_line "PARAM".toList [definition.id.toList,
    Nat.toDigits 10 definition.code, Nat.toDigits 10 definition.width, kindWord definition.kind]
  exact ⟨line, _, _, hcode, hwidth, hline⟩

/-- Definitions that can be written and read back: their codes are bytes and their names are
plain. -/
structure InstructionDefinition.Printable (definition : InstructionDefinition) : Prop where
  code : definition.code < 256
  id : Plain definition.id.toList
  operands : ∀ name ∈ definition.operands, Plain name.toList

structure EncodingDefinition.Printable (definition : EncodingDefinition) : Prop where
  code : definition.code < 256
  width : 1 ≤ definition.width ∧ definition.width ≤ 3
  id : Plain definition.id.toList

theorem InstructionDefinition.Written.read {definition : InstructionDefinition} {line : List Char}
    (h : definition.Written line) (hprintable : definition.Printable) :
    instructionOfLine line = .ok (some definition) ∧ '\n' ∉ line := by
  obtain ⟨code, hcode, hline⟩ := h
  have hplain : ∀ field ∈ definition.id.toList :: code :: definition.operands.map String.toList,
      Plain field := by
    refine List.forall_mem_cons.mpr ⟨hprintable.id, List.forall_mem_cons.mpr ⟨hcode.plain, ?_⟩⟩
    intro field hmem
    obtain ⟨name, hname, rfl⟩ := List.mem_map.mp hmem
    exact hprintable.operands name hname
  refine ⟨?_, hline.oneLine (by decide) hplain⟩
  have hfields : fields? "DEF".toList line = _ :=
    hline.fields?_eq (by decide) (List.cons_ne_nil _ _) hplain
  rw [instructionOfLine, hfields]
  simp only [hcode.byteField_eq hprintable.code, Except.map, String.ofList_toList, List.map_map,
    Function.comp_def, List.map_id']

theorem EncodingDefinition.Written.read {definition : EncodingDefinition} {line : List Char}
    (h : definition.Written line) (hprintable : definition.Printable) :
    encodingOfLine line = .ok (some definition) ∧ '\n' ∉ line := by
  obtain ⟨code, width, hcode, hwidth, hline⟩ := h
  have hplain : ∀ field ∈ [definition.id.toList, code, width, kindWord definition.kind],
      Plain field := by
    simp only [List.forall_mem_cons]
    exact ⟨hprintable.id, hcode.plain, hwidth.plain, plain_kindWord _, nofun⟩
  refine ⟨?_, hline.oneLine (by decide) hplain⟩
  have hfields : fields? "PARAM".toList line = _ :=
    hline.fields?_eq (by decide) (List.cons_ne_nil _ _) hplain
  have hbounds : ¬ (definition.width < 1 ∨ 3 < definition.width) := by
    have := hprintable.width
    omega
  have hbyte := hwidth.byteField_eq (by omega)
  rw [encodingOfLine, hfields]
  simp only [hcode.byteField_eq hprintable.code, hbyte, bind, Except.bind, if_neg hbounds,
    kindOfField?_kindWord, String.ofList_toList]
  rfl

end Definitions

end ScriptDisassembler
