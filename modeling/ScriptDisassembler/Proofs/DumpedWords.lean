import Mathlib
import ScriptDisassembler.Proofs.ListingTiles

/-!
A listing with words reproduces the buffer. The words that its lines show are the words of the
buffer in their order, and without them it is the listing without words. Where the names of the
methods are of one line this can be seen in the text: the columns of a line are its address, the
words, a bar and the body, and a line that defines a name has one column.
-/

namespace ScriptDisassembler

namespace Text

/-- The columns of a line are kept apart by blanks. -/
def columns (line : String) : List (List Char) :=
  line.toList.splitOn ' '

/-- The words between the address of a line and the bar. -/
def wordsOfLine (line : String) : List Word :=
  ((columns line).tail.takeWhile (· != ['|'])).map fun digits => UInt32.ofNat (hexValue digits)

/-- The line without its words and the bar, if it has a bar. -/
def withoutWords (line : String) : String :=
  match columns line with
  | [] => line
  | address :: rest =>
    if ['|'] ∈ rest then
      String.ofList ([' '].intercalate (address :: (rest.dropWhile (· != ['|'])).tail))
    else
      line

theorem hexValue_leftpad (width : Nat) (digits : List Char) :
    hexValue (digits.leftpad width '0') = hexValue digits := by
  have hzeros : ∀ count, (List.replicate count '0').foldl
      (fun value digit => 16 * value + (hexDigit? digit).getD 0) 0 = 0 := by
    intro count
    induction count with
    | zero => rfl
    | succ count ih => exact ih
  rw [hexValue, List.leftpad, List.foldl_append, hzeros, ← hexValue]

theorem hexValue_hexPadded (width n : Nat) : hexValue (hexPadded width n).toList = n := by
  rw [hexPadded, String.toList_ofList, hexValue_leftpad, hexValue_toDigits]

theorem notMem_hexPadded {c : Char} (h : c ∉ hexDigits) (width n : Nat) :
    c ∉ (hexPadded width n).toList :=
  fun hmem => h (mem_hexDigits_of_mem_hexPadded hmem)

theorem columns_append {front : String} (h : ' ' ∉ front.toList) (back : String) :
    columns (front ++ " " ++ back) = front.toList :: columns back := by
  have hblank : (front ++ " " ++ back).toList = front.toList ++ ' ' :: back.toList := by
    simp [String.toList_append]
  rw [columns, hblank, List.splitOn_append_cons_self_of_not_mem h, ← columns]

theorem columns_of_notMem {line : String} (h : ' ' ∉ line.toList) :
    columns line = [line.toList] :=
  List.splitOn_eq_singleton h

theorem wordsOfLine_of_notMem {line : String} (h : ' ' ∉ line.toList) : wordsOfLine line = [] := by
  rw [wordsOfLine, columns_of_notMem h]
  rfl

theorem withoutWords_of_notMem {line : String} (h : ' ' ∉ line.toList) :
    withoutWords line = line := by
  rw [withoutWords, columns_of_notMem h]
  exact if_neg List.not_mem_nil

end Text

/-- A name is one column. -/
theorem Label.notMem_text (label : Label) : ' ' ∉ label.text.toList := by
  cases label with
  | entrypoint index =>
    exact Text.notMem_append (by decide) (Text.notMem_toString (by decide) index)
  | code number =>
    exact Text.notMem_append (by decide) (Text.notMem_toString (by decide) number)
  | tableEntry table index =>
    have htable : ' ' ∉ (Text.hex table).toList := by
      rw [Text.hex, String.toList_ofList]
      intro hmem
      exact absurd (Text.mem_hexDigits_of_mem_toDigits hmem) (by decide)
    exact Text.notMem_append (Text.notMem_append (Text.notMem_append (by decide) htable)
      (by decide)) (Text.notMem_toString (by decide) index)

namespace ListingRow

/-- The words that a row shows. -/
def words : ListingRow → List Word
  | token _ (some words) => words
  | token _ none | blank | definition _ => []

def withoutWords : ListingRow → ListingRow
  | token line _ => token line none
  | row => row

def numerals (words : List Word) : List (List Char) :=
  words.map fun word => (Text.hexPadded 8 word.toNat).toList

theorem columns_dump (words : List Word) (body : String) :
    Text.columns (dump (some words) ++ body) = numerals words ++ ['|'] :: Text.columns body := by
  induction words with
  | nil =>
    have hbar : dump (some []) ++ body = "|" ++ " " ++ body := by
      simp [dump]
    rw [hbar, Text.columns_append (by decide)]
    rfl
  | cons word rest ih =>
    have hfirst : dump (some (word :: rest)) ++ body =
        Text.hexPadded 8 word.toNat ++ " " ++ (dump (some rest) ++ body) := by
      simp only [dump, List.map_cons, String.join_cons, String.append_assoc]
    rw [hfirst, Text.columns_append (Text.notMem_hexPadded (by decide) 8 _), ih]
    rfl

/-- A numeral is no bar. -/
theorem forall_ne_bar (words : List Word) :
    ∀ column ∈ numerals words, (column != ['|']) = true := by
  intro column hmem
  obtain ⟨word, -, rfl⟩ := List.mem_map.mp hmem
  rw [bne_iff_ne]
  intro hbar
  have hmem : '|' ∈ (Text.hexPadded 8 word.toNat).toList := by
    rw [hbar]
    exact List.mem_cons_self
  exact Text.notMem_hexPadded (by decide) 8 _ hmem

theorem columns_token (line : ListingLine) (words : List Word) :
    Text.columns (token line (some words)).text = (Text.hexPadded 5 line.offset).toList ::
      (numerals words ++ ['|'] :: Text.columns line.body) := by
  rw [text, String.append_assoc, Text.columns_append (Text.notMem_hexPadded (by decide) 5 _),
    columns_dump]

theorem columns_plain (line : ListingLine) :
    Text.columns (token line none).text =
      (Text.hexPadded 5 line.offset).toList :: Text.columns line.body := by
  have hplain : (token line none).text = Text.hexPadded 5 line.offset ++ " " ++ line.body := by
    simp only [text, dump, String.append_empty]
  rw [hplain, Text.columns_append (Text.notMem_hexPadded (by decide) 5 _)]

theorem wordsOfLine_token (line : ListingLine) (words : List Word) :
    Text.wordsOfLine (token line (some words)).text = words := by
  have hbar : (['|'] :: Text.columns line.body).takeWhile (· != ['|']) = [] := rfl
  rw [Text.wordsOfLine, columns_token, List.tail_cons,
    List.takeWhile_append_of_pos (forall_ne_bar words), hbar, List.append_nil, numerals,
    List.map_map]
  simp only [Function.comp_def, Text.hexValue_hexPadded, UInt32.ofNat_toNat, List.map_id']

theorem withoutWords_token (line : ListingLine) (words : List Word) :
    Text.withoutWords (token line (some words)).text = (token line none).text := by
  have hmem : ['|'] ∈ numerals words ++ ['|'] :: Text.columns line.body := by simp
  have hbar : ((numerals words ++ ['|'] :: Text.columns line.body).dropWhile
      (· != ['|'])).tail = Text.columns line.body := by
    rw [List.dropWhile_append_of_pos (forall_ne_bar words)]
    rfl
  have hback : [' '].intercalate (Text.columns (token line none).text) =
      (token line none).text.toList := List.intercalate_splitOn ' '
  rw [columns_plain] at hback
  rw [Text.withoutWords, columns_token]
  simp only [hmem, ↓reduceIte, hbar, hback, String.ofList_toList]

/-- A row as it is printed where words are shown: its name is one that a disassembly gives out,
or its words are there. -/
def Dumped : ListingRow → Prop
  | blank => True
  | definition name => ∃ label : Label, name = label.text
  | token _ shown => shown.isSome

theorem Dumped.wordsOfLine {row : ListingRow} (h : row.Dumped) :
    Text.wordsOfLine row.text = row.words := by
  cases row with
  | blank => rfl
  | definition name =>
    obtain ⟨label, rfl⟩ := h
    exact Text.wordsOfLine_of_notMem (Text.notMem_append label.notMem_text (by decide))
  | token line shown =>
    obtain ⟨words, rfl⟩ := Option.isSome_iff_exists.mp h
    exact wordsOfLine_token line words

theorem Dumped.withoutWords {row : ListingRow} (h : row.Dumped) :
    Text.withoutWords row.text = row.withoutWords.text := by
  cases row with
  | blank => rfl
  | definition name =>
    obtain ⟨label, rfl⟩ := h
    exact Text.withoutWords_of_notMem (Text.notMem_append label.notMem_text (by decide))
  | token line shown =>
    obtain ⟨words, rfl⟩ := Option.isSome_iff_exists.mp h
    exact withoutWords_token line words

end ListingRow

namespace ListingLine

theorem flatMap_words_rows (line : ListingLine) (shown : Option (List Word)) :
    (line.rows shown).flatMap ListingRow.words = shown.getD [] := by
  have htoken : (ListingRow.token line shown).words = shown.getD [] := by
    cases shown <;> rfl
  unfold rows
  cases line.label with
  | none => simp only [List.flatMap_cons, List.flatMap_nil, List.append_nil, htoken]
  | some name =>
    simp only [List.flatMap_cons, List.flatMap_nil, List.append_nil, htoken]
    rfl

theorem map_withoutWords_rows (line : ListingLine) (shown : Option (List Word)) :
    (line.rows shown).map ListingRow.withoutWords = line.rows none := by
  unfold rows
  cases line.label <;> rfl

end ListingLine

/-- A token that has a line in a listing, what the line says of it and the words for which it
stands. -/
structure ListedToken where
  token : Token
  body : String
  words : List Word

namespace ListedToken

def dump (listed : ListedToken) : String :=
  String.join (listed.words.map fun word => Text.hexPadded 8 word.toNat ++ " ") ++ "| "

/-- What is printed for the token: the name of its offset, if it has one, the offset and the
body, with a text between them. -/
def text (listed : ListedToken) (labels : Labels) (between : String) : String :=
  let heading := (labels.find? listed.token.offset).map fun name => "\n" ++ name ++ ":\n"
  heading.getD "" ++ Text.hexPadded 5 listed.token.offset ++ " " ++ between ++ listed.body ++ "\n"

end ListedToken

namespace Script

variable {script : Script} {buffer : Buffer} {signatures : Signatures}

def listed (script : Script) (buffer : Buffer) (signatures : Signatures) : List ListedToken :=
  script.entries.filterMap fun token =>
    (ListingLine.ofToken? script signatures token).map fun line =>
      ⟨token, line.body, (line.shown buffer true).getD []⟩

theorem mem_listed {row : ListedToken} : row ∈ script.listed buffer signatures ↔
    ∃ token ∈ script.entries, ∃ line, ListingLine.ofToken? script signatures token = some line ∧
      row = ⟨token, line.body, (line.shown buffer true).getD []⟩ := by
  simp only [listed, List.mem_filterMap, Option.map_eq_some_iff]
  grind

/-- What holds of the lines of a listing, holds of the tokens that have them. -/
theorem map_listed {α : Type} {f : ListingLine → α} {g : ListedToken → α}
    (h : ∀ token line, ListingLine.ofToken? script signatures token = some line →
      line ∈ script.listingLines signatures →
        f line = g ⟨token, line.body, (line.shown buffer true).getD []⟩) :
    (script.listingLines signatures).map f = (script.listed buffer signatures).map g := by
  rw [listingLines, listed, List.map_filterMap, List.map_filterMap]
  refine List.filterMap_congr ?_
  intro token hmem
  cases hline : ListingLine.ofToken? script signatures token with
  | none => rfl
  | some line =>
    have hlisted : line ∈ script.listingLines signatures :=
      List.mem_filterMap.mpr ⟨token, hmem, hline⟩
    exact congrArg some (h token line hline hlisted)

theorem mem_map_listed {token : Token} :
    token ∈ (script.listed buffer signatures).map ListedToken.token ↔
      token ∈ script.entries ∧ ¬ token.IsOperand := by
  constructor
  · intro hmem
    obtain ⟨row, hrow, rfl⟩ := List.mem_map.mp hmem
    obtain ⟨token, htoken, line, hline, rfl⟩ := mem_listed.mp hrow
    exact ⟨htoken, ListingLine.not_isOperand_of_ofToken? hline⟩
  · rintro ⟨htoken, hkind⟩
    obtain ⟨line, hline⟩ := ListingLine.exists_ofToken? script signatures hkind
    exact List.mem_map.mpr ⟨_, mem_listed.mpr ⟨token, htoken, line, hline, rfl⟩, rfl⟩

theorem pairwise_listed {stop : Nat}
    (htiles : ListingLine.Tiles 0 (script.listingLines signatures) stop) :
    (script.listed buffer signatures).Pairwise fun first second =>
      first.token.offset < second.token.offset := by
  have hoffsets : (script.listingLines signatures).map ListingLine.offset =
      (script.listed buffer signatures).map fun row => row.token.offset :=
    map_listed fun token line hline _ => (ListingLine.offset_of_ofToken? hline).1
  have hpairwise := List.pairwise_map.mpr htiles.pairwise_offset.2
  rw [hoffsets] at hpairwise
  exact List.pairwise_map.mp hpairwise

theorem wordsAt_of_mem_listed
    (hwords : ∀ line ∈ script.listingLines signatures,
      ∃ words, buffer.wordsAt line.offset line.width = .ok words) :
    ∀ row ∈ script.listed buffer signatures,
      buffer.wordsAt row.token.offset row.token.breadth = .ok row.words := by
  intro row hrow
  obtain ⟨token, htoken, line, hline, rfl⟩ := mem_listed.mp hrow
  obtain ⟨words, hread⟩ := hwords line (List.mem_filterMap.mpr ⟨token, htoken, hline⟩)
  have hoffset := (ListingLine.offset_of_ofToken? hline).1
  show _ = Except.ok ((line.shown buffer true).getD [])
  rw [← ListingLine.width_of_ofToken? hline, ← hoffset, hread, ListingLine.shown, hread]
  rfl

theorem flatMap_words_listed :
    (script.listed buffer signatures).flatMap ListedToken.words =
      (script.listingLines signatures).flatMap fun line => (line.shown buffer true).getD [] := by
  have hsame : (script.listingLines signatures).map
        (fun line => (line.shown buffer true).getD []) =
      (script.listed buffer signatures).map ListedToken.words :=
    map_listed fun token line _ _ => rfl
  rw [List.flatMap_def, ← hsame, ← List.flatMap_def]

/-- The words of the buffer in the listing of a script, of which each token shows its own. -/
structure Dumps (script : Script) (buffer : Buffer) (signatures : Signatures)
    (listed : List ListedToken) : Prop where
  tokens : ∀ token, token ∈ listed.map ListedToken.token ↔
    token ∈ script.entries ∧ ¬ token.IsOperand
  ascending : listed.Pairwise fun first second => first.token.offset < second.token.offset
  bodies : ∀ row ∈ listed,
    (ListingLine.ofToken? script signatures row.token).map ListingLine.body = some row.body
  own : ∀ row ∈ listed, buffer.wordsAt row.token.offset row.token.breadth = .ok row.words
  words : listed.flatMap ListedToken.words = buffer.words.toList
  dumped : script.listing buffer signatures true =
    .ok (String.join (listed.map fun row => row.text script.labels row.dump))
  plain : script.listing buffer signatures false =
    .ok (String.join (listed.map fun row => row.text script.labels ""))
  /-- Both can be seen in the text. -/
  readable : (∀ method ∈ signatures.methods, Text.OneLine method.name) → ∃ dumped plain,
    script.listing buffer signatures true = .ok dumped ∧
    script.listing buffer signatures false = .ok plain ∧
    (Text.lines dumped).flatMap Text.wordsOfLine = buffer.words.toList ∧
    (Text.lines dumped).map Text.withoutWords = Text.lines plain

theorem listing_eq_join (hexDump : Bool)
    (hwords : ∀ line ∈ script.listingLines signatures,
      ∃ words, buffer.wordsAt line.offset line.width = .ok words) :
    script.listing buffer signatures hexDump =
      .ok (String.join ((script.listingLines signatures).map fun line =>
        line.text (line.shown buffer hexDump))) := by
  rw [listing_eq_printed hexDump hwords, listingRows, printed_flatMap]
  simp only [← ListingLine.text_eq_printed]

theorem dumped_of_mem_listingRows (hlabels : script.labels.Fitting buffer)
    (hwords : ∀ line ∈ script.listingLines signatures,
      ∃ words, buffer.wordsAt line.offset line.width = .ok words) :
    ∀ row ∈ script.listingRows buffer signatures true, row.Dumped := by
  intro row hrow
  obtain ⟨line, hline, hmem⟩ := List.mem_flatMap.mp hrow
  obtain ⟨words, hread⟩ := hwords line hline
  obtain ⟨token, -, htoken⟩ := List.mem_filterMap.mp hline
  have hshown : line.shown buffer true = some words := by
    rw [ListingLine.shown, hread]
    rfl
  have htokenRow : (ListingRow.token line (line.shown buffer true)).Dumped := by
    rw [hshown]
    rfl
  unfold ListingLine.rows at hmem
  cases hname : line.label with
  | none =>
    simp only [hname, List.mem_singleton] at hmem
    rw [hmem]
    exact htokenRow
  | some name =>
    rw [(ListingLine.offset_of_ofToken? htoken).2] at hname
    obtain ⟨label, rfl, -⟩ := hlabels.fits hname
    simp only [(ListingLine.offset_of_ofToken? htoken).2, hname, List.mem_cons,
      List.not_mem_nil, or_false] at hmem
    rcases hmem with rfl | rfl | rfl
    · trivial
    · exact ⟨label, rfl⟩
    · exact htokenRow

/-- The rows of a listing are lines of its text. -/
theorem oneLine_listingRows (hnamed : ∀ token ∈ script.tokens, token.Named script.labels)
    (hlabels : script.labels.Fitting buffer) (other : Buffer) (hexDump : Bool)
    (hmethods : ∀ method ∈ signatures.methods, Text.OneLine method.name) :
    ∀ row ∈ script.listingRows other signatures hexDump, Text.OneLine row.text := by
  intro row hrow
  obtain ⟨line, hline, hmem⟩ := List.mem_flatMap.mp hrow
  obtain ⟨token, htoken, heq⟩ := List.mem_filterMap.mp hline
  have hbody := ListingLine.oneLine_body heq (hnamed token (mem_tokens_of_mem_entries htoken))
    hlabels.oneLine hmethods
  refine ListingLine.oneLine_rows _ hbody ?_ row hmem
  intro name hname
  rw [(ListingLine.offset_of_ofToken? heq).2] at hname
  exact hlabels.oneLine hname

theorem flatMap_words_listingRows (script : Script) (buffer : Buffer) (signatures : Signatures) :
    (script.listingRows buffer signatures true).flatMap ListingRow.words =
      (script.listingLines signatures).flatMap fun line => (line.shown buffer true).getD [] := by
  simp only [listingRows, List.flatMap_assoc, ListingLine.flatMap_words_rows]

theorem map_withoutWords_listingRows (script : Script) (buffer : Buffer)
    (signatures : Signatures) :
    (script.listingRows buffer signatures true).map ListingRow.withoutWords =
      script.listingRows buffer signatures false := by
  simp only [listingRows, List.map_flatMap, ListingLine.map_withoutWords_rows]
  rfl

/-- The words are read from the text of the rows, and the text is told without them. -/
theorem wordsOfLine_printed {rows : List ListingRow} (hdumped : ∀ row ∈ rows, row.Dumped)
    (hline : ∀ row ∈ rows, Text.OneLine row.text)
    (hplain : ∀ row ∈ rows.map ListingRow.withoutWords, Text.OneLine row.text) :
    (Text.lines (printed rows)).flatMap Text.wordsOfLine = rows.flatMap ListingRow.words ∧
      (Text.lines (printed rows)).map Text.withoutWords =
        Text.lines (printed (rows.map ListingRow.withoutWords)) := by
  have hempty : Text.wordsOfLine "" = [] ∧ Text.withoutWords "" = "" :=
    ⟨Text.wordsOfLine_of_notMem (by decide), Text.withoutWords_of_notMem (by decide)⟩
  have hwords : (rows.map ListingRow.text).flatMap Text.wordsOfLine =
      rows.flatMap ListingRow.words := by
    rw [List.flatMap_map]
    exact List.flatMap_congr fun row hmem => (hdumped row hmem).wordsOfLine
  have htexts : (rows.map ListingRow.text).map Text.withoutWords =
      (rows.map ListingRow.withoutWords).map ListingRow.text := by
    rw [List.map_map, List.map_map]
    exact List.map_congr_left fun row hmem => (hdumped row hmem).withoutWords
  rw [lines_printed hline, lines_printed hplain, List.flatMap_append, List.map_append, hwords,
    htexts]
  simp only [List.flatMap_cons, List.flatMap_nil, List.map_cons, List.map_nil, hempty,
    List.append_nil, and_self]

end Script

theorem ListingLine.text_eq_listed {script : Script} {signatures : Signatures} {token : Token}
    {line : ListingLine} (h : ofToken? script signatures token = some line) (words : List Word) :
    let listed : ListedToken := ⟨token, line.body, words⟩
    line.text (some words) = listed.text script.labels listed.dump ∧
      line.text none = listed.text script.labels "" := by
  obtain ⟨hoffset, hlabel⟩ := offset_of_ofToken? h
  cases hname : script.labels.find? token.offset with
  | none =>
    simp only [text, ListedToken.text, ListedToken.dump, hoffset, hlabel, hname, Option.map_none,
      Option.getD_none, and_true]
    rfl
  | some name =>
    simp only [text, ListedToken.text, ListedToken.dump, hoffset, hlabel, hname, Option.map_some,
      Option.getD_some, and_true]
    rfl

/-- The listing is what is printed for its tokens. -/
theorem Script.listing_eq_listed {script : Script} {buffer : Buffer} {signatures : Signatures}
    (hwords : ∀ line ∈ script.listingLines signatures,
      ∃ words, buffer.wordsAt line.offset line.width = .ok words) :
    script.listing buffer signatures true =
        .ok (String.join ((script.listed buffer signatures).map fun row =>
          row.text script.labels row.dump)) ∧
      script.listing buffer signatures false =
        .ok (String.join ((script.listed buffer signatures).map fun row =>
          row.text script.labels "")) := by
  rw [listing_eq_join true hwords, listing_eq_join false hwords]
  constructor
  · congr 2
    refine map_listed ?_
    intro token line hline hmem
    obtain ⟨words, hread⟩ := hwords line hmem
    have hshown : line.shown buffer true = some words := by
      rw [ListingLine.shown, hread]
      rfl
    rw [hshown]
    exact (ListingLine.text_eq_listed hline words).1
  · congr 2
    refine map_listed ?_
    intro token line hline _
    exact (ListingLine.text_eq_listed hline _).2

theorem dumps_of_disassemble {bytes : List UInt8} {known : Signatures} {script : Script}
    (h : disassemble bytes known = .ok script) (signatures : Signatures) :
    script.Dumps (.ofBytes bytes) signatures (script.listed (.ofBytes bytes) signatures) := by
  obtain ⟨explored, hend, hfilled⟩ := explored_of_disassemble h
  have hregistered := hend.registered.filled (fillGaps_filled hfilled)
  have hlabels := (reachable_of_disassemble h).fitting
  have htiles := tiles_of_disassemble h signatures
  rw [← wordCount_ofBytes] at htiles
  have hwords := htiles.exists_words (Nat.le_refl _)
  have hall := htiles.flatMap_shown (Nat.le_refl _)
  rw [List.drop_zero, Nat.sub_zero, Buffer.wordCount, ← Array.length_toList, List.take_length]
    at hall
  constructor
  case tokens => exact fun token => Script.mem_map_listed
  case ascending => exact Script.pairwise_listed htiles
  case bodies =>
    intro row hrow
    obtain ⟨token, htoken, line, hline, rfl⟩ := Script.mem_listed.mp hrow
    rw [hline]
    rfl
  case own => exact Script.wordsAt_of_mem_listed hwords
  case words => rw [Script.flatMap_words_listed, hall]
  case dumped => exact (Script.listing_eq_listed hwords).1
  case plain => exact (Script.listing_eq_listed hwords).2
  case readable =>
    intro hmethods
    have honeLine := fun hexDump =>
      Script.oneLine_listingRows hregistered.named hlabels (.ofBytes bytes) hexDump hmethods
    have hplain := honeLine false
    rw [← Script.map_withoutWords_listingRows] at hplain
    obtain ⟨hread, htold⟩ := Script.wordsOfLine_printed
      (Script.dumped_of_mem_listingRows hlabels hwords) (honeLine true) hplain
    refine ⟨_, _, Script.listing_eq_printed true hwords, Script.listing_eq_printed false hwords,
      ?_, ?_⟩
    · rw [hread, Script.flatMap_words_listingRows, hall]
    · rw [htold, Script.map_withoutWords_listingRows]

theorem dumps_of_farJump :
    ∃ script, disassemble farJump .empty = .ok script ∧
      script.listing (.ofBytes farJump) .empty true =
        .ok ("00000 00000004 | entrypoint    :ENTRYPOINT_0\n\nENTRYPOINT_0:\n" ++
          "00004 00000140 09000005 | jmp           :LABEL_1\n") ∧
      script.Dumps (.ofBytes farJump) .empty (script.listed (.ofBytes farJump) .empty) := by
  have hread : (disassemble farJump .empty).toOption.map
      (fun script => script.listing (.ofBytes farJump) .empty true) =
      some (.ok ("00000 00000004 | entrypoint    :ENTRYPOINT_0\n\nENTRYPOINT_0:\n" ++
        "00004 00000140 09000005 | jmp           :LABEL_1\n")) := by
    cbv
  obtain ⟨script, h, hlisting⟩ := exists_disassemble hread
  exact ⟨script, h, hlisting, dumps_of_disassemble h .empty⟩

end ScriptDisassembler
