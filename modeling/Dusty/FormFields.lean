import Dusty.FieldMap
import Dusty.MultipartParts
import Dusty.QuotedAttributes

/-! # Fields of a multipart form

How a field is written (`FormField.part`), and that it is what the parser makes of it (`readPiece_part`).
`readPieces_parts` is about a list of fields. -/

namespace Dusty
namespace MultipartForm

/-- A text in quotes that is read back: without line ends, and with a backslash only in front of a
character that can be escaped and is no quote.  A text without quotes and backslashes is one. -/
structure Quotable (text : Bytes) : Prop where
  lone : Lone text
  no_cr : 13 ∉ text
  no_lf : 10 ∉ text

/-- A text without backslashes and line ends can be quoted. -/
theorem quotable_of_plain {text : Bytes} (hbackslash : 92 ∉ text) (hcr : 13 ∉ text) (hlf : 10 ∉ text) :
    Quotable text :=
  ⟨fun pre post h => absurd (h ▸ by simp) hbackslash, hcr, hlf⟩

/-- A header line of a part that says nothing about its name. -/
structure OtherLine (line : Bytes) : Prop where
  ne_nil : line ≠ []
  no_lf : 10 ∉ line
  other : startsWithIgnoreCase line (ascii "content-disposition:") = false

/-- A field of a form, and the other header lines above and below its name. -/
structure FormField where
  name : Bytes
  filename : Option Bytes := none
  value : Bytes
  above : List Bytes := []
  below : List Bytes := []
  name_ok : Quotable name
  filename_ok : ∀ text ∈ filename, Quotable text
  above_ok : ∀ line ∈ above, OtherLine line
  below_ok : ∀ line ∈ below, OtherLine line

/-- The end of a line. -/
def crlf : Bytes := [13, 10]

theorem getLast?_crlf (text : Bytes) : (text ++ crlf).getLast? = some 10 :=
  List.getLast?_append_of_ne_nil text (List.cons_ne_nil _ _)

namespace FormField

/-- The attributes of the field. -/
def attributes (self : FormField) : Bytes :=
  ascii "name=\"" ++ escape self.name ++ ascii "\"" ++
    match self.filename with
    | none => []
    | some filename => ascii "; filename=\"" ++ escape filename ++ ascii "\""

/-- The header lines of the part. -/
def header (self : FormField) : Bytes :=
  self.above.flatMap (· ++ crlf) ++ (ascii "Content-Disposition: form-data; " ++ self.attributes ++ crlf) ++
    self.below.flatMap (· ++ crlf)

/-- What stands between two delimiters. -/
def part (self : FormField) : Bytes := crlf ++ self.header ++ crlf ++ self.value ++ crlf

/-- What the map takes of the field. -/
def entry (self : FormField) : MultipartEntry := ⟨self.value, self.filename⟩

/-- The name, and what the map takes of the field. -/
def named (self : FormField) : Bytes × MultipartEntry := (self.name, self.entry)

end FormField

/-! ### Header lines -/

/-- The next line is the one up to the next line end. -/
theorem nextLine_crlf {line : Bytes} (h : 10 ∉ line) (rest : Bytes) :
    nextLine (line ++ crlf ++ rest) =
      if line = [] then .last rest
      else
        match readLine (line ++ [13]) with
        | none => .broken (rewriteLine (line ++ [13]) ++ 10 :: rest)
        | some said => .line said (rewriteLine (line ++ [13]) ++ [10]) rest := by
  have hno : 10 ∉ line ++ [13] := by
    rw [List.mem_append, not_or]
    exact ⟨h, by decide⟩
  have htext : line ++ crlf ++ rest = line ++ [13] ++ 10 :: rest := by
    unfold crlf
    simp only [List.append_assoc, List.cons_append, List.nil_append]
  have hlast : ¬(line ++ [13]).getLast? ≠ some 13 := not_not.mpr List.getLast?_concat
  rw [htext, nextLine_append hno, if_neg hlast]
  by_cases hnil : line = []
  · rw [if_pos hnil, if_pos (by rw [hnil]; rfl)]
  · have hmore : ¬line ++ [13] = [13] := fun heq =>
      hnil (List.append_left_eq_self.mp heq)
    refine (if_neg hmore).trans (Eq.trans ?_ (if_neg hnil).symm)
    cases readLine (line ++ [13]) <;> rfl

theorem readLine_other {line : Bytes} (h : OtherLine line) : readLine (line ++ [13]) = some none := by
  have hno : startsWithIgnoreCase (line ++ [13]) (ascii "content-disposition:") = false := by
    by_contra hyes
    obtain ⟨lead, rest, htext, hlength, hlead⟩ :=
      startsWithIgnoreCase_split (Bool.not_eq_false _ ▸ hyes)
    rcases List.eq_nil_or_concat rest with rfl | ⟨rest, b, rfl⟩
    · -- the line would have to end with the colon
      rw [List.append_nil] at htext
      subst htext
      have hsame := congrArg List.getLast? (eqlIgnoreCase_iff.mp hlead)
      rw [List.getLast?_map, List.getLast?_concat] at hsame
      exact absurd hsame (by decide)
    · rw [List.concat_eq_append, ← List.append_assoc] at htext
      obtain ⟨rfl, -⟩ := List.append_inj' htext rfl
      have hother := h.other
      rw [startsWithIgnoreCase_append hlead rest] at hother
      cases hother
  unfold readLine
  rw [hno]
  rfl

theorem readHeader_others {lines : List Bytes} (h : ∀ line ∈ lines, OtherLine line) (rest : Bytes)
    (said : Option (Bytes × Option Bytes)) :
    readHeader (lines.flatMap (· ++ crlf) ++ rest) said = readHeader rest said := by
  induction lines with
  | nil => rfl
  | cons line lines ih =>
      rw [List.forall_mem_cons] at h
      have hnext := nextLine_crlf h.1.no_lf (lines.flatMap (· ++ crlf) ++ rest)
      rw [if_neg h.1.ne_nil, readLine_other h.1] at hnext
      rw [List.flatMap_cons, List.append_assoc, readHeader_line hnext, Option.none_or, ih h.2]

/-! ### The line with the name -/

/-- The attribute with a text in quotes. -/
def quotableAttribute (lead key text : Bytes) (hlead : ∀ b ∈ lead, isSeparator b = true)
    (hkey : validHeaderName key = true) (h : Quotable text) : WrittenAttribute :=
  { lead := lead, key := key, value := .quoted text, lead_separators := hlead, key_token := hkey
    sound := ⟨h.no_cr, h.no_lf⟩ }

namespace FormField

/-- The attributes of a field, as they are written one behind the other. -/
def written (self : FormField) : List WrittenAttribute :=
  quotableAttribute [] (ascii "name") self.name nothing_separates name_token self.name_ok ::
    match self.filename, self.filename_ok with
    | none, _ => []
    | some filename, h =>
        [quotableAttribute (ascii "; ") (ascii "filename") filename semicolon_separates filename_token
          (h filename rfl)]

theorem flatMap_written (self : FormField) : self.written.flatMap WrittenAttribute.text = self.attributes := by
  obtain ⟨name, filename, value, above, below, hname, hfilename, habove, hbelow⟩ := self
  cases filename with
  | none => rfl
  | some filename =>
      unfold written attributes
      simp only [List.flatMap_cons, List.flatMap_nil, List.append_nil, WrittenAttribute.text, quotableAttribute,
        AttributeValue.text]
      rfl

theorem written_separated (self : FormField) : WrittenAttribute.Separated self.written := by
  obtain ⟨name, filename, value, above, below, hname, hfilename, habove, hbelow⟩ := self
  cases filename with
  | none => exact List.isChain_singleton _
  | some filename => exact List.isChain_pair.mpr rfl

theorem written_readable (self : FormField) : ∀ a ∈ self.written, a.value.Readable := by
  obtain ⟨name, filename, value, above, below, hname, hfilename, habove, hbelow⟩ := self
  cases filename with
  | none => exact List.forall_mem_singleton.mpr hname.lone
  | some filename =>
      exact List.forall_mem_cons.mpr ⟨hname.lone, List.forall_mem_singleton.mpr (hfilename filename rfl).lone⟩

/-- The name and the file name of the field are read. -/
theorem readAttributes_attributes (self : FormField) :
    readAttributes self.attributes none none = some (some self.name, self.filename) := by
  rw [← self.flatMap_written, readAttributes_written self.written_separated self.written_readable,
    Option.or_none, Option.or_none]
  obtain ⟨name, filename, value, above, below, hname, hfilename, habove, hbelow⟩ := self
  cases filename <;> rfl

theorem readLine_attributes (self : FormField) :
    readLine (ascii "Content-Disposition: form-data; " ++ self.attributes ++ [13]) =
      some (some (self.name, self.filename)) := by
  have hdisposition : startsWithIgnoreCase
      (ascii "Content-Disposition: form-data; " ++ self.attributes ++ [13])
      (ascii "content-disposition:") = true := by
    rw [List.append_assoc]
    exact @startsWithIgnoreCase_append (ascii "Content-Disposition:") _ (by decide) _
  have hvalue : trim ((ascii "Content-Disposition: form-data; " ++ self.attributes ++ [13]).drop 20) =
      ascii "form-data;" ++ (32 :: self.attributes ++ [13]) := rfl
  have hform : startsWithIgnoreCase (ascii "form-data;" ++ (32 :: self.attributes ++ [13]))
      (ascii "form-data;") = true := startsWithIgnoreCase_append (by decide) _
  have hfields : trim ((ascii "form-data;" ++ (32 :: self.attributes ++ [13])).drop 10).dropLast =
      self.attributes := by
    have hlength : (ascii "form-data;").length = 10 := rfl
    rw [List.drop_left' hlength, List.dropLast_concat]
    rfl
  unfold readLine
  rw [hdisposition, hvalue, hform]
  simp only [Bool.not_true, Bool.false_eq_true, if_false]
  rw [hfields, self.readAttributes_attributes]

end FormField

/-- Nothing but backslashes is written between the characters of a text. -/
theorem mem_escape {b : UInt8} {text : Bytes} (h : b ∈ escape text) : b = 92 ∨ b ∈ text := by
  induction text with
  | nil => exact absurd h List.not_mem_nil
  | cons c rest ih =>
      rw [escape] at h
      split at h
      · rcases List.mem_cons.mp h with hb | hmore
        · exact .inl hb
        · rcases List.mem_cons.mp hmore with rfl | hrest
          · exact .inr List.mem_cons_self
          · exact (ih hrest).imp_right (List.mem_cons_of_mem c)
      · rcases List.mem_cons.mp h with rfl | hrest
        · exact .inr List.mem_cons_self
        · exact (ih hrest).imp_right (List.mem_cons_of_mem c)

namespace FormField

/-- There is no line end in the line with the name. -/
theorem attributes_line (self : FormField) :
    10 ∉ ascii "Content-Disposition: form-data; " ++ self.attributes := by
  have hescape : ∀ {text : Bytes}, Quotable text → 10 ∉ escape text := fun hquotable hmem =>
    (mem_escape hmem).elim (by decide) hquotable.no_lf
  have hname := hescape self.name_ok
  have hstarts : 10 ∉ ascii "Content-Disposition: form-data; " := by decide
  unfold attributes
  have hfirst : 10 ∉ ascii "name=\"" := by decide
  have hquote : 10 ∉ ascii "\"" := by decide
  cases hfilename : self.filename with
  | none =>
      simp only [List.mem_append, not_or]
      exact ⟨hstarts, ⟨⟨hfirst, hname⟩, hquote⟩, List.not_mem_nil⟩
  | some filename =>
      have htext := hescape (self.filename_ok filename hfilename)
      have hsecond : 10 ∉ ascii "; filename=\"" := by decide
      simp only [List.mem_append, not_or]
      exact ⟨hstarts, ⟨⟨hfirst, hname⟩, hquote⟩, ⟨hsecond, htext⟩, hquote⟩

/-- The header of a part is read: it gives the name and the file name. -/
theorem readHeader_header (self : FormField) (rest : Bytes) :
    readHeader (self.header ++ crlf ++ rest) none = some (some (self.name, self.filename), rest) := by
  have htext : self.header ++ crlf ++ rest = self.above.flatMap (· ++ crlf) ++
      (ascii "Content-Disposition: form-data; " ++ self.attributes ++ crlf ++
        (self.below.flatMap (· ++ crlf) ++ ([] ++ crlf ++ rest))) := by
    unfold header
    simp only [List.append_assoc, List.nil_append]
  have hline := nextLine_crlf self.attributes_line
    (self.below.flatMap (· ++ crlf) ++ ([] ++ crlf ++ rest))
  have hne : ¬ascii "Content-Disposition: form-data; " ++ self.attributes = [] := fun h => by
    have hlength := congrArg List.length h
    rw [List.length_append] at hlength
    exact absurd hlength (Nat.ne_of_gt (Nat.add_pos_left (by decide) _))
  rw [if_neg hne, self.readLine_attributes] at hline
  have hlast := @nextLine_crlf [] List.not_mem_nil rest
  rw [if_pos rfl] at hlast
  rw [htext, readHeader_others self.above_ok, readHeader_line hline, readHeader_others self.below_ok,
    readHeader_last hlast]
  rfl

/-- **A part is read**: it gives the map the name, and the value with the file name. -/
theorem readPiece_part (self : FormField) :
    readPiece false self.part = .part self.name self.entry ([13, 10] ++ rewriteHeader (self.part.drop 2)) := by
  have hpart : self.part = [13, 10] ++ (self.header ++ crlf ++ (self.value ++ [13, 10])) := by
    unfold part crlf
    simp only [List.append_assoc]
  have hdrop : self.part.drop 2 = self.header ++ crlf ++ (self.value ++ [13, 10]) := by
    rw [hpart]
    rfl
  have hread : readEntry (self.part.drop 2) = some (self.name, self.entry) := by
    have hlength : (self.value ++ [13, 10]).length - 2 = self.value.length := by
      rw [List.length_append]
      rfl
    have hwhole : ¬((self.value ++ [13, 10]).length < 2 ∨
        (self.value ++ [13, 10]).drop ((self.value ++ [13, 10]).length - 2) ≠ [13, 10]) := by
      rw [hlength, List.drop_left' rfl, List.length_append]
      simp
    unfold readEntry
    rw [hdrop, self.readHeader_header]
    simp only
    rw [if_neg hwhole, hlength, List.take_left' rfl]
    rfl
  have hlast : ¬self.part = ascii "--\r\n" := by
    rw [hpart]
    exact fun h => absurd (List.cons.inj h).1 (by decide)
  have htake : ¬self.part.take 2 ≠ [13, 10] := by
    rw [hpart]
    exact not_not.mpr rfl
  unfold readPiece
  rw [if_neg hlast, if_neg Bool.false_ne_true, if_neg htake, hread]

/-- When there is no room for one more name, no part is read. -/
theorem readPiece_full (self : FormField) :
    readPiece true self.part = .broken .tooManyMultiFormFields self.part := by
  have hlast : ¬self.part = ascii "--\r\n" := by
    unfold part crlf
    exact fun h => absurd (List.cons.inj h).1 (by decide)
  unfold readPiece
  rw [if_neg hlast, if_pos rfl]

end FormField

/-! ### A list of fields -/

/-- **The parts are read** one after the other, as long as there is room. -/
theorem readPieces_parts {limit : ℕ} {fields : List FormField} (rest : List Bytes) :
    ∀ {m : MultipartMap}, FieldMap.Room limit m (fields.map FormField.named) →
      readPieces limit (fields.map FormField.part ++ rest) m =
        readPieces limit rest (FieldMap.add m (fields.map FormField.named)) := by
  induction fields with
  | nil => exact fun _ => rfl
  | cons field fields ih =>
      intro m hroom
      rw [List.map_cons] at hroom
      obtain ⟨hfirst, hrest⟩ := FieldMap.room_cons.mp hroom
      have hroom : decide (limit ≤ m.count) = false := decide_eq_false (Nat.not_le.mpr hfirst)
      rw [List.map_cons, List.cons_append, readPieces, hroom, field.readPiece_part]
      exact ih hrest

theorem readPieces_full {limit : ℕ} {fields : List FormField} (rest : List Bytes) :
    ∀ {m : MultipartMap}, ¬FieldMap.Room limit m (fields.map FormField.named) →
      (readPieces limit (fields.map FormField.part ++ rest) m).1 = some .tooManyMultiFormFields := by
  induction fields with
  | nil => exact fun h => absurd (FieldMap.room_nil limit _) h
  | cons field fields ih =>
      intro m hroom
      rw [List.map_cons, FieldMap.room_cons] at hroom
      rw [List.map_cons, List.cons_append, readPieces]
      by_cases hfull : limit ≤ m.count
      · rw [decide_eq_true hfull, field.readPiece_full]
      · rw [decide_eq_false hfull, field.readPiece_part]
        exact ih fun hrest => hroom ⟨Nat.lt_of_not_le hfull, hrest⟩

end MultipartForm
end Dusty
