import Dusty.BoundaryParameter
import Dusty.FormFields

/-! # Bodies of multipart forms

Fields, each behind a delimiter, and a closing delimiter.  `multipart_round_trip` is that the map of a
form holds its fields, and `multipart_end_iff` at which endings the form is read. -/

namespace Dusty

open Act

/-! ### Boundaries -/

namespace Boundary

/-- A boundary that can be told from what is behind it: it has no line end, and its last byte is no
blank.  Tokens are such, and the boundaries that the format allows (`Legal.delimits`). -/
structure Delimits (boundary : Bytes) : Prop where
  no_cr : 13 ∉ boundary
  no_lf : 10 ∉ boundary
  last : ∃ b, boundary.getLast? = some b ∧ MultipartForm.isBlank b = false

section
variable {boundary : Bytes}

theorem delimits_token (h : validHeaderName boundary = true) : Delimits boundary := by
  obtain ⟨hne, hbytes⟩ := MultipartForm.token_bytes h
  have hno (b : UInt8) (hb : allowedHeaderNameBytes.contains b = false) : b ∉ boundary := by
    intro hmem
    unfold validHeaderName at h
    rw [Bool.and_eq_true, List.all_eq_true] at h
    rw [h.2 b hmem] at hb
    cases hb
  have hlast := List.getLast?_eq_some_getLast hne
  refine ⟨hno 13 (by decide), hno 10 (by decide), boundary.getLast hne, hlast, ?_⟩
  cases hblank : MultipartForm.isBlank (boundary.getLast hne) with
  | false => rfl
  | true =>
      unfold MultipartForm.isBlank at hblank
      rw [Bool.or_eq_true, beq_iff_eq, beq_iff_eq] at hblank
      rcases hblank with hspace | htab
      · exact absurd (List.getLast_mem hne) (hspace ▸ hno 32 (by decide))
      · exact absurd (List.getLast_mem hne) (htab ▸ hno 9 (by decide))

theorem Legal.delimits (h : Legal boundary) : Delimits boundary := by
  have hlast := List.getLast?_eq_some_getLast h.ne_nil
  have hbytes := h.bytes _ (List.getLast_mem h.ne_nil)
  refine ⟨fun hmem => absurd (h.bytes 13 hmem) (by decide), fun hmem => absurd (h.bytes 10 hmem) (by decide),
    _, hlast, ?_⟩
  cases hblank : MultipartForm.isBlank (boundary.getLast h.ne_nil) with
  | false => rfl
  | true =>
      unfold MultipartForm.isBlank at hblank
      rw [Bool.or_eq_true, beq_iff_eq, beq_iff_eq] at hblank
      rcases hblank with hspace | htab
      · exact absurd (hspace ▸ hlast) h.last
      · rw [htab] at hbytes
        exact absurd hbytes (by decide)

theorem Delimits.no_lf_delimiter (h : Delimits boundary) : 10 ∉ delimiter boundary := by
  unfold delimiter
  rw [List.mem_append, not_or]
  exact ⟨by decide, h.no_lf⟩

theorem Delimits.apart_closing (h : Delimits boundary) {pad : Bytes}
    (hpad : ∀ b ∈ pad, MultipartForm.isBlank b = true) :
    Apart (delimiter boundary) (ascii "--" ++ pad ++ MultipartForm.crlf) := by
  obtain ⟨b, hlast, hblank⟩ := h.last
  have hmem := List.mem_of_getLast? hlast
  have hdash : 45 ∉ pad := fun hin => absurd (hpad 45 hin) (by decide)
  refine ⟨fun hin => ?_, fun c hc => ?_⟩
  · -- the last byte of the boundary would be a third dash
    have hdashes := hin.sublist.count_le 45
    have hb := hin.subset (List.mem_append_right (ascii "--") hmem)
    unfold delimiter MultipartForm.crlf at *
    simp only [List.count_append, List.count_eq_zero.mpr hdash] at hdashes
    have htwo : (ascii "--").count 45 = 2 := by decide
    have hcrlf : ([13, 10] : Bytes).count 45 = 0 := by decide
    have hnone : boundary.count 45 = 0 := by omega
    simp only [List.mem_append] at hb
    rcases hb with (hopen | hin) | hend
    · have hsame : b = 45 := by simpa using (show b ∈ [45, 45] from hopen)
      exact List.count_eq_zero.mp hnone (hsame ▸ hmem)
    · rw [hpad b hin] at hblank
      cases hblank
    · rcases List.mem_cons.mp hend with rfl | hend
      · exact h.no_cr hmem
      · obtain rfl := List.mem_singleton.mp hend
        exact h.no_lf hmem
  · rw [MultipartForm.getLast?_crlf] at hc
    cases hc
    exact h.no_lf_delimiter

end

end Boundary

namespace MultipartForm

/-! ### The pieces of a body -/

/-- The fields, each behind a delimiter, and what is behind the last delimiter. -/
def formText (d : Bytes) (fields : List FormField) (last : Bytes) : Bytes :=
  fields.flatMap (fun field => d ++ field.part) ++ (d ++ last)

/-- The pieces of a body are the parts, and those of what is behind the last delimiter. -/
theorem splitSequence_formText {d : Bytes} (hd : d ≠ []) (hlf : 10 ∉ d) {fields : List FormField}
    (hclear : ∀ field ∈ fields, ¬d <:+: field.part) (last : Bytes) :
    ∀ {piece : Bytes}, Apart d piece → splitSequence d hd (piece ++ formText d fields last) =
      piece :: (fields.map FormField.part ++ splitSequence d hd last) := by
  induction fields with
  | nil => exact fun hpiece => splitSequence_apart hpiece last
  | cons field fields ih =>
      intro piece hpiece
      rw [List.forall_mem_cons] at hclear
      have hpart : Apart d field.part := by
        refine ⟨hclear.1, fun b hb => ?_⟩
        unfold FormField.part at hb
        rw [getLast?_crlf] at hb
        cases hb
        exact hlf
      have htext : formText d (field :: fields) last = d ++ (field.part ++ formText d fields last) := by
        unfold formText
        rw [List.flatMap_cons]
        simp only [List.append_assoc]
      rw [htext, splitSequence_apart hpiece, ih hclear.2 hpart, List.map_cons, List.cons_append]

/-! ### Endings -/

/-- What is behind the last delimiter of a body: two dashes and blanks, then nothing, or a line end
and an epilogue. -/
structure Ending where
  pad : Bytes := []
  epilogue : Option Bytes
  pad_blank : ∀ b ∈ pad, isBlank b = true

namespace Ending

/-- How an ending is written. -/
def text (self : Ending) : Bytes :=
  ascii "--" ++ self.pad ++
    match self.epilogue with
    | none => []
    | some rest => crlf ++ rest

/-- An ending without blanks, with a line end, and with nothing behind it or another delimiter. -/
def Recognised (d : Bytes) (self : Ending) : Prop :=
  self.pad = [] ∧ ∃ rest, self.epilogue = some rest ∧ (rest = [] ∨ d <+: rest)

end Ending

/-- The first piece is empty if there is no text, or if it begins with the delimiter. -/
theorem splitSequence_first {d : Bytes} {hd : d ≠ []} (text : Bytes) :
    ∃ first more, splitSequence d hd text = first :: more ∧ (first = [] ↔ text = [] ∨ d <+: text) := by
  cases hindex : indexOfSlice d text with
  | none =>
      refine ⟨text, [], splitSequence_none hindex, (or_iff_left fun hprefix => ?_).symm⟩
      exact indexOfSlice_eq_none.mp hindex hprefix.isInfix
  | some n =>
      obtain ⟨rest, htext, hlength⟩ := indexOfSlice_some hindex
      refine ⟨_, _, splitSequence_some hindex, fun hnil => .inr ?_, ?_⟩
      · rw [hnil, List.nil_append] at htext
        exact ⟨rest, htext.symm⟩
      · rintro (rfl | hprefix)
        · exact List.take_nil
        · cases text with
          | nil => exact List.take_nil
          | cons b text =>
              rw [indexOfSlice, if_pos (List.isPrefixOf_iff_prefix.mpr hprefix)] at hindex
              cases hindex
              rfl

theorem splitSequence_ending {boundary : Bytes} (h : Boundary.Delimits boundary) (e : Ending) :
    ∃ first more, splitSequence (Boundary.delimiter boundary) (Boundary.delimiter_ne_nil boundary) e.text =
        first :: more ∧ first.take 2 ≠ [13, 10] ∧
      (first = ascii "--\r\n" ↔ e.Recognised (Boundary.delimiter boundary)) := by
  obtain ⟨pad, epilogue, hpad⟩ := e
  have hclosing := h.apart_closing hpad
  have htake : ∀ more : Bytes, (ascii "--" ++ more).take 2 ≠ [13, 10] := fun more heq =>
    absurd (List.cons.inj heq).1 (by decide)
  cases epilogue with
  | none =>
      have hno : ¬Boundary.delimiter boundary <:+: ascii "--" ++ pad := fun hin =>
        hclosing.1 (hin.trans (List.prefix_append _ _).isInfix)
      refine ⟨ascii "--" ++ pad, [], ?_, htake pad, iff_of_false (fun heq => ?_) ?_⟩
      · exact (congrArg _ (List.append_nil _)).trans (splitSequence_last hno)
      · have hblank : pad = [13, 10] := List.append_cancel_left (show ascii "--" ++ pad = ascii "--" ++ [13, 10] from heq)
        exact absurd (hpad 13 (by rw [hblank]; exact List.mem_cons_self)) (by decide)
      · rintro ⟨-, rest, hrest, -⟩
        cases hrest
  | some rest =>
      obtain ⟨first, more, hsplit, hfirst⟩ :=
        @splitSequence_first _ (Boundary.delimiter_ne_nil boundary) rest
      have hwhole := @splitSequence_append _ (Boundary.delimiter_ne_nil boundary) _ hclosing rest
      rw [hsplit, List.modifyHead_cons] at hwhole
      refine ⟨ascii "--" ++ pad ++ crlf ++ first, more, ?_, ?_, ?_⟩
      · exact (congrArg _ (List.append_assoc _ _ _).symm).trans hwhole
      · rw [List.append_assoc, List.append_assoc]
        exact htake _
      · constructor
        · intro heq
          have hlength := congrArg List.length heq
          simp only [List.length_append] at hlength
          have hclose : (ascii "--").length = 2 ∧ crlf.length = 2 ∧ (ascii "--\r\n").length = 4 := by decide
          have hnil : pad.length = 0 ∧ first.length = 0 := by omega
          exact ⟨List.length_eq_zero_iff.mp hnil.1, rest, rfl, hfirst.mp (List.length_eq_zero_iff.mp hnil.2)⟩
        · rintro ⟨rfl, rest', hrest, hend⟩
          cases hrest
          rw [hfirst.mpr hend]
          rfl

/-! ### What is read of a body -/

/-- The map of the fields. -/
def formMap (fields : List FormField) : MultipartMap := FieldMap.add ∅ (fields.map FormField.named)

/-- The last field with a name is the one in the map. -/
theorem lookup_formMap (fields : List FormField) (name : Bytes) :
    (formMap fields).lookup name =
      (fields.reverse.find? fun field => decide (field.name = name)).map FormField.entry := by
  have hlookup : ∀ fields : List FormField, (fields.map FormField.named).lookup name =
      (fields.find? fun field => decide (field.name = name)).map FormField.entry := by
    intro fields
    induction fields with
    | nil => rfl
    | cons field fields ih =>
        rw [List.map_cons, FormField.named, List.lookup_cons, List.find?_cons]
        by_cases hname : field.name = name
        · rw [beq_iff_eq.mpr hname.symm, decide_eq_true hname]
          rfl
        · rw [beq_false_of_ne (Ne.symm hname), decide_eq_false hname, ih]
  unfold formMap
  rw [FieldMap.lookup_add, Finmap.lookup_empty, Option.or_none, ← List.map_reverse, hlookup]

/-- **A body is read** exactly if its ending is recognised and there is room for its fields. -/
theorem readForm_formText {boundary : Bytes} (h : Boundary.Delimits boundary) {fields : List FormField}
    (hclear : ∀ field ∈ fields, ¬Boundary.delimiter boundary <:+: field.part) (e : Ending) {limit : ℕ} :
    readForm limit (splitSequence (Boundary.delimiter boundary) (Boundary.delimiter_ne_nil boundary)
        (formText (Boundary.delimiter boundary) fields e.text)) ∅ = (none, formMap fields) ↔
      e.Recognised (Boundary.delimiter boundary) ∧ FieldMap.Room limit ∅ (fields.map FormField.named) := by
  obtain ⟨first, more, hsplit, htake, hfirst⟩ := splitSequence_ending h e
  have hpieces := splitSequence_formText (Boundary.delimiter_ne_nil boundary) h.no_lf_delimiter hclear e.text
    (apart_nil (Boundary.delimiter_ne_nil boundary))
  rw [List.nil_append, hsplit] at hpieces
  rw [hpieces, readForm, if_pos rfl]
  by_cases hroom : FieldMap.Room limit ∅ (fields.map FormField.named)
  · rw [readPieces_parts _ hroom, and_iff_left hroom, ← hfirst, readPieces, readPiece]
    by_cases hlast : first = ascii "--\r\n"
    · rw [if_pos hlast]
      exact iff_of_true rfl hlast
    · rw [if_neg hlast, if_pos htake]
      refine iff_of_false (fun heq => ?_) hlast
      split at heq <;> next hpiece => split at hpiece <;> cases hpiece <;> cases heq
  · refine iff_of_false (fun heq => ?_) fun hboth => hroom hboth.2
    have hfull := readPieces_full (first :: more) hroom
    rw [heq] at hfull
    cases hfull

end MultipartForm

/-! ### A token for a boundary -/

namespace Boundary

/-- No boundary begins where none of its letters is. -/
theorem first_skip {front : Bytes} (h : ∀ b ∈ front, toLower b ≠ 98) (text : Bytes) :
    first (front ++ text) = first text := by
  induction front with
  | nil => rfl
  | cons b front ih =>
      rw [List.forall_mem_cons] at h
      have hno : here (b :: (front ++ text)) = none := by
        unfold here
        rw [if_neg fun hstart => h.1 (startsWith_head hstart)]
      rw [List.cons_append, first, hno, Option.none_or, ih h.2]

/-- A boundary parameter whose value is a token is the boundary. -/
theorem first_token {p : Parameter} {b : Bytes} (hlead : p.lead = [])
    (hname : eqlIgnoreCase p.name (ascii "boundary") = true) (hvalue : p.value = .token b)
    (hlong : b.length ≤ 70) : first p.text = some b := by
  have hsound := p.sound
  rw [hvalue] at hsound
  obtain ⟨hne, hbytes⟩ := MultipartForm.token_bytes hsound
  have husable : usable b = some b := by
    have hpos := List.length_pos_iff.mpr hne
    have hhead : b.head? ≠ some 34 := fun h => (hbytes 34 (List.mem_of_head? h)).2.2.2 rfl
    unfold usable
    rw [if_neg (by omega), if_neg hhead]
  have hfront : ∀ c ∈ p.front, toLower c ≠ 98 := by
    intro c hc
    unfold Parameter.front at hc
    rw [hlead, List.nil_append, List.singleton_append, List.mem_cons] at hc
    rcases hc with rfl | hgap
    · decide
    · rcases p.gap_blank c hgap with rfl | rfl <;> decide
  have hhere : here (p.name ++ [61] ++ p.value.text) = some b := by
    rw [here_parameter hname, hvalue]
    exact husable
  obtain ⟨c, rest, hcons⟩ := List.exists_cons_of_ne_nil
    (show p.name ++ [61] ++ p.value.text ≠ [] by simp)
  rw [Parameter.text, first_skip hfront, hcons, first, ← hcons, hhere, Option.some_or]

end Boundary

/-- A `Content-Type` whose parameter follows at once is taken for its type. -/
theorem fromContentType_parameter {type : Bytes}
    (htype : eqlIgnoreCase type (ascii "multipart/form-data") = true) {p : Parameter} (hlead : p.lead = []) :
    ContentType.fromContentType (Parameter.contentType type [p]) = .multipartForm := by
  have hlower : type.map toLower = ascii "multipart/form-data" := by
    rw [eqlIgnoreCase_iff.mp htype]
    decide
  have hlength : type.length = 19 := by
    rw [← List.length_map toLower, hlower]
    rfl
  have hno : 59 ∉ type := by
    intro hmem
    have hlow := List.mem_map_of_mem (f := toLower) hmem
    rw [hlower] at hlow
    exact absurd hlow (by decide)
  have hrest : ([p].flatMap Parameter.text).head? = some 59 := by
    rw [List.flatMap_singleton, Parameter.text, Parameter.front, hlead]
    rfl
  rw [ContentType.fromContentType_multipart, Parameter.contentType,
    ContentType.mainType_append hno (.inr hrest) (by omega), hlower]

namespace Exchange

open MultipartForm

section
variable {L : Llhttp} {room : ℕ → ℕ} {self self₁ : Exchange L} {limit : ℕ} {fields : List FormField}

/-- **The end of a form**: the fields are what is returned exactly if the ending is recognised and there
is room for them. -/
theorem multipart_end_iff {v boundary : Bytes} (hself : self.request.Described v limit ∅)
    (hform : ContentType.fromContentType v = .multipartForm)
    (hfirst : Boundary.first (v.drop 19) = some boundary) (hdelimits : Boundary.Delimits boundary)
    (hclear : ∀ field ∈ fields, ¬Boundary.delimiter boundary <:+: field.part) {e : Ending}
    (hbody : body room self = .ok (some (formText (Boundary.delimiter boundary) fields e.text)) self₁) :
    (∃ self₂, multiFormData room self = .ok (formMap fields) self₂) ↔
      e.Recognised (Boundary.delimiter boundary) ∧
        FieldMap.Room limit ∅ (fields.map FormField.named) := by
  rw [multiFormData_eq hself hform hbody, hfirst, ← readForm_formText hdelimits hclear e]
  simp only
  obtain ⟨failure, m⟩ := readForm limit (splitSequence (Boundary.delimiter boundary)
    (Boundary.delimiter_ne_nil boundary) (formText (Boundary.delimiter boundary) fields e.text)) ∅
  cases failure with
  | none =>
      constructor
      · rintro ⟨self₂, hrun⟩
        cases hrun
        rfl
      · intro heq
        cases heq
        exact ⟨_, rfl⟩
  | some e =>
      constructor
      · rintro ⟨self₂, hrun⟩
        cases hrun
      · intro heq
        cases heq

/-- **The round trip of a form**: the map holds, for every name, the value and the file name of the
last field with it. -/
theorem multipart_round_trip {type boundary : Bytes}
    (htype : eqlIgnoreCase type (ascii "multipart/form-data") = true) {p : Parameter} (hlead : p.lead = [])
    (hname : eqlIgnoreCase p.name (ascii "boundary") = true) (hvalue : p.value = .token boundary)
    (hlong : boundary.length ≤ 70) (hself : self.request.Described (Parameter.contentType type [p]) limit ∅)
    (hcount : fields.length ≤ limit)
    (hclear : ∀ field ∈ fields, ¬Boundary.delimiter boundary <:+: field.part)
    (hbody : body room self =
      .ok (some (formText (Boundary.delimiter boundary) fields (ascii "--\r\n"))) self₁) :
    ∃ m self₂, multiFormData room self = .ok m self₂ ∧
      ∀ name, m.lookup name =
        (fields.reverse.find? fun field => decide (field.name = name)).map FormField.entry := by
  have hsound := p.sound
  rw [hvalue] at hsound
  have hform := fromContentType_parameter htype hlead
  have hfirst : Boundary.first ((Parameter.contentType type [p]).drop 19) = some boundary := by
    have hlength := congrArg List.length (eqlIgnoreCase_iff.mp htype)
    rw [List.length_map, List.length_map] at hlength
    have hnineteen : type.length = 19 := hlength
    unfold Parameter.contentType
    rw [List.drop_left' hnineteen, List.flatMap_singleton, Boundary.first_token hlead hname hvalue hlong]
  have hroom : FieldMap.Room limit ∅ (fields.map FormField.named) := by
    refine FieldMap.room_of_length ?_
    rw [Finmap.keys_empty, Finset.card_empty, Nat.zero_add, List.length_map]
    exact hcount
  have hread := (readForm_formText (Boundary.delimits_token hsound) hclear
    ⟨[], some [], fun _ h => absurd h List.not_mem_nil⟩).mpr ⟨⟨rfl, [], rfl, .inl rfl⟩, hroom⟩
  have hrun := multiFormData_eq hself hform hbody
  rw [hfirst] at hrun
  have hending : ({ pad := [], epilogue := some [], pad_blank := fun _ h => absurd h List.not_mem_nil } :
      Ending).text = ascii "--\r\n" := rfl
  rw [hending] at hread
  simp only at hrun
  rw [hread] at hrun
  exact ⟨formMap fields, _, hrun, lookup_formMap fields⟩

end

/-- A field with a file name, a line above its name, and a value that looks like a header. -/
def sampleField : FormField where
  name := ascii "upload"
  filename := some (ascii "a.txt")
  value := ascii "--\r\nname: \r\n"
  above := [ascii "Content-Type: text/plain"]
  name_ok := quotable_of_plain (by decide) (by decide) (by decide)
  filename_ok := by
    intro text htext
    cases htext
    exact quotable_of_plain (by decide) (by decide) (by decide)
  above_ok := List.forall_mem_singleton.mpr ⟨by decide, by decide, by decide⟩
  below_ok := fun _ h => absurd h List.not_mem_nil

/-- The parameter with the boundary `xyz`. -/
def sampleBoundary : Parameter :=
  .ofToken (ascii "boundary") (ascii "xyz") boundary_token xyz_token

theorem multipart_round_trip_sample :
    ∃ m self₂, multiFormData id (multipartOf
        (Parameter.contentType (ascii "multipart/form-data") [sampleBoundary])
        (formText (Boundary.delimiter (ascii "xyz")) [sampleField, sampleField] (ascii "--\r\n"))) =
          .ok m self₂ ∧
      ∀ name, m.lookup name =
        ([sampleField, sampleField].reverse.find? fun field => decide (field.name = name)).map
          FormField.entry :=
  multipart_round_trip (by decide) rfl (by decide) rfl (by decide) ⟨rfl, rfl, rfl, rfl, rfl⟩ (by decide)
    (by decide +kernel) rfl

theorem multipart_end_iff_sample :
    (∃ self₂, multiFormData id (multipartOf
        (Parameter.contentType (ascii "multipart/form-data") [sampleBoundary])
        (formText (Boundary.delimiter (ascii "xyz")) [sampleField]
          (Ending.mk [] (some (ascii "--xyz")) (by simp)).text)) = .ok (formMap [sampleField]) self₂) ↔
      (Ending.mk [] (some (ascii "--xyz")) (by simp)).Recognised (Boundary.delimiter (ascii "xyz")) ∧
        FieldMap.Room 32 ∅ ([sampleField].map FormField.named) :=
  multipart_end_iff ⟨rfl, rfl, rfl, rfl, rfl⟩ (by decide) (by decide)
    ⟨by decide, by decide, 122, rfl, by decide⟩ (by decide +kernel) rfl

/-- With nothing behind its closing delimiter, a form is an error. -/
theorem multipart_end_not :
    ∃ self₂, multiFormData id (multipartOf
        (Parameter.contentType (ascii "multipart/form-data") [sampleBoundary])
        (formText (Boundary.delimiter (ascii "xyz")) [sampleField] (Ending.mk [] none (by simp)).text)) =
      .error (.err .invalidMultiPartEncoding) self₂ :=
  faults_iff.mp (by decide +kernel)

end Exchange
end Dusty
