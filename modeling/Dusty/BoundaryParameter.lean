import Dusty.MultipartForms

/-! # The boundary parameter

A `Content-Type` with parameters, one of which is the boundary.  `boundary_exact_iff` is for which of
them the body is split at that boundary. -/

namespace Dusty

open Act

/-! ### Parameters -/

/-- The value of a parameter: a token, or a quoted text, whose bytes have a backslash in front or none. -/
inductive ParameterValue where
  | token (text : Bytes)
  | quoted (chars : List (Bool × UInt8))
deriving DecidableEq, Repr

namespace ParameterValue

/-- A byte of a quoted text. -/
def charText (c : Bool × UInt8) : Bytes := if c.1 then [92, c.2] else [c.2]

/-- How a value is written. -/
def text : ParameterValue → Bytes
  | token text => text
  | quoted chars => 34 :: chars.flatMap charText ++ [34]

/-- What a value is. -/
def content : ParameterValue → Bytes
  | token text => text
  | quoted chars => chars.map Prod.snd

/-- A token is one, and a quoted text has no quote or backslash without a backslash in front. -/
def Sound : ParameterValue → Prop
  | token text => validHeaderName text = true
  | quoted chars => ∀ c ∈ chars, c.1 = false → c.2 ≠ 34 ∧ c.2 ≠ 92

/-- The value is in quotes. -/
def isQuoted : ParameterValue → Bool
  | token _ => false
  | quoted _ => true

/-- The value is written as it is, in quotes or not, and fits. -/
def Plain : ParameterValue → Prop
  | token _ => True
  | quoted chars => (∀ c ∈ chars, c.1 = false) ∧ chars.length ≤ 68

end ParameterValue

/-- A parameter with the blanks around its `;`. -/
structure Parameter where
  lead : Bytes := []
  gap : Bytes := [32]
  name : Bytes
  value : ParameterValue
  lead_blank : ∀ b ∈ lead, b = 32 ∨ b = 9
  gap_blank : ∀ b ∈ gap, b = 32 ∨ b = 9
  name_token : validHeaderName name = true
  sound : value.Sound

namespace Parameter

/-- What comes in front of the value. -/
def front (self : Parameter) : Bytes := self.lead ++ [59] ++ self.gap

/-- How a parameter is written. -/
def text (self : Parameter) : Bytes := self.front ++ (self.name ++ [61] ++ self.value.text)

/-- A parameter whose value is a token. -/
def ofToken (name value : Bytes) (hname : validHeaderName name = true)
    (hvalue : validHeaderName value = true) : Parameter where
  name := name
  value := .token value
  lead_blank := by simp
  gap_blank := by simp
  name_token := hname
  sound := hvalue

theorem text_ne_nil (self : Parameter) : self.text ≠ [] := by
  unfold text front
  simp

end Parameter

namespace Boundary

/-- A byte that a boundary can hold. -/
def isBoundaryByte (b : UInt8) : Bool :=
  (ascii "'()+_,-./:=? 0123456789ABCDEFGHIJKLMNOPQRSTUVWXYZabcdefghijklmnopqrstuvwxyz").contains b

/-- A boundary that is allowed. -/
structure Legal (boundary : Bytes) : Prop where
  ne_nil : boundary ≠ []
  length_le : boundary.length ≤ 70
  bytes : ∀ b ∈ boundary, isBoundaryByte b = true
  last : boundary.getLast? ≠ some 32

theorem Legal.no_quote {boundary : Bytes} (h : Legal boundary) : 34 ∉ boundary := fun hmem =>
  absurd (h.bytes 34 hmem) (by decide)

/-! ### Where it is taken from -/

/-- A place that says `boundary=` where none can be used: there is too much text behind, or it begins
with a quote that is not closed at the end. -/
def Passed (quoted : Bool) (text : Bytes) : Prop :=
  startsWithIgnoreCase text (ascii "boundary=") = true →
    70 < (text.drop 9).length ∨ (quoted = false ∧ (text.drop 9).head? = some 34)

/-- A boundary that is not quoted can be used if nothing is behind it. -/
theorem usable_token {b tail : Bytes} (hlegal : Legal b) : usable (b ++ tail) = some b ↔ tail = [] := by
  have hhead : (b ++ tail).head? ≠ some 34 := by
    obtain ⟨c, rest, rfl⟩ := List.exists_cons_of_ne_nil hlegal.ne_nil
    intro h
    obtain rfl : c = 34 := by simpa using h
    exact hlegal.no_quote List.mem_cons_self
  unfold usable
  rw [if_neg hhead]
  constructor
  · intro h
    split at h
    · cases h
    · have hsame : b ++ tail = b ++ [] := by rw [List.append_nil, Option.some.inj h]
      exact List.append_cancel_left hsame
  · rintro rfl
    have hpos := List.length_pos_iff.mpr hlegal.ne_nil
    have hle := hlegal.length_le
    rw [List.append_nil, if_neg (by omega)]

/-- A boundary in quotes can be used if nothing is behind it and the quotes fit too. -/
theorem usable_quoted {b raw tail : Bytes} (hlegal : Legal b) :
    usable (34 :: raw ++ [34] ++ tail) = some b ↔ tail = [] ∧ raw = b ∧ b.length ≤ 68 := by
  unfold usable
  constructor
  · intro h
    split at h
    · cases h
    · next hlength =>
        rw [if_pos (by rfl)] at h
        split at h
        · have hinner : (raw ++ [34] ++ tail).dropLast = b := Option.some.inj h
          rcases List.eq_nil_or_concat tail with rfl | ⟨tail, c, rfl⟩
          · rw [List.append_nil, List.dropLast_concat] at hinner
            subst hinner
            refine ⟨rfl, rfl, ?_⟩
            simp only [List.length_append, List.length_cons, List.length_nil] at hlength
            omega
          · rw [List.concat_eq_append, ← List.append_assoc, List.dropLast_concat] at hinner
            refine absurd ?_ hlegal.no_quote
            rw [← hinner]
            simp
        · cases h
  · rintro ⟨rfl, rfl, hle⟩
    have hpos := List.length_pos_iff.mpr hlegal.ne_nil
    have hlong : ¬((34 :: raw ++ [34] ++ []).length = 0 ∨ 70 < (34 :: raw ++ [34] ++ []).length) := by
      simp only [List.length_append, List.length_cons, List.length_nil]
      omega
    have hclosed : 2 < (34 :: raw ++ [34] ++ []).length ∧ (34 :: raw ++ [34] ++ []).getLast? = some 34 := by
      rw [List.append_nil, List.getLast?_concat]
      simp only [List.length_append, List.length_cons, List.length_nil]
      exact ⟨by omega, trivial⟩
    rw [if_neg hlong, if_pos (by rfl), if_pos hclosed, List.append_nil]
    exact congrArg some List.dropLast_concat

/-- A quoted text has no backslash in it if it is as long as its content. -/
theorem flatMap_charText {chars : List (Bool × UInt8)} :
    chars.flatMap ParameterValue.charText = chars.map Prod.snd ↔ ∀ c ∈ chars, c.1 = false := by
  constructor
  · intro h
    have hle : ∀ chars : List (Bool × UInt8), (chars.map Prod.snd).length ≤
        (chars.flatMap ParameterValue.charText).length := by
      intro chars
      induction chars with
      | nil => exact le_rfl
      | cons c chars ih =>
          have hpos : 0 < (ParameterValue.charText c).length := by
            unfold ParameterValue.charText
            split <;> exact Nat.succ_pos _
          rw [List.flatMap_cons, List.map_cons, List.length_cons, List.length_append]
          omega
    induction chars with
    | nil => exact fun c hc => absurd hc List.not_mem_nil
    | cons c chars ih =>
        rw [List.flatMap_cons, List.map_cons] at h
        obtain ⟨escaped, b⟩ := c
        cases escaped with
        | true =>
            have hlength := congrArg List.length h
            have hrest := hle chars
            simp only [ParameterValue.charText, if_true, List.length_append, List.length_cons,
              List.length_nil] at hlength
            omega
        | false =>
            have hrest : chars.flatMap ParameterValue.charText = chars.map Prod.snd :=
              (List.cons.inj h).2
            intro c hc
            rcases List.mem_cons.mp hc with rfl | hc
            · rfl
            · exact ih hrest c hc
  · intro h
    induction chars with
    | nil => rfl
    | cons c chars ih =>
        rw [List.forall_mem_cons] at h
        rw [List.flatMap_cons, List.map_cons, ih h.2, ParameterValue.charText, h.1]
        rfl

/-- The value of the parameter can be used where it stands. -/
theorem usable_value {value : ParameterValue} {b tail : Bytes} (hcontent : value.content = b)
    (hlegal : Legal b) : usable (value.text ++ tail) = some b ↔ tail = [] ∧ value.Plain := by
  subst hcontent
  cases value with
  | token text =>
      refine (usable_token hlegal).trans ?_
      simp [ParameterValue.Plain]
  | quoted chars =>
      refine (usable_quoted hlegal).trans (and_congr_right fun _ => ?_)
      unfold ParameterValue.Plain ParameterValue.content
      rw [flatMap_charText, List.length_map]

/-- Where none can be used in front of the parameter. -/
theorem here_eq_none {text : Bytes} {quoted : Bool} (hlong : 9 < text.length)
    (hquoted : quoted = true → 11 < text.length) (hlast : text.getLast? = some 34 ↔ quoted = true) :
    here text = none ↔ Passed quoted text := by
  have hsplit : text.take 9 ++ text.drop 9 = text := List.take_append_drop 9 text
  have hlength : (text.drop 9).length = text.length - 9 := List.length_drop
  have hne : text.drop 9 ≠ [] := by
    intro h
    rw [h] at hlength
    simp only [List.length_nil] at hlength
    omega
  have hlast' : (text.drop 9).getLast? = some 34 ↔ quoted = true := by
    rw [← hlast]
    conv_rhs => rw [← hsplit, List.getLast?_append_of_ne_nil _ hne]
  unfold here Passed
  generalize text.drop 9 = raw at hlength hlast' hne ⊢
  cases startsWithIgnoreCase text (ascii "boundary=") with
  | false => exact iff_of_true rfl fun h => by cases h
  | true =>
      rw [if_pos rfl, usable, eq_self (true : Bool), true_imp_iff]
      by_cases htoo : 70 < raw.length
      · rw [if_pos (.inr htoo)]
        exact iff_of_true rfl (.inl htoo)
      · rw [if_neg (by omega), or_iff_right htoo]
        by_cases hhead : raw.head? = some 34
        · rw [if_pos hhead, and_iff_left hhead]
          cases hwritten : quoted with
          | false =>
              have hopen : ¬(2 < raw.length ∧ raw.getLast? = some 34) := by
                rw [hlast', hwritten]
                simp
              rw [if_neg hopen]
              exact iff_of_true rfl rfl
          | true =>
              have hclosed : 2 < raw.length ∧ raw.getLast? = some 34 :=
                ⟨by have := hquoted hwritten; omega, hlast'.mpr hwritten⟩
              rw [if_pos hclosed]
              simp
        · rw [if_neg hhead]
          exact iff_of_false (by simp) fun h => hhead h.2

/-- A value ends with a quote exactly if it is in quotes. -/
theorem text_last {value : ParameterValue} {b : Bytes} (hcontent : value.content = b) (hlegal : Legal b) :
    value.text ≠ [] ∧ (value.isQuoted = true → 1 < value.text.length) ∧
      (value.text.getLast? = some 34 ↔ value.isQuoted = true) := by
  subst hcontent
  cases value with
  | token text =>
      refine ⟨hlegal.ne_nil, fun h => absurd h Bool.false_ne_true, ?_⟩
      exact iff_of_false (fun h => hlegal.no_quote (List.mem_of_getLast? h)) Bool.false_ne_true
  | quoted chars =>
      refine ⟨List.cons_ne_nil _ _, fun _ => ?_, iff_of_true ?_ rfl⟩
      · unfold ParameterValue.text
        rw [List.length_append, List.length_cons, List.length_singleton]
        omega
      · exact List.getLast?_concat

theorem boundary_mark {name : Bytes} (hname : eqlIgnoreCase name (ascii "boundary") = true) :
    eqlIgnoreCase (name ++ [61]) (ascii "boundary=") = true ∧ (name ++ [61]).length = 9 := by
  have hmark : eqlIgnoreCase (name ++ [61]) (ascii "boundary=") = true := by
    rw [eqlIgnoreCase_iff] at hname ⊢
    rw [List.map_append, hname]
    decide
  have hlength := congrArg List.length (eqlIgnoreCase_iff.mp hmark)
  rw [List.length_map, List.length_map] at hlength
  exact ⟨hmark, hlength⟩

theorem here_parameter {name : Bytes} (hname : eqlIgnoreCase name (ascii "boundary") = true) (raw : Bytes) :
    here (name ++ [61] ++ raw) = usable raw := by
  obtain ⟨hmark, hnine⟩ := boundary_mark hname
  unfold here
  rw [startsWithIgnoreCase_append hmark, if_pos rfl, List.drop_left' hnine]

/-- **Where the boundary is taken from**: from a parameter, exactly if nothing is behind it, its value
is written as it is and fits, and no place in front of it can be used. -/
theorem taken_iff {lead name tail b : Bytes} {value : ParameterValue}
    (hname : eqlIgnoreCase name (ascii "boundary") = true) (hcontent : value.content = b)
    (hlegal : Legal b) :
    Taken (lead ++ (name ++ [61] ++ value.text) ++ tail) lead.length b ↔
      tail = [] ∧ value.Plain ∧ ∀ j < lead.length,
        Passed value.isQuoted ((lead ++ (name ++ [61] ++ value.text) ++ tail).drop j) := by
  obtain ⟨-, hnine⟩ := boundary_mark hname
  have hdrop : (lead ++ (name ++ [61] ++ value.text) ++ tail).drop lead.length =
      name ++ [61] ++ (value.text ++ tail) := by
    rw [List.append_assoc, List.append_assoc (name ++ [61]), List.drop_left' rfl]
  unfold Taken
  rw [hdrop, here_parameter hname, usable_value hcontent hlegal, and_assoc]
  refine and_congr_right fun htail => and_congr_right fun hplain => forall₂_congr fun j hj => ?_
  subst htail
  rw [List.append_nil]
  obtain ⟨hne, hquoted, hlast⟩ := text_last hcontent hlegal
  have hpos := List.length_pos_iff.mpr hne
  have hlength : ((lead ++ (name ++ [61] ++ value.text)).drop j).length =
      lead.length - j + (9 + value.text.length) := by
    rw [List.length_drop, List.length_append, List.length_append, hnine]
    omega
  have hsuffix : (lead ++ (name ++ [61] ++ value.text)).drop j =
      lead.drop j ++ (name ++ [61]) ++ value.text := by
    rw [List.drop_append_of_le_length hj.le]
    simp only [List.append_assoc]
  refine here_eq_none ?_ (fun h => ?_) ?_
  · rw [hlength]
    omega
  · have hmore := hquoted h
    rw [hlength]
    omega
  · rw [hsuffix, List.getLast?_append_of_ne_nil _ hne, hlast]

end Boundary

/-! ### The request -/

/-- A `Content-Type` with parameters. -/
def Parameter.contentType (type : Bytes) (parameters : List Parameter) : Bytes :=
  type ++ parameters.flatMap Parameter.text

namespace Exchange

/-- Whatever the body of a request with the `Content-Type` is, it is split at the boundary. -/
def SplitsAt (v boundary : Bytes) : Prop :=
  ∀ (L : Llhttp) (room : ℕ → ℕ) (self self₁ : Exchange L) (s : Bytes) (limit : ℕ) (mfd : MultipartMap),
    self.request.Described v limit mfd → body room self = .ok (some s) self₁ →
      multiFormData room self =
        self₁.formed
          ((Boundary.delimiter boundary).intercalate (MultipartForm.rewriteForm limit
            (splitSequence (Boundary.delimiter boundary) (Boundary.delimiter_ne_nil boundary) s) mfd))
          (MultipartForm.readForm limit
            (splitSequence (Boundary.delimiter boundary) (Boundary.delimiter_ne_nil boundary) s) mfd)

/-- A body is split at the first boundary that can be used. -/
theorem splitsAt_first {v boundary : Bytes} (hform : ContentType.fromContentType v = .multipartForm)
    (hfirst : Boundary.first (v.drop 19) = some boundary) : SplitsAt v boundary := by
  intro L room self self₁ s limit mfd hself hbody
  rw [multiFormData_eq hself hform hbody, hfirst]

/-- A body is split at all only if the request is taken for a multipart form. -/
theorem fromContentType_of_splitsAt {v boundary : Bytes} (h : SplitsAt v boundary) :
    ContentType.fromContentType v = .multipartForm := by
  by_contra hno
  have hself : (multipartOf v [0]).request.Described v 32 ∅ := ⟨rfl, rfl, rfl, rfl, rfl⟩
  have hrun := h _ id _ _ [0] 32 ∅ hself rfl
  have hother := @multiFormData_other _ id (multipartOf v [0]) rfl
    fun heq => hno (Option.some.inj heq)
  have hpieces : splitSequence (Boundary.delimiter boundary) (Boundary.delimiter_ne_nil boundary) [0] = [[0]] := by
    refine splitSequence_last fun hin => ?_
    have hle := hin.length_le
    unfold Boundary.delimiter at hle
    rw [List.length_append, show (ascii "--").length = 2 from by decide, List.length_singleton] at hle
    omega
  rw [hother, hpieces] at hrun
  cases hrun

/-- **The boundary parameter**: the body is split at exactly the boundary, and it is taken from the
parameter, exactly if the `Content-Type` is taken for a multipart form, no parameter follows, the value
is written without escapes and fits together with its quotes, and no place in front that says `boundary=`
can be used. -/
theorem boundary_exact_iff {type b : Bytes} (htype : eqlIgnoreCase type (ascii "multipart/form-data") = true)
    (before after : List Parameter) {p : Parameter} (hname : eqlIgnoreCase p.name (ascii "boundary") = true)
    (hcontent : p.value.content = b) (hlegal : Boundary.Legal b) :
    SplitsAt (Parameter.contentType type (before ++ p :: after)) b ∧
        Boundary.Taken ((Parameter.contentType type (before ++ p :: after)).drop 19)
          (before.flatMap Parameter.text ++ p.front).length b ↔
      ContentType.fromContentType (Parameter.contentType type (before ++ p :: after)) = .multipartForm ∧
        after = [] ∧ p.value.Plain ∧
        ∀ j < (before.flatMap Parameter.text ++ p.front).length,
          Boundary.Passed p.value.isQuoted
            (((Parameter.contentType type (before ++ p :: after)).drop 19).drop j) := by
  have hnineteen : type.length = 19 := by
    have hlength := congrArg List.length (eqlIgnoreCase_iff.mp htype)
    rwa [List.length_map, List.length_map] at hlength
  have hdirective : (Parameter.contentType type (before ++ p :: after)).drop 19 =
      (before.flatMap Parameter.text ++ p.front) ++ (p.name ++ [61] ++ p.value.text) ++
        after.flatMap Parameter.text := by
    unfold Parameter.contentType
    rw [List.drop_left' hnineteen, List.flatMap_append, List.flatMap_cons, Parameter.text]
    simp only [List.append_assoc]
  have hafter : after.flatMap Parameter.text = [] ↔ after = [] := by
    cases after with
    | nil => exact iff_of_true rfl rfl
    | cons q after =>
        refine iff_of_false (fun h => ?_) (List.cons_ne_nil _ _)
        rw [List.flatMap_cons] at h
        exact q.text_ne_nil (List.append_eq_nil_iff.mp h).1
  have htaken := @Boundary.taken_iff (before.flatMap Parameter.text ++ p.front) p.name
    (after.flatMap Parameter.text) b p.value hname hcontent hlegal
  rw [← hdirective, hafter] at htaken
  constructor
  · rintro ⟨hsplits, h⟩
    exact ⟨fromContentType_of_splitsAt hsplits, htaken.mp h⟩
  · rintro ⟨hform, h⟩
    have htake := htaken.mpr h
    exact ⟨splitsAt_first hform htake.first, htake⟩

theorem boundary_token : validHeaderName (ascii "boundary") = true := by decide

theorem xyz_token : validHeaderName (ascii "xyz") = true := by decide

/-- `multipart/form-data; boundary=xyz; charset=utf-8`. -/
def charsetBehind : Bytes :=
  Parameter.contentType (ascii "multipart/form-data")
    [.ofToken (ascii "boundary") (ascii "xyz") boundary_token xyz_token,
      .ofToken (ascii "charset") (ascii "utf-8") (by decide) (by decide)]

/-- With a parameter behind the boundary, an empty form is an error. -/
theorem boundary_exact_not : ¬SplitsAt charsetBehind (ascii "xyz") := by
  intro h
  have hfault : faults (.err .invalidMultiPartEncoding) (multiFormData id)
      (multipartOf charsetBehind (ascii "--xyz--\r\n")) = true := by decide +kernel
  obtain ⟨self₂, hrun⟩ := faults_iff.mp hfault
  have hsplit := h _ id (multipartOf charsetBehind (ascii "--xyz--\r\n")) _ (ascii "--xyz--\r\n") 32 ∅
    ⟨rfl, rfl, rfl, rfl, rfl⟩ rfl
  have hpieces : splitSequence (Boundary.delimiter (ascii "xyz")) (Boundary.delimiter_ne_nil (ascii "xyz"))
      (ascii "--xyz--\r\n") = [[], ascii "--\r\n"] := by
    have hno : ¬Boundary.delimiter (ascii "xyz") <:+: ascii "--\r\n" := by decide
    rw [← @splitSequence_last _ (Boundary.delimiter_ne_nil (ascii "xyz")) _ hno]
    exact splitSequence_apart (apart_nil (Boundary.delimiter_ne_nil _)) (ascii "--\r\n")
  rw [hpieces, hrun] at hsplit
  cases hsplit

/-- A boundary in quotes, with a blank in it. -/
def quotedBoundary : Parameter where
  name := ascii "Boundary"
  value := .quoted [(false, 97), (false, 32), (false, 98)]
  lead_blank := by simp
  gap_blank := by simp
  name_token := by decide
  sound := by simp [ParameterValue.Sound]

theorem boundary_exact_iff_sample :
    SplitsAt (Parameter.contentType (ascii "Multipart/Form-Data")
          ([.ofToken (ascii "charset") (ascii "utf-8") (by decide) (by decide)] ++ quotedBoundary :: []))
        (ascii "a b") ∧
        Boundary.Taken ((Parameter.contentType (ascii "Multipart/Form-Data")
            ([.ofToken (ascii "charset") (ascii "utf-8") (by decide) (by decide)] ++ quotedBoundary :: [])).drop 19)
          ([Parameter.ofToken (ascii "charset") (ascii "utf-8") (by decide) (by decide)].flatMap Parameter.text ++
            quotedBoundary.front).length (ascii "a b") ↔
      ContentType.fromContentType (Parameter.contentType (ascii "Multipart/Form-Data")
          ([.ofToken (ascii "charset") (ascii "utf-8") (by decide) (by decide)] ++ quotedBoundary :: [])) =
          .multipartForm ∧
        ([] : List Parameter) = [] ∧ quotedBoundary.value.Plain ∧
        ∀ j < ([Parameter.ofToken (ascii "charset") (ascii "utf-8") (by decide) (by decide)].flatMap Parameter.text ++
            quotedBoundary.front).length,
          Boundary.Passed quotedBoundary.value.isQuoted
            (((Parameter.contentType (ascii "Multipart/Form-Data")
              ([.ofToken (ascii "charset") (ascii "utf-8") (by decide) (by decide)] ++
                quotedBoundary :: [])).drop 19).drop j) :=
  boundary_exact_iff (by decide) _ [] (by decide) (by decide)
    ⟨by decide, by decide, by decide, by decide⟩

end Exchange
end Dusty
