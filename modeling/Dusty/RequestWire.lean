import Dusty.ClientRequest
import Dusty.ErrorReply

/-! # The request on the wire

What a recipient makes of the bytes of a request: the lines up to the first empty one, and what
follows.  The fields are checked before they are written, and the target of the request is not. -/

namespace Dusty

open Act Response

/-- No byte ends the line. -/
def Unbroken (line : Bytes) : Prop := ∀ b ∈ line, b ≠ 13 ∧ b ≠ 10

/-- The fields that say how long a body is. -/
def framesBody (name : Bytes) : Bool :=
  isNamed [ascii "Content-Length", ascii "Transfer-Encoding"] name

/-- The line of a field. -/
def lineOf (field : Bytes × Bytes) : Bytes := fieldLine field.1 field.2

namespace WriteRequestOptions

/-! ### What is meant -/

/-- What the request is about. -/
def target (opts : WriteRequestOptions) : Bytes :=
  uriPath opts.uri ++ match opts.uri.query with
    | none => []
    | some query => 63 :: query

/-- The request line, without its end. -/
def line (opts : WriteRequestOptions) : Bytes :=
  opts.method.name ++ [32] ++ opts.target ++ ascii " HTTP/1.1"

/-- The headers the user has given. -/
def entries (opts : WriteRequestOptions) : List HeaderEntry := opts.headers.elim [] (·.entries)

/-- The request has its own fields for these. -/
def isOwn (key : Bytes) : Bool := isNamed [ascii "Host", ascii "Content-Length"] key

/-- The headers of the user that are sent. -/
def accepted (opts : WriteRequestOptions) (entries : List HeaderEntry) : List HeaderEntry :=
  entries.filter fun entry => !isOwn entry.key && !opts.strips entry.key

/-- The user has given the header. -/
def gives (entries : List HeaderEntry) (name : Bytes) : Bool :=
  entries.any fun entry => eqlIgnoreCase entry.key name

/-- The field for the length of a body. -/
def lengthField (body : Option Bytes) : List (Bytes × Bytes) :=
  body.toList.map fun body => (ascii "Content-Length", fmtNat 10 body.length)

/-- An automatic field. -/
def defaultField (name : Bytes) (value : Option Bytes) (given : Bool) : List (Bytes × Bytes) :=
  if given then [] else value.toList.map fun value => (name, value)

/-- The coding that is asked for. -/
def codings (opts : WriteRequestOptions) : Option Bytes :=
  if opts.decompress then some (ascii "gzip, deflate") else none

/-- The fields of the request: `Host`, the length of the body, the user's and the automatic ones. -/
def fields (opts : WriteRequestOptions) : List (Bytes × Bytes) :=
  (ascii "Host", opts.hostValue) :: lengthField opts.body ++
    (opts.accepted opts.entries).map (fun entry => (entry.key, entry.value)) ++
    defaultField (ascii "Referer") opts.referer (gives opts.entries (ascii "Referer")) ++
    defaultField (ascii "User-Agent") opts.userAgent (gives opts.entries (ascii "User-Agent")) ++
    defaultField (ascii "Accept-Encoding") opts.codings
      (gives opts.entries (ascii "Accept-Encoding"))

/-- A recipient reads the request that is meant: the request line with two spaces, the fields, each
on a line of its own, and the body, whose length is in one of the fields. -/
def Intact (opts : WriteRequestOptions) (bytes : Bytes) : Prop :=
  ∃ lines, cutHead bytes = some (opts.line :: lines, opts.body.getD []) ∧
    opts.line.count 32 = 2 ∧ (∀ line ∈ opts.line :: lines, Unbroken line) ∧
    lines = opts.fields.map lineOf ∧
    lines.filter (fun line => framesBody (fieldName line)) = (lengthField opts.body).map lineOf

/-! ### What is written -/

/-- The fields, as they are written. -/
def fieldBytes (fields : List (Bytes × Bytes)) : Bytes := fields.flatMap fun field => lineOf field ++ crlf

theorem fieldBytes_append (xs ys : List (Bytes × Bytes)) :
    fieldBytes (xs ++ ys) = fieldBytes xs ++ fieldBytes ys := List.flatMap_append

theorem fieldBytes_cons (field : Bytes × Bytes) (fields : List (Bytes × Bytes)) :
    fieldBytes (field :: fields) = lineOf field ++ crlf ++ fieldBytes fields := List.flatMap_cons

/-- The field may be written. -/
def ValidField (field : Bytes × Bytes) : Prop :=
  validHeaderName field.1 = true ∧ validHeaderValue field.2 = true

/-- The fields have been written. -/
structure Wrote (fields : List (Bytes × Bytes)) (c c' : Conn) : Prop where
  out : c'.out = c.out ++ fieldBytes fields
  valid : ∀ field ∈ fields, ValidField field

theorem Wrote.refl (c : Conn) : Wrote [] c c := ⟨(List.append_nil _).symm, by simp⟩

theorem Wrote.trans {xs ys : List (Bytes × Bytes)} {c c' c'' : Conn} (h : Wrote xs c c')
    (h' : Wrote ys c' c'') : Wrote (xs ++ ys) c c'' := by
  refine ⟨?_, fun field hfield => ?_⟩
  · rw [h'.out, h.out, fieldBytes_append, List.append_assoc]
  · rcases List.mem_append.mp hfield with hfield | hfield
    · exact h.valid field hfield
    · exact h'.valid field hfield

theorem writeAll_ok {part : Part} {bytes : Bytes} {c c' : Conn} {u : Unit}
    (h : Conn.writeAll part bytes c = .ok u c') : c'.out = c.out ++ bytes := by
  unfold Conn.writeAll at h
  split at h
  · cases h
    exact Conn.out_wrote c part bytes
  · cases h
    exact Conn.out_wrote c part bytes
  · cases h

theorem validateHeaderValue_ok {value : Bytes} {c c' : Conn} {u : Unit}
    (h : validateHeaderValue value c = .ok u c') : c' = c ∧ validHeaderValue value = true := by
  unfold validateHeaderValue at h
  split at h
  · next hvalid =>
      cases h
      exact ⟨rfl, hvalid⟩
  · cases h

theorem validateHeaderName_ok {name : Bytes} {c c' : Conn} {u : Unit}
    (h : validateHeaderName name c = .ok u c') : c' = c ∧ validHeaderName name = true := by
  unfold validateHeaderName at h
  split at h
  · next hvalid =>
      cases h
      exact ⟨rfl, hvalid⟩
  · cases h

theorem writeField_ok {name value : Bytes} (hname : validHeaderName name = true)
    (hvalue : validHeaderValue value = true) {c c' : Conn} {u : Unit}
    (h : writeField name value c = .ok u c') : Wrote [(name, value)] c c' := by
  refine ⟨?_, fun field hfield => ?_⟩
  · rw [writeAll_ok h, fieldBytes_cons]
    show _ = c.out ++ (fieldLine name value ++ crlf ++ [])
    rw [List.append_nil]
    rfl
  · rw [List.mem_singleton.mp hfield]
    exact ⟨hname, hvalue⟩

theorem validHeaderValue_fmtNat (n : ℕ) : validHeaderValue (fmtNat 10 n) = true := by
  rw [validHeaderValue, List.all_eq_true]
  intro b hb
  have hdigit : 48 ≤ b := fmtNat_bytes (by norm_num) (by norm_num) b hb
  have hne : b ≠ 13 ∧ b ≠ 10 ∧ b ≠ 0 := by
    refine ⟨?_, ?_, ?_⟩ <;>
    · rintro rfl
      exact absurd hdigit (by decide)
  simp [hne]

theorem writeContentLength_ok {body : Option Bytes} {c c' : Conn} {u : Unit}
    (h : writeContentLength body c = .ok u c') : Wrote (lengthField body) c c' := by
  cases body with
  | none =>
      cases h
      exact .refl c
  | some body => exact writeField_ok (by decide) (validHeaderValue_fmtNat _) h

theorem writeDefault_ok {name : Bytes} (hname : validHeaderName name = true) {value : Option Bytes}
    {given : Bool} {c c' : Conn} {u : Unit} (h : writeDefault name value given c = .ok u c') :
    Wrote (defaultField name value given) c c' := by
  cases value with
  | none =>
      cases h
      cases given <;> exact .refl c
  | some value =>
      cases given with
      | true =>
          cases h
          exact .refl c
      | false =>
          obtain ⟨u₁, c₁, hvalid, hfield⟩ := bind_eq_ok.mp h
          obtain ⟨rfl, hvalue⟩ := validateHeaderValue_ok hvalid
          exact writeField_ok hname hvalue hfield

/-- What is noted of the user's headers. -/
def noted (given : GivenHeaders) (entries : List HeaderEntry) : GivenHeaders where
  acceptEncoding := given.acceptEncoding || gives entries (ascii "Accept-Encoding")
  referer := given.referer || gives entries (ascii "Referer")
  userAgent := given.userAgent || gives entries (ascii "User-Agent")

theorem noted_nil (given : GivenHeaders) : noted given [] = given := by
  simp [noted, gives]

theorem noted_cons (given : GivenHeaders) (entry : HeaderEntry) (rest : List HeaderEntry) :
    noted given (entry :: rest) = noted (given.note entry.key) rest := by
  simp only [noted, GivenHeaders.note, gives, List.any_cons, Bool.or_assoc]

/-- A header that is left out for the request's own is not noted either. -/
theorem noted_own {entry : HeaderEntry} (h : isOwn entry.key = true) (given : GivenHeaders)
    (rest : List HeaderEntry) : noted given (entry :: rest) = noted given rest := by
  have hother : ∀ name ∈ [ascii "Accept-Encoding", ascii "Referer", ascii "User-Agent"],
      eqlIgnoreCase entry.key name = false := by
    have hnames : ∀ own ∈ [ascii "Host", ascii "Content-Length"],
        ∀ name ∈ [ascii "Accept-Encoding", ascii "Referer", ascii "User-Agent"],
          eqlIgnoreCase own name = false := by decide
    intro name hname
    obtain ⟨own, hmem, howns⟩ := List.any_eq_true.mp h
    rw [eqlIgnoreCase_congr_left howns]
    exact hnames own hmem name hname
  have hsame : given.note entry.key = given := by
    rw [GivenHeaders.note, hother _ (by simp), hother _ (by simp), hother _ (by simp)]
    simp only [Bool.or_false]
  rw [noted_cons, hsame]

/-- **The user's headers.** -/
theorem writeHeaders_ok {opts : WriteRequestOptions} {entries : List HeaderEntry} {c c' : Conn}
    {given given' : GivenHeaders} (h : opts.writeHeaders entries given c = .ok given' c') :
    Wrote ((opts.accepted entries).map fun entry => (entry.key, entry.value)) c c' ∧
      given' = noted given entries := by
  induction entries generalizing given c with
  | nil =>
      cases h
      exact ⟨.refl _, (noted_nil _).symm⟩
  | cons entry rest ih =>
      rw [writeHeaders] at h
      rw [accepted, List.filter_cons]
      by_cases hown : isNamed [ascii "Host", ascii "Content-Length"] entry.key = true
      · have hskip : ¬(!isOwn entry.key && !opts.strips entry.key) = true := by simp [isOwn, hown]
        rw [if_pos hown] at h
        rw [if_neg hskip, noted_own hown]
        exact ih h
      · rw [if_neg hown] at h
        by_cases hstrips : opts.strips entry.key = true
        · have hskip : ¬(!isOwn entry.key && !opts.strips entry.key) = true := by simp [hstrips]
          rw [if_pos hstrips] at h
          rw [if_neg hskip, noted_cons]
          exact ih h
        · have hsend : (!isOwn entry.key && !opts.strips entry.key) = true := by
            simp [isOwn, hown, hstrips]
          rw [if_neg hstrips] at h
          rw [if_pos hsend, noted_cons, List.map_cons]
          obtain ⟨u₁, c₁, hvalidName, h₁⟩ := bind_eq_ok.mp h
          obtain ⟨u₂, c₂, hvalidValue, h₂⟩ := bind_eq_ok.mp h₁
          obtain ⟨u₃, c₃, hfield, h₃⟩ := bind_eq_ok.mp h₂
          obtain ⟨rfl, hname⟩ := validateHeaderName_ok hvalidName
          obtain ⟨rfl, hvalue⟩ := validateHeaderValue_ok hvalidValue
          obtain ⟨hwrote, hgiven⟩ := ih h₃
          exact ⟨(writeField_ok hname hvalue hfield).trans hwrote, hgiven⟩

theorem validHeaderValue_hostValue {opts : WriteRequestOptions}
    (h : validHeaderValue opts.host = true) : validHeaderValue opts.hostValue = true := by
  unfold hostValue
  split
  · exact h
  · have hport := validHeaderValue_fmtNat opts.port
    unfold validHeaderValue at h hport ⊢
    rw [List.all_append, List.all_append, h, hport]
    rfl

theorem writeCodings_ok {opts : WriteRequestOptions} {given : Bool} {c c' : Conn} {u : Unit}
    (h : Act.when (opts.decompress && !given)
      (writeField (ascii "Accept-Encoding") (ascii "gzip, deflate")) c = .ok u c') :
    Wrote (defaultField (ascii "Accept-Encoding") opts.codings given) c c' := by
  unfold codings
  cases hdecompress : opts.decompress with
  | false =>
      rw [hdecompress] at h
      cases h
      cases given <;> exact .refl c
  | true =>
      rw [hdecompress] at h
      cases given with
      | true =>
          cases h
          exact .refl c
      | false => exact writeField_ok (by decide) (by decide) h

theorem requestLine_eq (opts : WriteRequestOptions) : opts.requestLine = opts.line ++ crlf := by
  unfold requestLine line target
  cases opts.uri.query with
  | none => simp only [List.append_assoc]
  | some query => simp only [List.append_assoc]

/-- **The bytes of a request**: the request line, the fields and the body, and every field has been
checked. -/
theorem writeRequest_ok {opts : WriteRequestOptions} {c c' : Conn} {u : Unit}
    (h : opts.writeRequest c = .ok u c') :
    c'.out = c.out ++ (headBlock (opts.line :: opts.fields.map lineOf) ++ opts.body.getD []) ∧
      ∀ field ∈ opts.fields, ValidField field := by
  obtain ⟨u₁, c₁, hhost, h₁⟩ := bind_eq_ok.mp h
  obtain ⟨u₂, c₂, hline, h₂⟩ := bind_eq_ok.mp h₁
  obtain ⟨u₃, c₃, hhostField, h₃⟩ := bind_eq_ok.mp h₂
  obtain ⟨u₄, c₄, hlength, h₄⟩ := bind_eq_ok.mp h₃
  obtain ⟨given, c₅, hheaders, h₅⟩ := bind_eq_ok.mp h₄
  obtain ⟨u₆, c₆, hreferer, h₆⟩ := bind_eq_ok.mp h₅
  obtain ⟨u₇, c₇, huserAgent, h₇⟩ := bind_eq_ok.mp h₆
  obtain ⟨u₈, c₈, hcodings, h₈⟩ := bind_eq_ok.mp h₇
  obtain ⟨u₉, c₉, hend, hbody⟩ := bind_eq_ok.mp h₈
  obtain ⟨rfl, hvalid⟩ := validateHeaderValue_ok hhost
  obtain ⟨haccepted, hgiven⟩ := writeHeaders_ok hheaders
  subst hgiven
  have hfields : Wrote opts.fields c₂ c₈ :=
    (((((writeField_ok (by decide) (validHeaderValue_hostValue hvalid) hhostField).trans
      (writeContentLength_ok hlength)).trans haccepted).trans
      (writeDefault_ok (by decide) hreferer)).trans
      (writeDefault_ok (by decide) huserAgent)).trans (writeCodings_ok hcodings)
  have hout : c'.out = c₉.out ++ opts.body.getD [] := by
    cases hopt : opts.body with
    | none =>
        rw [hopt] at hbody
        cases hbody
        exact (List.append_nil _).symm
    | some body =>
        rw [hopt] at hbody
        exact writeAll_ok hbody
  refine ⟨?_, hfields.valid⟩
  rw [hout, writeAll_ok hend, hfields.out, writeAll_ok hline, requestLine_eq, headBlock_cons,
    headBlock, List.flatMap_map]
  simp only [List.append_assoc]
  rfl

/-! ### When it is what is meant -/

/-- No byte of the target ends it. -/
def TargetClean (opts : WriteRequestOptions) : Prop :=
  ∀ b ∈ opts.target, b ≠ 32 ∧ b ≠ 13 ∧ b ≠ 10

/-- The user gives no other length. -/
def FramedOnce (opts : WriteRequestOptions) : Prop :=
  ∀ entry ∈ opts.accepted opts.entries,
    eqlIgnoreCase entry.key (ascii "Transfer-Encoding") = false

theorem unbroken_lineOf {field : Bytes × Bytes} (h : ValidField field) : Unbroken (lineOf field) := by
  obtain ⟨hname, hvalue⟩ := h
  have hlf : ∀ b ∈ field.1, b ≠ 10 := by
    intro b hb
    rw [validHeaderName, Bool.and_eq_true, List.all_eq_true] at hname
    have hmem : b ∈ allowedHeaderNameBytes := by simpa using hname.2 b hb
    rintro rfl
    exact absurd hmem (by decide)
  intro b hb
  rcases List.mem_append.mp hb with hb | hb
  · rcases List.mem_append.mp hb with hb | hb
    · exact ⟨validHeaderName_ne_cr hname b hb, hlf b hb⟩
    · exact (by decide : ∀ b ∈ ascii ": ", b ≠ 13 ∧ b ≠ 10) b hb
  · rw [validHeaderValue, List.all_eq_true] at hvalue
    have := hvalue b hb
    simp only [Bool.and_eq_true, bne_iff_ne] at this
    exact this.1

theorem method_word (m : Method) : ∀ b ∈ m.name, b ≠ 32 ∧ b ≠ 13 ∧ b ≠ 10 := by
  cases m <;> decide

/-- The request line is one line with two spaces exactly if nothing ends the target. -/
theorem line_iff (opts : WriteRequestOptions) :
    opts.line.count 32 = 2 ∧ Unbroken opts.line ↔ opts.TargetClean := by
  have hmethod : opts.method.name.count 32 = 0 :=
    List.count_eq_zero.mpr fun hmem => (method_word _ _ hmem).1 rfl
  have hversion : (ascii " HTTP/1.1").count 32 = 1 := by decide
  have hcount : opts.line.count 32 = opts.target.count 32 + 2 := by
    unfold line
    rw [List.count_append, List.count_append, List.count_append, hmethod, hversion]
    show 0 + 1 + opts.target.count 32 + 1 = _
    omega
  constructor
  · rintro ⟨htwo, hline⟩ b hb
    have hzero : opts.target.count 32 = 0 := by omega
    have hmem : b ∈ opts.line := by
      unfold line
      exact List.mem_append_left _ (List.mem_append_right _ hb)
    refine ⟨?_, hline b hmem⟩
    rintro rfl
    exact List.count_eq_zero.mp hzero hb
  · intro hclean
    refine ⟨?_, fun b hb => ?_⟩
    · have hzero : opts.target.count 32 = 0 :=
        List.count_eq_zero.mpr fun hmem => (hclean _ hmem).1 rfl
      omega
    · unfold line at hb
      simp only [List.mem_append, List.mem_singleton] at hb
      rcases hb with ((hb | hb) | hb) | hb
      · exact (method_word _ b hb).2
      · rw [hb]
        decide
      · exact (hclean b hb).2
      · exact (by decide : ∀ b ∈ ascii " HTTP/1.1", b ≠ 13 ∧ b ≠ 10) b hb

theorem filter_defaultField {name : Bytes} (h : framesBody name = false) (value : Option Bytes)
    (given : Bool) :
    (defaultField name value given).filter (fun field => framesBody field.1) = [] := by
  refine List.filter_eq_nil_iff.mpr fun field hfield => ?_
  have hname : field.1 = name := by
    unfold defaultField at hfield
    split at hfield
    · cases hfield
    · obtain ⟨v, -, rfl⟩ := List.mem_map.mp hfield
      rfl
  rw [hname, h]
  exact Bool.false_ne_true

theorem filter_lengthField (body : Option Bytes) :
    (lengthField body).filter (fun field => framesBody field.1) = lengthField body := by
  cases body with
  | none => rfl
  | some body => exact List.filter_cons_of_pos (show framesBody (ascii "Content-Length") = true by decide)

/-- The fields that say how long the body is: the request's own, and what the user adds. -/
theorem filter_fields (opts : WriteRequestOptions) :
    opts.fields.filter (fun field => framesBody field.1) =
      lengthField opts.body ++ ((opts.accepted opts.entries).map
        fun entry => (entry.key, entry.value)).filter fun field => framesBody field.1 := by
  have hhost : ((ascii "Host", opts.hostValue) :: lengthField opts.body).filter
      (fun field => framesBody field.1) = lengthField opts.body := by
    have hname : ¬framesBody (ascii "Host") = true := by decide
    rw [List.filter_cons, if_neg hname, filter_lengthField]
  unfold fields
  rw [List.filter_append, List.filter_append, List.filter_append, List.filter_append,
    filter_defaultField (by decide), filter_defaultField (by decide),
    filter_defaultField (by decide), hhost]
  simp only [List.append_nil]

theorem filter_accepted (opts : WriteRequestOptions) :
    ((opts.accepted opts.entries).map fun entry => (entry.key, entry.value)).filter
      (fun field => framesBody field.1) = [] ↔ opts.FramedOnce := by
  rw [List.filter_eq_nil_iff]
  constructor
  · intro h entry hentry
    have hnot := h (entry.key, entry.value) (List.mem_map_of_mem hentry)
    simp only [framesBody, isNamed, List.any_cons, List.any_nil, Bool.or_false, Bool.or_eq_true,
      not_or, Bool.not_eq_true] at hnot
    exact hnot.2
  · rintro h field hfield
    obtain ⟨entry, hentry, rfl⟩ := List.mem_map.mp hfield
    have hown : isOwn entry.key = false := by
      have := (List.mem_filter.mp hentry).2
      simp only [Bool.and_eq_true, Bool.not_eq_true'] at this
      exact this.1
    simp only [isOwn, isNamed, List.any_cons, List.any_nil, Bool.or_false, Bool.or_eq_false_iff] at hown
    simp only [framesBody, isNamed, List.any_cons, List.any_nil, Bool.or_false, hown.2,
      h entry hentry, Bool.or_false, Bool.false_eq_true, not_false_eq_true]

/-- **Requests cannot be injected into** exactly if nothing ends the target and the user gives no
`Transfer-Encoding`: the bytes of a request that has been written are then what is meant. -/
theorem writeRequest_intact_iff {opts : WriteRequestOptions} {c c' : Conn}
    (h : opts.writeRequest c = .ok () c') :
    ∃ bytes, c'.out = c.out ++ bytes ∧
      (opts.Intact bytes ↔ opts.TargetClean ∧ opts.FramedOnce) := by
  obtain ⟨hout, hvalid⟩ := writeRequest_ok h
  have hlines : (opts.fields.map lineOf).filter (fun line => framesBody (fieldName line)) =
      (opts.fields.filter fun field => framesBody field.1).map lineOf := by
    rw [List.filter_map]
    refine congrArg _ (List.filter_congr fun field hfield => ?_)
    show framesBody (fieldName (fieldLine field.1 field.2)) = _
    rw [fieldName_fieldLine (hvalid field hfield).1]
  refine ⟨_, hout, ?_, ?_⟩
  · rintro ⟨lines, -, htwo, hunbroken, rfl, hframes⟩
    refine ⟨(line_iff opts).mp ⟨htwo, hunbroken _ List.mem_cons_self⟩,
      (filter_accepted opts).mp (List.eq_nil_of_length_eq_zero ?_)⟩
    have hlength := congrArg List.length hframes
    rw [hlines, filter_fields, List.map_append, List.length_append, List.length_map] at hlength
    rw [List.length_map] at hlength
    omega
  · rintro ⟨hclean, honce⟩
    obtain ⟨htwo, hline⟩ := (line_iff opts).mpr hclean
    have hunbroken : ∀ line ∈ opts.line :: opts.fields.map lineOf, Unbroken line := by
      intro line hmem
      rcases List.mem_cons.mp hmem with rfl | hmem
      · exact hline
      · obtain ⟨field, hfield, rfl⟩ := List.mem_map.mp hmem
        exact unbroken_lineOf (hvalid field hfield)
    have hne : ∀ line ∈ opts.line :: opts.fields.map lineOf, line ≠ [] := by
      intro line hmem hnil
      have hlength := congrArg List.length hnil
      rcases List.mem_cons.mp hmem with rfl | hmem
      · unfold WriteRequestOptions.line at hlength
        simp only [List.length_append, List.length_cons, List.length_nil] at hlength
        omega
      · obtain ⟨field, -, rfl⟩ := List.mem_map.mp hmem
        have hcolon : (ascii ": ").length = 2 := by decide
        simp only [lineOf, fieldLine, List.length_append, hcolon, List.length_nil] at hlength
        omega
    refine ⟨_, cutHead_headBlock (fun line hmem => ⟨hne line hmem, fun b hb =>
      (hunbroken line hmem b hb).1⟩) _, htwo, hunbroken, rfl, ?_⟩
    rw [hlines, filter_fields, (filter_accepted opts).mpr honce, List.append_nil]

/-- A request for a locator, with a body. -/
def sample (uri : Uri) (headers : List HeaderEntry) : WriteRequestOptions where
  method := .post
  uri := uri
  host := ascii "a"
  port := 80
  protocol := .http
  headers := some ⟨headers.length, headers, le_rfl⟩
  body := some (ascii "x")

theorem writeRequest_intact_iff_sample : ∃ c', (sample { scheme := ascii "http" }
      [.make (ascii "Accept") (ascii "*/*")]).writeRequest {} = .ok () c' ∧
    (sample { scheme := ascii "http" } [.make (ascii "Accept") (ascii "*/*")]).Intact c'.out := by
  obtain ⟨u, c', hrun, -⟩ := yields_iff.mp (show yields (fun _ _ => true)
    (sample { scheme := ascii "http" } [.make (ascii "Accept") (ascii "*/*")]).writeRequest {} = true by
      decide +kernel)
  obtain ⟨bytes, hout, hiff⟩ := writeRequest_intact_iff hrun
  refine ⟨c', hrun, ?_⟩
  rw [hout]
  exact hiff.mpr ⟨by unfold TargetClean; decide, by unfold FramedOnce; decide⟩

/-- A line break in the query of a locator begins a header of its own, and the user can give a second
length. -/
theorem writeRequest_injected :
    (∃ uri c', Uri.parse (ascii "http://a/?q HTTP/1.1\r\nX-Evil: 1\r\nA:") = some uri ∧
      (sample uri []).writeRequest {} = .ok () c' ∧ ¬(sample uri []).Intact c'.out) ∧
    ∃ uri c', Uri.parse (ascii "http://a/") = some uri ∧
      (sample uri [.make (ascii "Transfer-Encoding") (ascii "chunked")]).writeRequest {} = .ok () c' ∧
      ¬(sample uri [.make (ascii "Transfer-Encoding") (ascii "chunked")]).Intact c'.out := by
  have hwrites : ∀ opts : WriteRequestOptions, yields (fun _ _ => true) opts.writeRequest {} = true →
      ∃ c', opts.writeRequest {} = .ok () c' := by
    intro opts h
    obtain ⟨u, c', hrun, -⟩ := yields_iff.mp h
    exact ⟨c', hrun⟩
  constructor
  · let uri : Uri :=
      { scheme := ascii "http", host := some (ascii "a"), path := ascii "/"
        query := some (ascii "q HTTP/1.1\r\nX-Evil: 1\r\nA:") }
    obtain ⟨c', hrun⟩ := hwrites (sample uri []) (by decide +kernel)
    refine ⟨uri, c', by decide +kernel, hrun, ?_⟩
    rintro ⟨lines, -, -, hunbroken, -⟩
    exact (hunbroken _ List.mem_cons_self 13 (by decide +kernel)).1 rfl
  · let uri : Uri := { scheme := ascii "http", host := some (ascii "a"), path := ascii "/" }
    obtain ⟨c', hrun⟩ := hwrites
      (sample uri [.make (ascii "Transfer-Encoding") (ascii "chunked")]) (by decide +kernel)
    refine ⟨uri, c', by decide +kernel, hrun, ?_⟩
    rintro ⟨lines, -, -, -, rfl, hframes⟩
    exact absurd hframes (by decide +kernel)

end WriteRequestOptions
end Dusty
