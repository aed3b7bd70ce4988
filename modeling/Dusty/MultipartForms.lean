import Dusty.BodyKeeps
import Dusty.BoundaryScan
import Dusty.Http1

/-! # Multipart forms of a request

`multiFormData` of a request with a `Content-Type`: the boundary is the first that can be used in it,
and the body is split there. -/

namespace Dusty

open Act

namespace ContentType

/-- What a text with a lower-case form of no more than 33 bytes in front of a `;` is copied to. -/
theorem mainType_append {main : Bytes} (h : 59 ∉ main) {rest : Bytes}
    (hrest : rest = [] ∨ rest.head? = some 59) :
    ∀ {room : ℕ}, main.length ≤ room → mainType room (main ++ rest) = some (main.map toLower) := by
  induction main with
  | nil =>
      intro room _
      rcases hrest with rfl | hhead
      · cases room <;> rfl
      · cases rest with
        | nil => cases hhead
        | cons b rest =>
            obtain rfl : b = 59 := by simpa using hhead
            cases room <;> rfl
  | cons b main ih =>
      intro room hroom
      obtain ⟨room, rfl⟩ := Nat.exists_eq_succ_of_ne_zero (Nat.ne_of_gt (Nat.zero_lt_of_lt hroom))
      rw [List.mem_cons, not_or] at h
      rw [List.cons_append, mainType, if_neg (Ne.symm h.1), ih h.2 (Nat.le_of_succ_le_succ hroom)]
      rfl

theorem mainType_length {value main : Bytes} : ∀ {room : ℕ}, mainType room value = some main →
    main.length ≤ value.length := by
  induction value generalizing main with
  | nil =>
      intro room h
      cases room <;>
      · cases h
        exact le_rfl
  | cons b rest ih =>
      intro room h
      unfold mainType at h
      split at h
      · cases h
        exact Nat.zero_le _
      · cases room with
        | zero => cases h
        | succ room =>
            obtain ⟨more, hmore, rfl⟩ := Option.map_eq_some_iff.mp h
            exact Nat.succ_le_succ (ih hmore)

/-- The values that are taken for a multipart form. -/
theorem fromContentType_multipart {value : Bytes} :
    fromContentType value = .multipartForm ↔ mainType 33 value = some (ascii "multipart/form-data") := by
  unfold fromContentType
  constructor
  · intro h
    cases hmain : mainType 33 value with
    | none =>
        rw [hmain] at h
        cases h
    | some main =>
        rw [hmain] at h
        simp only at h
        split at h
        · cases h
        · cases hfind : table.find? fun row => ascii row.1 == main with
          | none =>
              rw [hfind] at h
              cases h
          | some row =>
              rw [hfind] at h
              have hrow : row.2 = .multipartForm := h
              have hmem := List.mem_of_find?_eq_some hfind
              have honly : ∀ row ∈ table, row.2 = .multipartForm →
                  ascii row.1 = ascii "multipart/form-data" := by decide
              have hsame : ascii row.1 = main := by simpa using List.find?_some hfind
              rw [← hsame, honly row hmem hrow]
  · intro h
    rw [h]
    decide

/-- A value that is taken for a multipart form is no shorter than its type. -/
theorem length_multipart {value : Bytes} (h : fromContentType value = .multipartForm) :
    19 ≤ value.length := mainType_length (fromContentType_multipart.mp h)

end ContentType

namespace Headers

/-- What is found stays found when a field is added. -/
theorem get_add {h h' : Headers} {name value field text : Bytes} (hget : h.get name = some value)
    (hadd : h.add field text = .ok h') : h'.get name = some value := by
  unfold add at hadd
  split at hadd
  · cases hadd
    unfold get at hget ⊢
    obtain ⟨e, hfind, rfl⟩ := Option.map_eq_some_iff.mp hget
    rw [List.find?_append, hfind]
    rfl
  · cases hadd

end Headers

namespace Request

/-- A request with a `Content-Type`, whose form was not parsed to the end. -/
structure Described (v : Bytes) (limit : ℕ) (mfd : MultipartMap) (req : Request) : Prop where
  header : req.headers.get (ascii "Content-Type") = some v
  contentType : req.contentType = some (.fromContentType v)
  limit : req.config.maxMultiformCount = limit
  mfd : req.mfd = mfd
  fresh : req.mfdRead = false

/-- What the peer sends behind the head does not describe the request anew. -/
theorem described_leaves (v : Bytes) (limit : ℕ) (mfd : MultipartMap) :
    Target.request.Leaves (Described v limit mfd) where
  method _ _ h := ⟨h.header, h.contentType, h.limit, h.mfd, h.fresh⟩
  version _ _ _ h := ⟨h.header, h.contentType, h.limit, h.mfd, h.fresh⟩
  status _ _ _ h heq := by
    cases heq
    exact h
  url _ _ h := ⟨h.header, h.contentType, h.limit, h.mfd, h.fresh⟩
  header _ _ _ _ h hadd := ⟨Headers.get_add h.header hadd, h.contentType, h.limit, h.mfd, h.fresh⟩
  complete req h := by
    unfold Target.onHeadersComplete Target.request
    simp only [h.header]
    exact ⟨h.header, rfl, h.limit, h.mfd, h.fresh⟩

end Request

namespace Exchange

variable {L : Llhttp}

theorem body_described {room : ℕ → ℕ} {self self₁ : Exchange L} {v : Bytes} {limit : ℕ}
    {mfd : MultipartMap} {b : Option Bytes} (hself : self.request.Described v limit mfd)
    (hbody : body room self = .ok b self₁) :
    self₁.request.Described v limit mfd ∧ self₁.request.bodyRead = true ∧ self₁.request.cachedBody = b :=
  body_cached (Request.described_leaves v limit mfd)
    (fun _ h => ⟨h.header, h.contentType, h.limit, h.mfd, h.fresh⟩)
    (fun _ _ h => ⟨h.header, h.contentType, h.limit, h.mfd, h.fresh⟩) hself hbody

/-- The form was parsed to the end. -/
def formRead (self : Exchange L) : Exchange L := self.setRequest { self.request with mfdRead := true }

/-- How the parsing of a body ends. -/
def formed (self : Exchange L) (buffer : Bytes) :
    Option Error × MultipartMap → EStateM.Result Fault (Exchange L) MultipartMap
  | (none, m) => .ok m (self.setRequest (self.request.parsing buffer m)).formRead
  | (some e, m) => .error (.err e) (self.setRequest (self.request.parsing buffer m))

/-- **`multiFormData` of a body**: it is split at the first boundary that can be used. -/
theorem multiFormData_eq {room : ℕ → ℕ} {self self₁ : Exchange L} {v s : Bytes} {limit : ℕ}
    {mfd : MultipartMap} (hself : self.request.Described v limit mfd)
    (hform : ContentType.fromContentType v = .multipartForm)
    (hbody : body room self = .ok (some s) self₁) :
    multiFormData room self =
      match Boundary.first (v.drop 19) with
      | none => .error (.err .invalidMultiPartFormDataHeader) self₁
      | some boundary =>
          let pieces := splitSequence (Boundary.delimiter boundary) (Boundary.delimiter_ne_nil boundary) s
          self₁.formed
            ((Boundary.delimiter boundary).intercalate (MultipartForm.rewriteForm limit pieces mfd))
            (MultipartForm.readForm limit pieces mfd) := by
  obtain ⟨hself₁, -, hcached⟩ := body_described hself hbody
  have htyped : ¬self.request.contentType ≠ some .multipartForm := by
    rw [hself.contentType, hform]
    exact not_not.mpr rfl
  have hfind := Boundary.find_eq (ContentType.length_multipart hform) self₁
  unfold multiFormData
  rw [bind_ok (get_run self), hself.fresh, if_neg Bool.false_ne_true, if_neg htyped, bind_ok hbody]
  simp only
  rw [bind_ok (get_run self₁), hself₁.header]
  simp only
  cases hfirst : Boundary.first (v.drop 19) with
  | none =>
      rw [hfirst] at hfind
      rw [bind_error hfind]
  | some boundary =>
      rw [hfirst] at hfind
      have hparse := Request.parseMultipart_eq (Boundary.delimiter_ne_nil boundary) hcached
      rw [hself₁.limit, hself₁.mfd] at hparse
      rw [bind_ok hfind]
      simp only
      generalize MultipartForm.readForm limit (splitSequence (Boundary.delimiter boundary)
        (Boundary.delimiter_ne_nil boundary) s) mfd = result at hparse ⊢
      generalize (Boundary.delimiter boundary).intercalate (MultipartForm.rewriteForm limit
        (splitSequence (Boundary.delimiter boundary) (Boundary.delimiter_ne_nil boundary) s) mfd) =
          buffer at hparse ⊢
      obtain ⟨failure, m⟩ := result
      cases failure with
      | none =>
          have hrun : onRequest (Request.parseMultipart (Boundary.delimiter boundary)) self₁ =
              .ok () (self₁.setRequest (self₁.request.parsing buffer m)) := by
            unfold onRequest zoom
            rw [hparse]
            rfl
          rw [bind_ok hrun]
          rfl
      | some e =>
          have hrun : onRequest (Request.parseMultipart (Boundary.delimiter boundary)) self₁ =
              .error (.err e) (self₁.setRequest (self₁.request.parsing buffer m)) := by
            unfold onRequest zoom
            rw [hparse]
            rfl
          rw [bind_error hrun]
          rfl

theorem multiFormData_none {room : ℕ → ℕ} {self self₁ : Exchange L} {v : Bytes} {limit : ℕ}
    {mfd : MultipartMap} (hself : self.request.Described v limit mfd)
    (hform : ContentType.fromContentType v = .multipartForm) (hbody : body room self = .ok none self₁) :
    multiFormData room self = .ok mfd self₁.formRead := by
  obtain ⟨hself₁, -, -⟩ := body_described hself hbody
  have htyped : ¬self.request.contentType ≠ some .multipartForm := by
    rw [hself.contentType, hform]
    exact not_not.mpr rfl
  have hmap : self₁.request.mfd = mfd := hself₁.mfd
  unfold multiFormData
  rw [bind_ok (get_run self), hself.fresh, if_neg Bool.false_ne_true, if_neg htyped, bind_ok hbody, ← hmap]
  rfl

theorem multiFormData_other {room : ℕ → ℕ} {self : Exchange L} (hfresh : self.request.mfdRead = false)
    (htyped : self.request.contentType ≠ some .multipartForm) :
    multiFormData room self = .error (.err .notMultipartForm) self := by
  unfold multiFormData
  rw [bind_ok (get_run self), hfresh, if_neg Bool.false_ne_true, if_pos htyped]
  rfl

/-- The errors that parsing a form can end with. -/
def formErrors : List Error :=
  [.notMultipartForm, .invalidMultiPartFormDataHeader, .invalidMultiPartEncoding, .tooManyMultiFormFields]

end Exchange

namespace MultipartForm

theorem readPiece_error {full : Bool} {text left : Bytes} {e : Error}
    (h : readPiece full text = .broken e left) : e ∈ Exchange.formErrors := by
  unfold readPiece at h
  split at h
  · cases h
  · split at h
    · cases h
      decide
    · split at h
      · cases h
        decide
      · split at h
        · cases h
          decide
        · cases h

/-- **Whatever the body is**, the loop ends with a map or with one of the errors. -/
theorem readForm_error {limit : ℕ} {pieces : List Bytes} {m : MultipartMap} {e : Error}
    (h : (readForm limit pieces m).1 = some e) : e ∈ Exchange.formErrors := by
  have hpieces : ∀ (pieces : List Bytes) (m : MultipartMap), (readPieces limit pieces m).1 = some e →
      e ∈ Exchange.formErrors := by
    intro pieces
    induction pieces with
    | nil =>
        intro m h
        cases h
    | cons text rest ih =>
        intro m h
        rw [readPieces] at h
        cases hpiece : readPiece (decide (limit ≤ m.count)) text with
        | last =>
            rw [hpiece] at h
            cases h
        | broken e' left =>
            rw [hpiece] at h
            cases h
            exact readPiece_error hpiece
        | part name entry left =>
            rw [hpiece] at h
            exact ih _ h
  cases pieces with
  | nil => cases h
  | cons first rest =>
      rw [readForm] at h
      split at h
      · exact hpieces rest m h
      · cases h
        decide

end MultipartForm

namespace Exchange

variable {L : Llhttp}

theorem multiFormData_read {room : ℕ → ℕ} {self self₁ : Exchange L} {v : Bytes} {b : Option Bytes}
    {limit : ℕ} {mfd : MultipartMap} (hself : self.request.Described v limit mfd)
    (hform : ContentType.fromContentType v = .multipartForm) (hbody : body room self = .ok b self₁) :
    (∃ m self₂, multiFormData room self = .ok m self₂) ∨
      ∃ e ∈ formErrors, ∃ self₂, multiFormData room self = .error (.err e) self₂ := by
  cases b with
  | none => exact .inl ⟨_, _, multiFormData_none hself hform hbody⟩
  | some s =>
      rw [multiFormData_eq hself hform hbody]
      cases Boundary.first (v.drop 19) with
      | none => exact .inr ⟨_, by decide, _, rfl⟩
      | some boundary =>
          simp only
          cases hresult : MultipartForm.readForm limit
              (splitSequence (Boundary.delimiter boundary) (Boundary.delimiter_ne_nil boundary) s) mfd with
          | mk failure m =>
              cases failure with
              | none => exact .inl ⟨_, _, rfl⟩
              | some e => exact .inr ⟨e, MultipartForm.readForm_error (congrArg Prod.fst hresult), _, rfl⟩

/-- **Multipart parsing never traps**: for every `Content-Type` that is taken for a multipart form, and
whatever the body is, `multiFormData` ends with the map, with one of its errors, or with the one that
reading the body ended with. -/
theorem multiFormData_ends {room : ℕ → ℕ} {self : Exchange L} {v : Bytes}
    (hheader : self.request.headers.get (ascii "Content-Type") = some v)
    (hcontent : self.request.contentType = some (.fromContentType v))
    (hform : ContentType.fromContentType v = .multipartForm)
    (hbody : ∀ p self₁, body room self ≠ .error (.panic p) self₁) :
    (∃ m self₂, multiFormData room self = .ok m self₂) ∨
      ∃ e, (e ∈ formErrors ∨ ∃ self₁, body room self = .error (.err e) self₁) ∧
        ∃ self₂, multiFormData room self = .error (.err e) self₂ := by
  cases hread : self.request.mfdRead with
  | true =>
      refine .inl ⟨self.request.mfd, self, ?_⟩
      unfold multiFormData
      rw [bind_ok (get_run self), hread]
      rfl
  | false =>
      have hself : self.request.Described v self.request.config.maxMultiformCount self.request.mfd :=
        ⟨hheader, hcontent, rfl, rfl, hread⟩
      cases hrun : body room self with
      | ok b self₁ =>
          refine (multiFormData_read hself hform hrun).imp_right ?_
          rintro ⟨e, he, hend⟩
          exact ⟨e, .inl he, hend⟩
      | error f self₁ =>
          cases f with
          | panic p => exact absurd hrun (hbody p self₁)
          | err e =>
              have htyped : ¬self.request.contentType ≠ some .multipartForm := by
                rw [hcontent, hform]
                exact not_not.mpr rfl
              refine .inr ⟨e, .inr ⟨self₁, rfl⟩, self₁, ?_⟩
              unfold multiFormData
              rw [bind_ok (get_run self), hread, if_neg Bool.false_ne_true, if_neg htyped, bind_error hrun]

/-- A multipart request whose body was read. -/
def multipartOf (v s : Bytes) : Exchange (Http1.llhttp false) :=
  { inbound :=
      { parser := .init
          { headers := ⟨1, [.make (ascii "Content-Type") v], le_rfl⟩
            contentType := some (.fromContentType v), cachedBody := some s, bodyRead := true }
        reader := .fresh 1024 }
    st := { res := .init {} 0 } }

/-- A form with one part. -/
def onePart : Exchange (Http1.llhttp false) :=
  multipartOf (ascii "multipart/form-data; boundary=\"b\"")
    (ascii "--b\r\nContent-Disposition: form-data; name=\"a\"\r\n\r\nxy\r\n--b--\r\n")

theorem multiFormData_ends_sample :
    (∃ m self₂, multiFormData id onePart = .ok m self₂) ∨
      ∃ e, (e ∈ formErrors ∨ ∃ self₁, body id onePart = .error (.err e) self₁) ∧
        ∃ self₂, multiFormData id onePart = .error (.err e) self₂ :=
  multiFormData_ends rfl rfl (by decide) fun _ _ h => by cases h

end Exchange
end Dusty
