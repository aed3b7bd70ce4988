import Dusty.Exchange
import Dusty.Http1
import Dusty.QueryString
import Dusty.Router

/-! # URL-encoded forms

`Request.formData` reads a body in the format `parseQueryString` reads a query string in, but it
takes an empty piece for a field with an empty name.  `formData_agrees_iff` is for which texts that
makes no difference. -/

namespace Dusty

open Act UrlEncoded

namespace Request

def setForm (req : Request) (fd : StringMap) : Request := { req with fd := fd }

/-- The loop of `formData` over the pieces between the `&`.  Its map is taken to grow as it needs to. -/
def parseForm : List Bytes → Act Request Unit
  | [] => pure ()
  | entry :: rest => do
      let req ← get
      if req.config.maxFormCount ≤ req.fd.count then Act.fail .tooManyFormFields
      else
        let field ← parsePair entry
        modify fun req => req.setForm (req.fd.insert field.1 field.2)
        parseForm rest

/-- How a run ends that collects into the form. -/
def formed (req : Request) : Option Error × StringMap → EStateM.Result Fault Request Unit
  | (none, m) => .ok () (req.setForm m)
  | (some e, m) => .error (.err e) (req.setForm m)

/-- **The loop of `formData` collects.** -/
theorem parseForm_eq (pieces : List Bytes) (req : Request) :
    parseForm pieces req =
      req.formed (collect req.config.maxFormCount .tooManyFormFields pieces req.fd) := by
  induction pieces generalizing req with
  | nil => rfl
  | cons piece rest ih =>
      rw [parseForm, bind_ok (get_run req), collect]
      by_cases hfull : req.config.maxFormCount ≤ req.fd.count
      · rw [if_pos hfull, if_pos hfull]
        rfl
      · rw [if_neg hfull, if_neg hfull, bind_run, parsePair_eq]
        cases hfield : fieldOf piece with
        | none => rfl
        | some field =>
            simp only
            rw [bind_ok (modify_run _ _)]
            exact ih (req.setForm (req.fd.insert field.1 field.2))

end Request

namespace Exchange

variable {L : Llhttp}

/-- `Request.formData`. -/
def formData (room : ℕ → ℕ) : Act (Exchange L) StringMap := do
  let self ← get
  if self.request.fdRead then pure self.request.fd
  else if self.request.contentType ≠ some .form then Act.fail .notForm
  else
    match ← body room with
    | none => pure ()
    | some buffer => onRequest (Request.parseForm (splitScalar buffer 38))
    modify fun self => self.setRequest { self.request with fdRead := true }
    let self ← get
    pure self.request.fd

theorem formData_eq {room : ℕ → ℕ} {self self₁ : Exchange L} {s : Bytes}
    (hform : self.request.contentType = some .form) (hfresh : self.request.fdRead = false)
    (hbody : body room self = .ok (some s) self₁) :
    match collect self₁.request.config.maxFormCount .tooManyFormFields (splitScalar s 38)
        self₁.request.fd with
    | (none, m) => ∃ self₂, formData room self = .ok m self₂
    | (some e, _) => ∃ self₂, formData room self = .error (.err e) self₂ := by
  have hrun := Request.parseForm_eq (splitScalar s 38) self₁.request
  unfold formData
  rw [bind_ok (get_run self), hfresh, if_neg Bool.false_ne_true, if_neg (not_not.mpr hform),
    bind_ok hbody]
  cases hcollect : collect self₁.request.config.maxFormCount .tooManyFormFields (splitScalar s 38)
      self₁.request.fd with
  | mk failure m =>
      rw [hcollect] at hrun
      cases failure with
      | none =>
          have hform : onRequest (Request.parseForm (splitScalar s 38)) self₁ =
              .ok () (self₁.setRequest (self₁.request.setForm m)) := by
            unfold onRequest zoom
            rw [hrun]
            rfl
          simp only
          rw [bind_ok hform]
          exact ⟨_, rfl⟩
      | some e =>
          have hform : onRequest (Request.parseForm (splitScalar s 38)) self₁ =
              .error (.err e) (self₁.setRequest (self₁.request.setForm m)) := by
            unfold onRequest zoom
            rw [hrun]
            rfl
          simp only
          rw [bind_error hform]
          exact ⟨_, rfl⟩

/-- Both decoders give one map, or both fail. -/
def FormsAgree (room : ℕ → ℕ) (self : Exchange L) (req : Request) : Prop :=
  (∃ m self', formData room self = .ok m self' ∧
      ∃ path req', Router.splitUrl req = .ok path req' ∧ req'.query = m) ∨
    (∃ e self', formData room self = .error (.err e) self') ∧
      ∃ e req', Router.splitUrl req = .error (.err e) req'

end Exchange

namespace UrlEncoded

/-- The fields are taken with the empty pieces where they are without them, and the last word on the
empty name is the same. -/
def Agreeable (limit : ℕ) (s : Bytes) : Prop :=
  ∀ fields full, (splitScalar s 38).mapM fieldOf = some fields →
    (Request.fullPieces s).mapM fieldOf = some full → StringMap.Room limit ∅ full →
      StringMap.Room limit ∅ fields ∧ fields.reverse.lookup ([] : Bytes) = full.reverse.lookup []

theorem agreeable_of_full (limit : ℕ) {s : Bytes} (h : [] ∉ splitScalar s 38) : Agreeable limit s := by
  intro fields full hfields hfull hroom
  have hsame : Request.fullPieces s = splitScalar s 38 :=
    List.filter_eq_self.mpr fun piece hpiece => decide_eq_true fun hnil => h (hnil ▸ hpiece)
  rw [hsame, hfields] at hfull
  cases hfull
  exact ⟨hroom, rfl⟩

/-- **When the two ways of collecting agree.** -/
theorem collect_agree_iff (limit : ℕ) (s : Bytes) (e e' : Error) :
    ((collect limit e (splitScalar s 38) ∅).1 = none ∧
          (collect limit e' (Request.fullPieces s) ∅).1 = none ∧
          (collect limit e' (Request.fullPieces s) ∅).2 = (collect limit e (splitScalar s 38) ∅).2 ∨
        (collect limit e (splitScalar s 38) ∅).1 ≠ none ∧
          (collect limit e' (Request.fullPieces s) ∅).1 ≠ none) ↔ Agreeable limit s := by
  rw [ne_eq, ne_eq, collect_fst_eq_none, collect_fst_eq_none]
  constructor
  · rintro (⟨⟨fields, hfields, hroom⟩, ⟨full, hfull, hroom'⟩, hsame⟩ | ⟨-, hfails⟩)
    · intro fields₁ full₁ hfields₁ hfull₁ _
      rw [hfields] at hfields₁
      cases hfields₁
      rw [hfull] at hfull₁
      cases hfull₁
      rw [collect_of_room e hfields hroom, collect_of_room e' hfull hroom'] at hsame
      exact ⟨hroom, (thinned_fields hfields hfull).ofFields_eq.mp hsame.symm⟩
    · intro _ full _ hfull hroom'
      exact absurd ⟨full, hfull, hroom'⟩ hfails
  · intro h
    cases hfields : (splitScalar s 38).mapM fieldOf with
    | none =>
        refine .inr ⟨?_, ?_⟩
        · rintro ⟨_, hsome, -⟩
          cases hsome
        · rintro ⟨_, hsome, -⟩
          rw [Request.fullPieces, mapM_full.mp hfields] at hsome
          cases hsome
    | some fields =>
        cases hfull : (Request.fullPieces s).mapM fieldOf with
        | none =>
            rw [mapM_full.mpr hfull] at hfields
            cases hfields
        | some full =>
            have hthinned := thinned_fields hfields hfull
            by_cases hroom' : StringMap.Room limit ∅ full
            · obtain ⟨hroom, hlast⟩ := h fields full hfields hfull hroom'
              refine .inl ⟨⟨fields, rfl, hroom⟩, ⟨full, rfl, hroom'⟩, ?_⟩
              rw [collect_of_room e hfields hroom, collect_of_room e' hfull hroom']
              exact (hthinned.ofFields_eq.mpr hlast).symm
            · refine .inr ⟨?_, ?_⟩
              · rintro ⟨fields', heq, hroom⟩
                cases heq
                exact hroom' (hthinned.room (Finset.Subset.refl _) hroom)
              · rintro ⟨full', heq, hroom⟩
                cases heq
                exact hroom' hroom

end UrlEncoded

namespace Exchange

variable {L : Llhttp}

theorem splitUrl_eq {req : Request} {path s : Bytes} (hurl : req.url.bytes = path ++ 63 :: s)
    (hpath : 63 ∉ path) :
    Router.splitUrl req =
      (Request.parseQueryString s >>= fun _ => pure path : Act Request Bytes) (req.setQuery ∅) := by
  have hindex : indexOfScalar (path ++ 63 :: s) 63 = some path.length := by
    unfold indexOfScalar
    rw [List.findIdx?_append, List.findIdx?_eq_none_iff.mpr, Option.none_or, List.findIdx?_cons]
    · rw [show ((63 : UInt8) == 63) = true from rfl]
      simp
    · intro b hb
      exact beq_false_of_ne fun heq => hpath (heq ▸ hb)
  unfold Router.splitUrl
  rw [bind_ok (modify_run _ req), bind_ok (get_run _)]
  have hdrop : (path ++ 63 :: s).drop (path.length + 1) = s := by
    rw [← List.drop_drop, List.drop_left' rfl]
    rfl
  rw [show (req.setQuery ∅).url.bytes = path ++ 63 :: s from hurl, hindex]
  simp only
  rw [hdrop, List.take_left' rfl]

/-- **The two decoders of URL-encoded fields agree** exactly on texts in which the empty pieces, that
only `formData` takes for fields, make no difference. -/
theorem formData_agrees_iff {room : ℕ → ℕ} {self self₁ : Exchange L} {req : Request}
    {path s : Bytes} {limit : ℕ} (hform : self.request.contentType = some .form)
    (hfresh : self.request.fdRead = false) (hbody : body room self = .ok (some s) self₁)
    (hempty : self₁.request.fd = ∅) (hlimit : self₁.request.config.maxFormCount = limit)
    (hurl : req.url.bytes = path ++ 63 :: s) (hpath : 63 ∉ path)
    (hlimit' : req.config.maxQueryCount = limit) :
    FormsAgree room self req ↔ min (s.count 38 + 1) limit ≤ StringMap.maxReserved ∧ UrlEncoded.Agreeable limit s := by
  have hquery := splitUrl_eq hurl hpath
  rw [bind_run] at hquery
  have hdata := formData_eq hform hfresh hbody
  rw [hempty, hlimit] at hdata
  by_cases hfits : min (s.count 38 + 1) limit ≤ StringMap.maxReserved
  · rw [and_iff_right hfits, ← UrlEncoded.collect_agree_iff limit s .tooManyFormFields .tooManyQueryParams]
    rw [Request.parseQueryString_eq s req (hlimit' ▸ hfits), hlimit'] at hquery
    unfold FormsAgree
    rw [hquery]
    cases hcollect : collect limit .tooManyFormFields (splitScalar s 38) ∅ with
    | mk failure m =>
        rw [hcollect] at hdata
        cases hcollect' : collect limit .tooManyQueryParams (Request.fullPieces s) ∅ with
        | mk failure' m' =>
            cases failure with
            | none =>
                obtain ⟨self₂, hrun⟩ := hdata
                rw [hrun]
                cases failure' with
                | none => simp [Request.collected, Request.setQuery, eq_comm]
                | some e' => simp [Request.collected]
            | some e =>
                obtain ⟨self₂, hrun⟩ := hdata
                rw [hrun]
                cases failure' with
                | none => simp [Request.collected]
                | some e' => simp [Request.collected]
  · have hne : s.length ≠ 0 := by
      intro hzero
      rw [List.length_eq_zero_iff.mp hzero] at hfits
      refine hfits ((min_le_left _ _).trans ?_)
      decide
    have hpanic := @Request.parseQueryString_panics s (req.setQuery ∅) hne (hlimit' ▸ Nat.not_le.mp hfits)
    rw [hpanic] at hquery
    refine iff_of_false ?_ fun h => hfits h.1
    unfold FormsAgree
    rw [hquery]
    rintro (⟨m, self', -, path', req', hpanic, -⟩ | ⟨-, e, req', hpanic⟩)
    · cases hpanic
    · cases hpanic

/-- A form whose body was read. -/
def formOf (s : Bytes) : Exchange (Http1.llhttp false) :=
  { inbound :=
      { parser := .init { contentType := some .form, cachedBody := some s, bodyRead := true }
        reader := .fresh 1024 }
    st := { res := .init {} 0 } }

/-- A `&` at the end gives a form a field without a name. -/
theorem formData_agrees_not :
    ¬FormsAgree id (formOf (ascii "a=1&")) { url := ⟨0, ascii "/?a=1&"⟩ } := by
  have hdata : yields (fun m _ => decide (m.lookup [] = some [])) (formData id)
      (formOf (ascii "a=1&")) = true := by decide +kernel
  have hquery : yields (fun _ req => decide (req.query.lookup [] = none)) Router.splitUrl
      { url := ⟨0, ascii "/?a=1&"⟩ } = true := by decide +kernel
  obtain ⟨m, self', hrun, hm⟩ := yields_iff.mp hdata
  obtain ⟨path, req', hrun', hreq⟩ := yields_iff.mp hquery
  rintro (⟨m₁, self₁, h₁, path₁, req₁, h₁', rfl⟩ | ⟨⟨e, self₁, h₁⟩, -⟩)
  · rw [hrun] at h₁
    rw [hrun'] at h₁'
    cases h₁
    cases h₁'
    rw [of_decide_eq_true hreq] at hm
    exact absurd (of_decide_eq_true hm) (by decide)
  · rw [hrun] at h₁
    cases h₁

theorem formData_agrees_iff_sample :
    FormsAgree id (formOf (ascii "a=%31&b")) { url := ⟨0, ascii "/x?a=%31&b"⟩ } ↔
      min ((ascii "a=%31&b").count 38 + 1) 32 ≤ StringMap.maxReserved ∧
        UrlEncoded.Agreeable 32 (ascii "a=%31&b") :=
  @formData_agrees_iff _ id (formOf (ascii "a=%31&b")) (formOf (ascii "a=%31&b"))
    { url := ⟨0, ascii "/x?a=%31&b"⟩ } (ascii "/x") (ascii "a=%31&b") 32 rfl rfl rfl rfl rfl rfl
    (by decide) rfl

end Exchange
end Dusty
