import Dusty.FieldMap
import Dusty.FormEscapes

/-! # Parsing a form again

When a form is parsed again after an error, the parts that were read are in the map already, so it
ends with the same error (`readForm_again`).  `undisturbed_iff` is when parsing a form leaves the body
as it was and gives the same result again. -/

namespace Dusty

open Act

namespace MultipartForm

variable {limit : ℕ}

theorem keys_subset_readPieces (pieces : List Bytes) (m : MultipartMap) :
    m.keys ⊆ (readPieces limit pieces m).2.keys := by
  induction pieces generalizing m with
  | nil => exact Finset.Subset.refl _
  | cons text rest ih =>
      rw [readPieces]
      cases readPiece (decide (limit ≤ m.count)) text with
      | last => exact Finset.Subset.refl _
      | broken e left => exact Finset.Subset.refl _
      | part name entry left =>
          refine Finset.Subset.trans ?_ (ih (m.insert name entry))
          rw [FieldMap.keys_insert]
          exact Finset.subset_insert _ _

/-- If there is no room at the end, there were too many fields. -/
theorem readPieces_error {pieces : List Bytes} {m : MultipartMap} {e : Error}
    (h : (readPieces limit pieces m).1 = some e) :
    e = .tooManyMultiFormFields ∨ (readPieces limit pieces m).2.count < limit := by
  induction pieces generalizing m with
  | nil => cases h
  | cons text rest ih =>
      rw [readPieces] at h ⊢
      cases hpiece : readPiece (decide (limit ≤ m.count)) text with
      | last =>
          rw [hpiece] at h
          cases h
      | broken e' left =>
          rw [hpiece] at h
          cases h
          by_cases hfull : limit ≤ m.count
          · rw [decide_eq_true hfull, readPiece] at hpiece
            split at hpiece
            · cases hpiece
            · cases hpiece
              exact .inl rfl
          · exact .inr (Nat.lt_of_not_le hfull)
      | part name entry left =>
          rw [hpiece] at h
          exact ih h

/-- Parsing the parts again, with the names in the map already, ends with the same error. -/
theorem readPieces_again {pieces : List Bytes} {m : MultipartMap} {e : Error}
    (h : (readPieces limit pieces m).1 = some e) {m' : MultipartMap}
    (hkeys : m'.keys = (readPieces limit pieces m).2.keys) :
    (readPieces limit pieces m').1 = some e := by
  induction pieces generalizing m m' with
  | nil => cases h
  | cons text rest ih =>
      have herror := readPieces_error h
      have hcount : m'.count = (readPieces limit (text :: rest) m).2.count := congrArg Finset.card hkeys
      rw [readPieces] at h hkeys herror hcount
      rw [readPieces]
      cases hpiece : readPiece (decide (limit ≤ m.count)) text with
      | last =>
          rw [hpiece] at h
          cases h
      | broken e' left =>
          rw [hpiece] at h hcount
          rw [hcount, hpiece]
          exact h
      | part name entry left =>
          rw [hpiece] at h hkeys herror hcount
          simp only at h hkeys herror hcount
          have hroom : ¬limit ≤ m.count := by
            intro hfull
            rw [decide_eq_true hfull, readPiece] at hpiece
            split at hpiece <;> cases hpiece
          rw [decide_eq_false hroom] at hpiece
          by_cases hfull : limit ≤ m'.count
          · -- there is no room left, so there was none at the end of the first time
            have hlast : ¬text = ascii "--\r\n" := by
              rintro rfl
              cases hpiece
            obtain rfl := herror.resolve_right (by omega)
            rw [decide_eq_true hfull, readPiece, if_neg hlast, if_pos rfl]
          · rw [decide_eq_false hfull, hpiece]
            refine ih h ?_
            have hmem : name ∈ m'.keys := by
              rw [hkeys]
              refine keys_subset_readPieces rest _ ?_
              rw [FieldMap.keys_insert]
              exact Finset.mem_insert_self _ _
            rw [FieldMap.keys_insert, Finset.insert_eq_of_mem hmem, hkeys]

/-- **Parsing a form again** after an error ends with the same error. -/
theorem readForm_again {pieces : List Bytes} {m : MultipartMap} {e : Error}
    (h : (readForm limit pieces m).1 = some e) :
    (readForm limit pieces (readForm limit pieces m).2).1 = some e := by
  cases pieces with
  | nil => cases h
  | cons first rest =>
      rw [readForm] at h ⊢
      by_cases hfirst : first = []
      · rw [if_pos hfirst] at h ⊢
        rw [readForm, if_pos hfirst]
        exact readPieces_again h rfl
      · rw [if_neg hfirst] at h ⊢
        rw [readForm, if_neg hfirst]
        exact h

end MultipartForm

namespace Exchange

variable {L : Llhttp} {room : ℕ → ℕ}

/-- The body and the form, and both again; an error of a form is caught. -/
def formTwice (room : ℕ → ℕ) : Act (Exchange L)
    (Option Bytes × Except Error MultipartMap × Option Bytes × Except Error MultipartMap) := do
  let b ← body room
  let form ← attempt (multiFormData room)
  let b' ← body room
  let form' ← attempt (multiFormData room)
  pure (b, form, b', form')

theorem body_again {self : Exchange L} (h : self.request.bodyRead = true) :
    body room self = .ok self.request.cachedBody self := by
  unfold body
  rw [bind_ok (get_run self), h]
  rfl

/-- A form that was parsed to the end is returned again. -/
theorem multiFormData_again {self : Exchange L} (h : self.request.mfdRead = true) :
    multiFormData room self = .ok self.request.mfd self := by
  unfold multiFormData
  rw [bind_ok (get_run self), h]
  rfl

section
variable {self : Exchange L} {v : Bytes} {limit : ℕ} {mfd : MultipartMap} {buffer : Bytes}

/-- What parsing a body that was read leaves of it; and, if that is what it was, what comes of parsing
it again. -/
theorem multiFormData_twice {s boundary : Bytes} (hself : self.request.Described v limit mfd)
    (hform : ContentType.fromContentType v = .multipartForm)
    (hfirst : Boundary.first (v.drop 19) = some boundary) (hread : self.request.bodyRead = true)
    (hcached : self.request.cachedBody = some s)
    (hbuffer : (Boundary.delimiter boundary).intercalate (MultipartForm.rewriteForm limit
      (splitSequence (Boundary.delimiter boundary) (Boundary.delimiter_ne_nil boundary) s) mfd) = buffer) :
    ∃ form self₂, attempt (multiFormData room) self = .ok form self₂ ∧
      self₂.request.bodyRead = true ∧ self₂.request.cachedBody = some buffer ∧
      (buffer = s → ∃ self₃, attempt (multiFormData room) self₂ = .ok form self₃) := by
  have hbody : ∀ {self : Exchange L}, self.request.bodyRead = true → self.request.cachedBody = some s →
      body room self = .ok (some s) self := fun hread hcached => hcached ▸ body_again hread
  have hrun := multiFormData_eq hself hform (hbody hread hcached)
  rw [hfirst] at hrun
  simp only at hrun
  rw [hbuffer] at hrun
  have hagain := @MultipartForm.readForm_again limit
    (splitSequence (Boundary.delimiter boundary) (Boundary.delimiter_ne_nil boundary) s) mfd
  generalize MultipartForm.readForm limit (splitSequence (Boundary.delimiter boundary)
    (Boundary.delimiter_ne_nil boundary) s) mfd = result at hrun hagain
  obtain ⟨failure, m⟩ := result
  cases failure with
  | none =>
      refine ⟨.ok m, _, attempt_ok hrun, hread, rfl, fun _ => ?_⟩
      have hsecond := @multiFormData_again L room (self.setRequest (self.request.parsing buffer m)).formRead rfl
      exact ⟨_, attempt_ok hsecond⟩
  | some e =>
      refine ⟨.error e, _, attempt_error hrun, hread, rfl, fun hsame => ?_⟩
      have hself₂ : (self.setRequest (self.request.parsing buffer m)).request.Described v limit m :=
        ⟨hself.header, hself.contentType, hself.limit, rfl, hself.fresh⟩
      have hrun₂ := multiFormData_eq hself₂ hform (hbody hread (congrArg some hsame))
      rw [hfirst] at hrun₂
      simp only at hrun₂
      have herror := hagain rfl
      simp only at herror
      generalize MultipartForm.readForm limit (splitSequence (Boundary.delimiter boundary)
        (Boundary.delimiter_ne_nil boundary) s) m = result at hrun₂ herror
      obtain ⟨failure, m'⟩ := result
      obtain rfl : failure = some e := herror
      exact ⟨_, attempt_error hrun₂⟩

/-- **Parsing a form leaves the body as it was**, and gives the same result again, exactly if nothing is
escaped in the form. -/
theorem undisturbed_iff {self₁ : Exchange L} {b : Option Bytes} (hself : self.request.Described v limit mfd)
    (hform : ContentType.fromContentType v = .multipartForm) (hbody : body room self = .ok b self₁) :
    (∃ form self₂, formTwice room self = .ok (b, form, b, form) self₂) ↔
      ∀ s, b = some s → ∀ boundary, Boundary.first (v.drop 19) = some boundary →
        ¬MultipartForm.EscapedForm limit mfd
          (splitSequence (Boundary.delimiter boundary) (Boundary.delimiter_ne_nil boundary) s) := by
  obtain ⟨hself₁, hread, hcached⟩ := body_described hself hbody
  have hagain : body room self₁ = .ok b self₁ := hcached ▸ body_again hread
  have hfirstRun : ∀ {form : Except Error MultipartMap} {self₂ : Exchange L},
      attempt (multiFormData room) self₁ = .ok form self₂ → self₂.request.bodyRead = true →
      ∀ {form' : Except Error MultipartMap} {self₃ : Exchange L},
        attempt (multiFormData room) self₂ = .ok form' self₃ →
        formTwice room self = .ok (b, form, self₂.request.cachedBody, form') self₃ := by
    intro form self₂ hrun hread₂ form' self₃ hrun'
    unfold formTwice
    rw [bind_ok hbody, bind_ok hrun, bind_ok (body_again hread₂), bind_ok hrun']
    rfl
  cases b with
  | none =>
      refine iff_of_true ?_ fun s hs => by cases hs
      have hmap : self₁.formRead.request.mfd = mfd := hself₁.mfd
      have hsecond := @multiFormData_again L room self₁.formRead rfl
      rw [hmap] at hsecond
      have hruns := hfirstRun (attempt_ok (multiFormData_none hself₁ hform hagain)) hread (attempt_ok hsecond)
      have hnone : self₁.formRead.request.cachedBody = none := hcached
      rw [hnone] at hruns
      exact ⟨_, _, hruns⟩
  | some s =>
      cases hfirst : Boundary.first (v.drop 19) with
      | none =>
          refine iff_of_true ?_ fun _ _ boundary hboundary => by cases hboundary
          have hrun := multiFormData_eq hself₁ hform hagain
          rw [hfirst] at hrun
          have hruns := hfirstRun (attempt_error hrun) hread (attempt_error hrun)
          rw [hcached] at hruns
          exact ⟨_, _, hruns⟩
      | some boundary =>
          have hiff : (∀ s', some s = some s' → ∀ boundary', some boundary = some boundary' →
              ¬MultipartForm.EscapedForm limit mfd (splitSequence (Boundary.delimiter boundary')
                (Boundary.delimiter_ne_nil boundary') s')) ↔
              ¬MultipartForm.EscapedForm limit mfd (splitSequence (Boundary.delimiter boundary)
                (Boundary.delimiter_ne_nil boundary) s) := by
            constructor
            · exact fun h => h s rfl boundary rfl
            · rintro h _ ⟨⟩ _ ⟨⟩
              exact h
          rw [hiff, ← MultipartForm.intercalate_rewriteForm_iff]
          obtain ⟨form, self₂, hrun, hread₂, hbuffer, hsecond⟩ :=
            multiFormData_twice hself₁ hform hfirst hread hcached rfl
          constructor
          · rintro ⟨form', self₃, hruns⟩
            unfold formTwice at hruns
            rw [bind_ok hbody, bind_ok hrun, bind_ok (body_again hread₂)] at hruns
            obtain ⟨form'', self₄, -, hend⟩ := bind_eq_ok.mp hruns
            have hthird := congrArg (fun result => result.2.2.1) (EStateM.Result.ok.inj hend).1
            exact Option.some.inj (hbuffer.symm.trans hthird)
          · intro hsame
            obtain ⟨self₃, hrun'⟩ := hsecond hsame
            have hruns := hfirstRun hrun hread₂ hrun'
            rw [hbuffer, hsame] at hruns
            exact ⟨form, self₃, hruns⟩

end

/-- A form with one field, whose name is in quotes as it is given. -/
def oneField (name : Bytes) : Bytes :=
  ascii "--xyz\r\nContent-Disposition: form-data; name=\"" ++ name ++ ascii "\"\r\n\r\nv\r\n--xyz--\r\n"

theorem undisturbed_iff_sample :
    (∃ form self₂, formTwice id (multipartOf (ascii "multipart/form-data; boundary=xyz") (oneField (ascii "a"))) =
        .ok (some (oneField (ascii "a")), form, some (oneField (ascii "a")), form) self₂) ↔
      ∀ s, some (oneField (ascii "a")) = some s → ∀ boundary,
        Boundary.first ((ascii "multipart/form-data; boundary=xyz").drop 19) = some boundary →
        ¬MultipartForm.EscapedForm 32 ∅
          (splitSequence (Boundary.delimiter boundary) (Boundary.delimiter_ne_nil boundary) s) :=
  undisturbed_iff ⟨rfl, rfl, rfl, rfl, rfl⟩ (by decide) rfl

/-- With a quote in a name, the body is not what it was. -/
theorem undisturbed_not :
    ¬∃ form self₂, formTwice id
        (multipartOf (ascii "multipart/form-data; boundary=xyz") (oneField (ascii "a\\\"b"))) =
      .ok (some (oneField (ascii "a\\\"b")), form, some (oneField (ascii "a\\\"b")), form) self₂ := by
  have hruns : yields (fun r _ => decide (r.2.2.1 ≠ some (oneField (ascii "a\\\"b")))) (formTwice id)
      (multipartOf (ascii "multipart/form-data; boundary=xyz") (oneField (ascii "a\\\"b"))) = true := by
    decide +kernel
  obtain ⟨result, self₂, hrun, hother⟩ := yields_iff.mp hruns
  rintro ⟨form, self₃, hsame⟩
  rw [hrun] at hsame
  cases hsame
  exact of_decide_eq_true hother rfl

end Exchange
end Dusty
