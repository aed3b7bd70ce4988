import Dusty.ResponseRun

/-! # What every operation of a handler keeps

`Sound base opened r`: the transport works, every stored field is valid, and as long as the
headers are open the connection is still that of `base` and nothing was promised.  `opened` says that
something was handed out that exists only once the headers were sent. -/

namespace Dusty

/-- Every stored field passes the checks of `header`. -/
def HeadersValid (h : Headers) : Prop :=
  ∀ e ∈ h.entries, validHeaderName e.key = true ∧ validHeaderValue e.value = true

namespace HeadersValid

theorem init (max : ℕ) : HeadersValid (.init max) := by
  intro e he
  simp [Headers.init] at he

theorem add {h h' : Headers} {name value : Bytes} (hvalid : HeadersValid h)
    (hn : validHeaderName name = true) (hv : validHeaderValue value = true)
    (hadd : h.add name value = .ok h') : HeadersValid h' := by
  unfold Headers.add at hadd
  split at hadd
  · injection hadd with hadd
    subst hadd
    intro e he
    rcases List.mem_append.mp he with he | he
    · exact hvalid e he
    · obtain rfl : e = HeaderEntry.make name value := by simpa using he
      exact ⟨hn, hv⟩
  · simp at hadd

theorem setFirst {name value : Bytes} (hv : validHeaderValue value = true) :
    ∀ es : List HeaderEntry,
      (∀ e ∈ es, validHeaderName e.key = true ∧ validHeaderValue e.value = true) →
        ∀ e ∈ Headers.setFirst name value es,
          validHeaderName e.key = true ∧ validHeaderValue e.value = true
  | [], _, e, he => by simp [Headers.setFirst] at he
  | e₀ :: es, h, e, he => by
      simp only [Headers.setFirst] at he
      split at he
      · rcases List.mem_cons.mp he with rfl | he
        · exact ⟨(h e₀ (by simp)).1, hv⟩
        · exact h e (by simp [he])
      · rcases List.mem_cons.mp he with rfl | he
        · exact h e (by simp)
        · exact setFirst hv es (fun e' he' => h e' (by simp [he'])) e he

theorem put {h h' : Headers} {name value : Bytes} (hvalid : HeadersValid h)
    (hn : validHeaderName name = true) (hv : validHeaderValue value = true)
    (hput : h.put name value = .ok h') : HeadersValid h' := by
  unfold Headers.put at hput
  split at hput
  · injection hput with hput
    subst hput
    exact setFirst hv _ hvalid
  · exact hvalid.add hn hv hput

theorem remove {h : Headers} (hvalid : HeadersValid h) (name : Bytes) :
    HeadersValid (h.remove name).1 := by
  intro e he
  exact hvalid e (List.mem_of_mem_filter he)

end HeadersValid

namespace Response

open Act

structure Sound (base : Response) (opened : Prop) (r : Response) : Prop where
  faults : r.conn.faults = []
  valid : HeadersValid r.headers
  fresh : r.headersWritten = false →
    r.written = false ∧ r.streaming = false ∧ r.bodySent = 0 ∧ r.conn = base.conn
  sent : opened → r.headersWritten = true
  head : r.head = base.head

variable {base : Response} {opened : Prop}

theorem Sound.setHeaders {self : Response} (h : Sound base opened self) {headers : Headers}
    (hv : HeadersValid headers) : Sound base opened (self.setHeaders headers) :=
  ⟨h.faults, hv, h.fresh, h.sent, h.head⟩

/-! ### Operations that write nothing -/

theorem keeps_header (name value : Bytes) : Keeps (Sound base opened) (header name value) := by
  refine keeps_get_bind fun r hr => ?_
  split
  · exact keeps_fail _
  split
  · exact keeps_fail _
  split
  · exact keeps_fail _
  · case isFalse hn hv =>
      cases hput : r.headers.put name value with
      | error e => exact keeps_fail _
      | ok headers =>
          refine keeps_modify fun s hs => hs.setHeaders ?_
          exact hr.valid.put (by simpa using hn) (by simpa using hv) hput

theorem keeps_serializeCookie {P : Response → Prop} (name value : Bytes) (opts : CookieOpts) :
    Keeps P (Cookie.serializeCookie name value opts : Act Response Bytes) := by
  unfold Cookie.serializeCookie
  split
  · exact keeps_fail _
  split
  · exact keeps_fail _
  · refine Keeps.bind ?_ fun _ => keeps_pure _
    unfold Cookie.maxAgeAttribute
    split
    · exact keeps_pure _
    · exact (keeps_assert _).bind fun _ => keeps_pure _

theorem keeps_setCookie (name value : Bytes) (opts : CookieOpts) :
    Keeps (Sound base opened) (setCookie name value opts) := by
  refine keeps_get_bind fun r hr => ?_
  split
  · exact keeps_fail _
  · refine (keeps_serializeCookie name value opts).bind fun serialized => ?_
    split
    · exact keeps_fail _
    · case isFalse hv =>
        cases hadd : r.headers.add (ascii "Set-Cookie") serialized with
        | error e => exact keeps_fail _
        | ok headers =>
            refine keeps_modify fun s hs => hs.setHeaders ?_
            exact hr.valid.add (by decide) (by simpa using hv) hadd

theorem keeps_bodyWrite (bytes : Bytes) : Keeps (Sound base opened) (bodyWrite bytes) :=
  keeps_modify fun _ hs => ⟨hs.faults, hs.valid, hs.fresh, hs.sent, hs.head⟩

theorem keeps_bodyEnd : Keeps (Sound base opened) bodyEnd := by
  refine keeps_get_bind fun r _ => ?_
  split
  · exact keeps_pure _
  · exact keeps_modify fun _ hs => ⟨hs.faults, hs.valid, hs.fresh, hs.sent, hs.head⟩

theorem keeps_clearWriter : Keeps (Sound base opened) clearWriter :=
  keeps_modify fun _ hs => ⟨hs.faults, hs.valid, hs.fresh, hs.sent, hs.head⟩

theorem keeps_resetBody : Keeps (Sound base opened) resetBody := by
  refine keeps_get_bind fun r _ => ?_
  refine (keeps_assert _).bind fun _ => keeps_clearWriter.bind fun _ => ?_
  exact keeps_modify fun _ hs =>
    ⟨hs.faults, (hs.valid.remove _).remove _, hs.fresh, hs.sent, hs.head⟩

theorem keeps_json (text : Bytes) : Keeps (Sound base opened) (json text) :=
  (keeps_bodyWrite text).bind fun _ => keeps_header _ _

theorem keeps_startBody : Keeps (Sound base opened) startBody := by
  refine keeps_get_bind fun r _ => ?_
  refine (keeps_assert _).bind fun _ => (keeps_assert _).bind fun _ =>
    (keeps_assert _).bind fun _ => ?_
  exact keeps_modify fun _ hs => ⟨hs.faults, hs.valid, hs.fresh, hs.sent, hs.head⟩

theorem keeps_decideFraming : Keeps (Sound base opened) decideFraming := by
  refine keeps_get_bind fun r _ => ?_
  split
  · split
    · exact keeps_modify fun _ hs => ⟨hs.faults, hs.valid, hs.fresh, hs.sent, hs.head⟩
    · exact keeps_fail _
  · exact keeps_modify fun _ hs => ⟨hs.faults, hs.valid, hs.fresh, hs.sent, hs.head⟩

/-! ### Operations that write -/

theorem settledHeaders_valid {self : Response} (h : HeadersValid self.headers)
    {headers : Headers} (hs : self.settledHeaders = .ok headers) : HeadersValid headers := by
  unfold settledHeaders at hs
  cases hct : self.contentType with
  | none =>
      rw [hct] at hs
      obtain rfl : self.headers = headers := by simpa using hs
      exact h
  | some contentType =>
      rw [hct] at hs
      exact h.put (by decide) (toContentType_valid contentType) hs

/-- What `writeHeader` leaves behind: the headers are sent unless it fails, and then the
response is as it was. -/
theorem writeHeader_triple (self₀ : Response) (h : Sound base opened self₀) :
    Triple (fun s => s = self₀) writeHeader
      (fun _ s => Sound base opened s ∧ s.headersWritten = true)
      (fun _ s => s = self₀ ∧ self₀.headersWritten = false) := by
  intro s hs
  rw [hs]
  cases hw : self₀.headersWritten with
  | true =>
      rw [writeHeader_done hw]
      exact ⟨h, hw⟩
  | false =>
      rw [writeHeader_run h.faults hw]
      cases hs : self₀.settledHeaders with
      | error e => exact ⟨rfl, rfl⟩
      | ok headers =>
          refine ⟨⟨?_, settledHeaders_valid h.valid hs, ?_, fun _ => rfl, h.head⟩, rfl⟩
          · simp [sentHead, Response.setHeaders, h.faults]
          · intro hfalse
            simp [sentHead] at hfalse

theorem keeps_writeHeader : Keeps (Sound base opened) writeHeader := by
  intro s hs
  have h := writeHeader_triple s hs s rfl
  cases hrun : writeHeader s with
  | ok a s' =>
      rw [hrun] at h
      exact h.1
  | error e s' =>
      rw [hrun] at h
      exact h.1 ▸ hs

/-- On a working transport a started body has its headers sent. -/
theorem stream_triple : Triple (Sound base opened) stream
    (fun _ s => Sound base opened s ∧ s.headersWritten = true) (fun _ s => Sound base opened s) := by
  refine Triple.bind keeps_startBody fun _ => Triple.bind keeps_decideFraming fun _ => ?_
  intro s hs
  have h := writeHeader_triple s hs s rfl
  cases hrun : writeHeader s with
  | ok a s' =>
      rw [hrun] at h
      exact h
  | error e s' =>
      rw [hrun] at h
      exact h.1 ▸ hs

/-- Writing to the connection, once the headers are sent. -/
theorem keeps_writeAll (part : Part) (bytes : Bytes) :
    Keeps (Sound base True) (onConn (Conn.writeAll part bytes)) := by
  intro s hs
  simp only [onConn, zoom, Conn.writeAll_run hs.faults]
  exact ⟨hs.faults, hs.valid, fun hw => absurd (hs.sent trivial) (by simp [setConn] at hw; simp [hw]),
    hs.sent, hs.head⟩

theorem keeps_flush : Keeps (Sound base True) (onConn Conn.flush) := by
  intro s hs
  simp only [onConn, zoom, Conn.flush_run hs.faults]
  exact ⟨hs.faults, hs.valid, fun hw => absurd (hs.sent trivial) (by simp [setConn] at hw; simp [hw]),
    hs.sent, hs.head⟩

theorem Sound.toOpened {self : Response} (h : Sound base opened self)
    (hw : self.headersWritten = true) : Sound base True self :=
  ⟨h.faults, h.valid, h.fresh, fun _ => hw, h.head⟩

theorem Sound.relax {self : Response} (h : Sound base True self) : Sound base opened self :=
  ⟨h.faults, h.valid, h.fresh, fun _ => h.sent trivial, h.head⟩

end Response

namespace Headers

/-- The table has a field of that name. -/
def has (h : Headers) (name : Bytes) : Bool := h.entries.any (·.isFor name)

theorem isFor_make (name value : Bytes) : (HeaderEntry.make name value).isFor name = true := by
  simp [HeaderEntry.isFor, HeaderEntry.make]

theorem any_setFirst (name value other : Bytes) : ∀ es : List HeaderEntry,
    (setFirst name value es).any (·.isFor other) = es.any (·.isFor other)
  | [] => rfl
  | e :: es => by
      simp only [setFirst]
      split
      · rfl
      · simp [any_setFirst name value other es]

theorem has_add {h h' : Headers} {name value : Bytes} (hadd : h.add name value = .ok h')
    (other : Bytes) : h'.has other = (h.has other || (HeaderEntry.make name value).isFor other) := by
  unfold add at hadd
  split at hadd
  · injection hadd with hadd
    subst hadd
    simp [has]
  · simp at hadd

theorem has_put {h h' : Headers} {name value : Bytes} (hput : h.put name value = .ok h') :
    h'.has name = true := by
  unfold put at hput
  split at hput
  · case isTrue hany =>
      injection hput with hput
      subst hput
      rw [has, any_setFirst]
      exact hany
  · rw [has_add hput, isFor_make, Bool.or_true]

theorem has_put_of_has {h h' : Headers} {name value other : Bytes} (hother : h.has other = true)
    (hput : h.put name value = .ok h') : h'.has other = true := by
  unfold put at hput
  split at hput
  · injection hput with hput
    subst hput
    rw [has, any_setFirst]
    exact hother
  · rw [has_add hput, hother, Bool.true_or]

/-- A field that is there can be overwritten, however full the table. -/
theorem put_of_has {h : Headers} {name : Bytes} (hname : h.has name = true) (value : Bytes) :
    ∃ h', h.put name value = .ok h' := by
  unfold put
  rw [if_pos (show h.entries.any (·.isFor name) = true from hname)]
  exact ⟨_, rfl⟩

end Headers

namespace Response

open Act

variable {base : Response} {opened : Prop}

theorem settledHeaders_of_has {self : Response} (h : self.headers.has (ascii "Content-Type") = true) :
    ∃ headers, self.settledHeaders = .ok headers := by
  unfold settledHeaders
  cases self.contentType with
  | none => exact ⟨_, rfl⟩
  | some contentType => exact Headers.put_of_has h _

/-- **An event stream that was started has its headers sent**: the content type it needs is
already in the table when the block is written. -/
theorem startEventStream_triple : Triple (Sound base opened) startEventStream
    (fun discard s => Sound base True s ∧ discard = s.head) (fun _ s => Sound base opened s) := by
  intro s hs
  unfold startEventStream
  cases hw : s.headersWritten with
  | true =>
      have hfail : header (ascii "Content-Type") (ascii "text/event-stream") s =
          .error (.err .headersAlreadySent) s := by
        simp [header, bind_run, hw]
      rw [bind_error hfail]
      exact hs
  | false =>
      have h₁ := header_run (ascii "Content-Type") (ascii "text/event-stream") hw
        (by decide) (by decide)
      cases hput₁ : s.headers.put (ascii "Content-Type") (ascii "text/event-stream") with
      | error e =>
          rw [hput₁] at h₁
          rw [bind_error h₁]
          exact hs
      | ok headers₁ =>
          rw [hput₁] at h₁
          rw [bind_ok h₁]
          have hs₁ := hs.setHeaders (hs.valid.put (by decide) (by decide) hput₁)
          have hw₁ : (s.setHeaders headers₁).headersWritten = false := hw
          have h₂ := header_run (ascii "Cache-Control") (ascii "no-cache") hw₁ (by decide)
            (by decide)
          cases hput₂ : headers₁.put (ascii "Cache-Control") (ascii "no-cache") with
          | error e =>
              rw [show (s.setHeaders headers₁).headers = headers₁ from rfl, hput₂] at h₂
              rw [bind_error h₂]
              exact hs₁
          | ok headers₂ =>
              rw [show (s.setHeaders headers₁).headers = headers₁ from rfl, hput₂] at h₂
              rw [bind_ok h₂, bind_ok (modify_run ..)]
              have hv₂ := hs₁.valid.put (by decide) (by decide) hput₂
              have hhas := Headers.has_put_of_has (Headers.has_put hput₁) hput₂
              let r : Response :=
                { (s.setHeaders headers₁).setHeaders headers₂ with
                  keepalive := false, streaming := true }
              obtain ⟨headers₃, hsettled⟩ : ∃ headers, r.settledHeaders = .ok headers :=
                settledHeaders_of_has hhas
              have hrf : r.conn.faults = [] := hs.faults
              have hrw : r.headersWritten = false := hw
              have hrv : HeadersValid r.headers := hv₂
              have h₃ := writeHeader_run hrf hrw
              rw [hsettled] at h₃
              have hf : (r.setHeaders headers₃).sentHead.conn.faults = [] := by
                rw [sentHead, Conn.faults_wroteLines]
                exact hs.faults
              have h₄ : onConn Conn.flush (r.setHeaders headers₃).sentHead =
                  .ok () ((r.setHeaders headers₃).sentHead.setConn
                    (r.setHeaders headers₃).sentHead.conn.flushedAll) := by
                simp only [onConn, zoom, Conn.flush_run hf]
              rw [bind_ok h₃, bind_ok h₄, bind_ok (get_run _)]
              refine ⟨⟨hf, settledHeaders_valid hrv hsettled, fun hfalse => ?_,
                fun _ => rfl, hs.head⟩, rfl⟩
              simp [sentHead, setConn] at hfalse

end Response

/-! ### The lines of a header block -/

theorem fmtNat_ne_cr (n : ℕ) : ∀ b ∈ fmtNat 10 n, b ≠ 13 := by
  intro b hb
  have h48 := fmtNat_bytes (by norm_num) (by norm_num) b hb
  rintro rfl
  exact absurd h48 (by decide)

theorem Status.name_ne_cr (status : Status) : ∀ b ∈ status.name, b ≠ 13 := by
  have hall : ∀ row ∈ statusTable, ∀ b ∈ ascii row.2, b ≠ 13 := by decide +kernel
  have hlookup : statusTable.lookup status.code = some ((statusTable.lookup status.code).get status.named) :=
    (Option.some_get status.named).symm
  unfold Status.name
  generalize (statusTable.lookup status.code).get status.named = name at hlookup
  obtain ⟨above, below, htable, -⟩ := List.lookup_eq_some_iff.mp hlookup
  have hmem : (status.code, name) ∈ statusTable := by
    rw [htable]
    exact List.mem_append_right above List.mem_cons_self
  exact hall _ hmem

namespace Response

theorem isLine_statusLine (status : Status) : IsLine (statusLine status) := by
  refine ⟨by simp [statusLine, ascii], fun b hb => ?_⟩
  simp only [statusLine, List.mem_append, List.mem_singleton] at hb
  rcases hb with ((hb | hb) | hb) | hb
  · exact (by decide : ∀ b ∈ ascii "HTTP/1.1 ", b ≠ 13) b hb
  · exact fmtNat_ne_cr _ b hb
  · rw [hb]
    decide
  · exact status.name_ne_cr b hb

theorem isLine_fieldLine {name value : Bytes} (hn : validHeaderName name = true)
    (hv : ∀ b ∈ value, b ≠ 13) : IsLine (fieldLine name value) := by
  refine ⟨by simp [fieldLine, validHeaderName_ne_nil hn], fun b hb => ?_⟩
  simp only [fieldLine, List.mem_append] at hb
  rcases hb with (hb | hb) | hb
  · exact validHeaderName_ne_cr hn b hb
  · exact (by decide : ∀ b ∈ ascii ": ", b ≠ 13) b hb
  · exact hv b hb

theorem isLine_framingLines (self : Response) : ∀ line ∈ self.framingLines, IsLine line := by
  intro line hline
  unfold framingLines at hline
  split at hline
  · obtain rfl : line = _ := by simpa using hline
    exact ⟨by decide, by decide⟩
  split at hline
  · simp at hline
  split at hline
  · obtain rfl : line = _ := by simpa using hline
    exact isLine_fieldLine (by decide) (fmtNat_ne_cr _)
  · simp at hline

theorem isLine_headLines {self : Response} (h : HeadersValid self.headers) :
    ∀ line ∈ self.headLines, IsLine line := by
  intro line hline
  simp only [headLines, List.cons_append, List.mem_cons, List.mem_append, List.mem_map] at hline
  rcases hline with rfl | (⟨entry, hentry, rfl⟩ | hclose) | hframing
  · exact isLine_statusLine _
  · exact isLine_fieldLine (h entry hentry).1 (validHeaderValue_ne_cr (h entry hentry).2)
  · split at hclose
    · simp at hclose
    · obtain rfl : line = _ := by simpa using hclose
      exact ⟨by decide, by decide⟩
  · exact isLine_framingLines self line hframing

end Response
end Dusty
