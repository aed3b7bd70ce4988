import Dusty.ErrorReply

/-! # The header block, line by line

Names and values come from handlers, and often from users.  What `header` and `setCookie` accept is one line
of the header block each, and what they do not accept changes nothing: `header_block_exact`. -/

namespace Dusty

open Act HandlerState

/-- The operations that set header fields. -/
def Op.setsField : Op → Bool
  | .header .. | .setCookie .. | .setContentType .. => true
  | _ => false

namespace Response

/-! ### What is not accepted -/

theorem header_error {name value : Bytes} {self self' : Response} {f : Fault}
    (h : header name value self = .error f self') : self' = self := by
  unfold header at h
  rw [bind_ok (get_run self)] at h
  split at h
  · cases h
    rfl
  · split at h
    · cases h
      rfl
    · split at h
      · cases h
        rfl
      · cases hput : self.headers.put name value with
        | error e =>
            rw [hput] at h
            cases h
            rfl
        | ok headers =>
            rw [hput] at h
            cases h

theorem setCookie_error {name value : Bytes} {opts : CookieOpts} {self self' : Response} {f : Fault}
    (h : setCookie name value opts self = .error f self') : self' = self := by
  unfold setCookie at h
  rw [bind_ok (get_run self)] at h
  split at h
  · cases h
    rfl
  · have hkeeps := keeps_serializeCookie (P := fun s => s = self) name value opts
    rw [bind_run] at h
    cases hrun : Cookie.serializeCookie name value opts self with
    | error e s =>
        rw [hrun] at h
        cases h
        exact hkeeps.error rfl hrun
    | ok text s =>
        obtain rfl := hkeeps.ok rfl hrun
        rw [hrun] at h
        simp only at h
        split at h
        · cases h
          rfl
        · cases hadd : s.headers.add (ascii "Set-Cookie") text with
          | error e =>
              rw [hadd] at h
              cases h
              rfl
          | ok headers =>
              rw [hadd] at h
              cases h

/-! ### The headers stay open -/

theorem keeps_open_header (name value : Bytes) :
    Keeps (fun self => self.headersWritten = false) (header name value) := by
  refine keeps_get_bind fun r hr => ?_
  split
  · exact keeps_fail _
  split
  · exact keeps_fail _
  split
  · exact keeps_fail _
  · cases r.headers.put name value with
    | error e => exact keeps_fail _
    | ok headers => exact keeps_modify fun s hs => hs

theorem keeps_open_setCookie (name value : Bytes) (opts : CookieOpts) :
    Keeps (fun self => self.headersWritten = false) (setCookie name value opts) := by
  refine keeps_get_bind fun r hr => ?_
  split
  · exact keeps_fail _
  · refine (keeps_serializeCookie name value opts).bind fun text => ?_
    split
    · exact keeps_fail _
    · cases r.headers.add (ascii "Set-Cookie") text with
      | error e => exact keeps_fail _
      | ok headers => exact keeps_modify fun s hs => hs

end Response

namespace Executor

open Response

/-- An action on the response changes nothing else. -/
theorem onRes_error {α : Type} {x : Act Response α} {st st' : HandlerState} {f : Fault}
    (h : onRes x st = .error f st') : ∃ res, x st.res = .error f res ∧ st' = st.setRes res := by
  unfold onRes zoom at h
  cases hrun : x st.res with
  | ok a res =>
      rw [hrun] at h
      cases h
  | error e res =>
      rw [hrun] at h
      cases h
      exact ⟨res, rfl, rfl⟩

/-- **What is not accepted changes nothing.** -/
theorem exec_rejected {op : Op} (hop : op.setsField = true) {st st' : HandlerState} {f : Fault}
    (h : exec op st = .error f st') : st' = st := by
  cases op with
  | header name value =>
      obtain ⟨res, hrun, rfl⟩ := onRes_error h
      rw [header_error hrun]
      rfl
  | setCookie name value opts =>
      obtain ⟨res, hrun, rfl⟩ := onRes_error h
      rw [setCookie_error hrun]
      rfl
  | setContentType contentType =>
      obtain ⟨res, hrun, rfl⟩ := onRes_error h
      cases hrun
  | _ => cases hop

theorem keeps_open_exec {op : Op} (hop : op.setsField = true) :
    Keeps (fun st : HandlerState => st.res.headersWritten = false) (exec op) := by
  cases op with
  | header name value => exact keeps_onRes_of (P := fun self => self.headersWritten = false) (keeps_open_header name value)
  | setCookie name value opts => exact keeps_onRes_of (P := fun self => self.headersWritten = false) (keeps_open_setCookie name value opts)
  | setContentType contentType => exact keeps_onRes_of (P := fun self => self.headersWritten = false) (keeps_modify fun self h => h)
  | _ => cases hop

/-! ### The block -/

/-- `writeHeader` writes a block that is cut, whatever follows it, into the status line, one line for each
field in order, and the lines of its own; and each line of a field has the name of that field.  Only where
the list has no room for the content type it fails, and changes nothing. -/
def WritesItsLines (before : Bytes) (self : Response) : Prop :=
  match self.settledHeaders with
  | .error e => writeHeader self = .error (.err e) self
  | .ok headers => ∃ res' lines, writeHeader self = .ok () res' ∧ res'.headers = headers ∧
      lines = statusLine self.status ::
        (headers.entries.map fun entry => entry.key ++ ascii ": " ++ entry.value) ++
        (if self.keepalive then [] else [ascii "Connection: close"]) ++ res'.framingLines ∧
      res'.conn.out = before ++ headBlock lines ∧
      (∀ rest, cutHead (headBlock lines ++ rest) = some (lines, rest)) ∧
      ∀ entry ∈ headers.entries, fieldName (entry.key ++ ascii ": " ++ entry.value) = entry.key

/-- **The header block is the lines that were accepted**, whatever operations came before, as long as the
headers are not out (and operations that only set fields leave them so).  An operation that sets a field and
is refused changes nothing. -/
theorem header_block_exact {conn : Conn} (hconn : conn.faults = []) (maxHeaders : ℕ)
    (head keepalive : Bool) {ops : List Op} {results : List (Except Error Unit)} {st : HandlerState}
    (hrun : runOps ops (start conn maxHeaders head keepalive) = .ok results st)
    (hopen : (∀ op ∈ ops, op.setsField = true) ∨ st.res.headersWritten = false) :
    (∀ op : Op, op.setsField = true → ∀ f st', exec op st = .error f st' → st' = st) ∧
      WritesItsLines conn.out st.res := by
  refine ⟨fun op hop f st' h => exec_rejected hop h, ?_⟩
  have hsound := reach_of_runOps hconn hrun
  have hheaders : st.res.headersWritten = false := by
    rcases hopen with hfields | hopen
    · exact (keeps_runOps_of fun op hop => keeps_open_exec (hfields op hop)).ok rfl hrun
    · exact hopen
  have hwrite := writeHeader_run hsound.faults hheaders
  unfold WritesItsLines
  cases hsettled : st.res.settledHeaders with
  | error e =>
      rw [hsettled] at hwrite
      exact hwrite
  | ok headers =>
      rw [hsettled] at hwrite
      have hvalid : HeadersValid headers := settledHeaders_valid hsound.valid hsettled
      refine ⟨_, (st.res.setHeaders headers).headLines, hwrite, rfl, rfl, ?_,
        cutHead_headBlock (isLine_headLines hvalid), fun entry hentry => ?_⟩
      · show (st.res.conn.wroteLines _).out = _
        rw [Conn.out_wroteLines_block, (hsound.fresh hheaders).2.2.2]
        rfl
      · exact fieldName_fieldLine (hvalid entry hentry).1

/-- A field, one that would be two lines, a cookie, and a content type. -/
def fieldOps : List Op :=
  [.header (ascii "X-A") (ascii "1"), .header (ascii "X-B") (ascii "1\r\nX-C: 2"),
    .setCookie (ascii "id") (ascii "a b") {}, .setContentType (some .html)]

theorem header_block_exact_sample :
    ∃ results st, runOps fieldOps (start {} 8 false true) = .ok results st ∧
      st.res.settledHeaders.isOk = true ∧
      (∀ op : Op, op.setsField = true → ∀ f st', exec op st = .error f st' → st' = st) ∧
      WritesItsLines [] st.res := by
  have hyields : yields (fun _ st => st.res.settledHeaders.isOk) (runOps fieldOps) (start {} 8 false true) = true := by
    decide +kernel
  obtain ⟨results, st, hrun, hok⟩ := yields_iff.mp hyields
  exact ⟨results, st, hrun, hok, header_block_exact rfl 8 false true hrun (.inl (by decide))⟩

end Executor
end Dusty
