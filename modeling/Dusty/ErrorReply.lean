import Dusty.HandlerInv

/-! # The reply to a failed handler

When a handler fails before the headers are out, `Executor.run` prepares a replacement and
the server writes it.  The replacement is the error response the code means to send exactly
when nothing of the abandoned body is left: no chunked framing was decided on, no other field
describes the abandoned body, and the header table has room for the new content type. -/

namespace Dusty

open Act

namespace Response

/-! ### The error response -/

/-- The name in a line of a header block. -/
def fieldName (line : Bytes) : Bytes := line.takeWhile (· ≠ 58)

/-- The fields that describe a body: its type and coding, what part of what it is, and where
it ends.  A validator (`ETag`, `Last-Modified`) and a file name (`Content-Disposition`) change
neither how the body is read nor where it ends, and are not among them. -/
def bodyFieldNames : List Bytes :=
  [ascii "Content-Type", ascii "Content-Length", ascii "Content-Encoding",
    ascii "Content-Language", ascii "Content-Location", ascii "Content-Range",
    ascii "Transfer-Encoding"]

def describesBody (line : Bytes) : Bool :=
  bodyFieldNames.any fun name => eqlIgnoreCase (fieldName line) name

/-- One complete response: the 500 status line, a header block in which the fields about a
body are those of the default error body, and that body. -/
def IsErrorReply (head : Bool) (bytes : Bytes) : Prop :=
  ∃ fields, cutHead bytes = some (statusLine .internalServerError :: fields,
      if head then [] else Executor.errorBody) ∧
    fields.filter describesBody =
      [ascii "Content-Type: text/plain; charset=UTF-8", ascii "Content-Length: 26"]

/-- The fields `resetBody` removes. -/
def isReset (entry : HeaderEntry) : Bool :=
  entry.isFor (ascii "Content-Type") || entry.isFor (ascii "Content-Length")

/-- The condition under which the replacement is the error response. -/
def Replaceable (self : Response) : Prop :=
  self.chunked = false ∧
    (self.headers.entries.filter fun e => !isReset e).length < self.headers.cap ∧
    ∀ e ∈ self.headers.entries, isReset e = false → describesBody (entryLine e) = false

/-- The response after `resetBody`. -/
def afterReset (self : Response) : Response :=
  { self with
    body := [], buffer := [], bodyWriterOpen := false, contentType := none
    headers := ((self.headers.remove (ascii "Content-Type")).1.remove
      (ascii "Content-Length")).1 }

/-- The replacement `handleError` prepares. -/
def replacement (self : Response) : Response :=
  { self.afterReset with
    status := .internalServerError, contentType := some .text, body := Executor.errorBody }

theorem handleError_run {self : Response} (hw : self.headersWritten = false) :
    Executor.handleError self = .ok () self.replacement := by
  unfold Executor.handleError resetBody
  rw [bind_run, bind_ok (get_run self), bind_ok (assert_true (by simp [hw]) self)]
  rfl

/-- The fields that stay are those `resetBody` does not remove. -/
theorem entries_afterReset (self : Response) :
    self.afterReset.headers.entries = self.headers.entries.filter fun e => !isReset e := by
  simp only [afterReset, Headers.remove, List.filter_filter, isReset, Bool.not_or]
  congr 1
  funext e
  exact Bool.and_comm _ _

theorem has_afterReset (self : Response) :
    self.afterReset.headers.has (ascii "Content-Type") = false := by
  rw [Headers.has, entries_afterReset, List.any_eq_false]
  intro e he
  simp only [List.mem_filter, isReset, Bool.not_eq_true', Bool.or_eq_false_iff] at he
  simp [he.2.1]

/-- The content type of the replacement is added at the end of the table, if it fits. -/
theorem settledHeaders_replacement {self : Response}
    (h : (self.headers.entries.filter fun e => !isReset e).length < self.headers.cap) :
    ∃ headers, self.replacement.settledHeaders = .ok headers ∧
      headers.entries = (self.headers.entries.filter fun e => !isReset e) ++
        [.make (ascii "Content-Type") (ascii "text/plain; charset=UTF-8")] := by
  have hput : self.replacement.settledHeaders = self.afterReset.headers.add
      (ascii "Content-Type") (ascii "text/plain; charset=UTF-8") :=
    if_neg (by have := self.has_afterReset; rw [Headers.has] at this; simp [replacement, this])
  have hroom : self.afterReset.headers.entries.length < self.afterReset.headers.cap := by
    rw [entries_afterReset]
    exact h
  rw [hput, Headers.add, dif_pos hroom]
  refine ⟨_, rfl, ?_⟩
  exact congrArg (· ++ _) self.entries_afterReset

theorem settledHeaders_replacement_full {self : Response}
    (h : ¬(self.headers.entries.filter fun e => !isReset e).length < self.headers.cap) :
    self.replacement.settledHeaders = .error .tooManyHeaders := by
  have hput : self.replacement.settledHeaders = self.afterReset.headers.add
      (ascii "Content-Type") (ascii "text/plain; charset=UTF-8") :=
    if_neg (by have := self.has_afterReset; rw [Headers.has] at this; simp [replacement, this])
  have hroom : ¬self.afterReset.headers.entries.length < self.afterReset.headers.cap := by
    rw [entries_afterReset]
    exact h
  rw [hput, Headers.add, dif_neg hroom]

/-! ### `write` on a response whose headers are still open -/

/-- The body `write` sends. -/
def bodyBytes (self : Response) : Bytes :=
  if self.buffer.length > 0 then self.buffer else self.body

theorem write_eq_finishBuffered {self : Response} (hwritten : self.written = false)
    (hopen : self.bodyWriterOpen = false) : write self = finishBuffered self := by
  unfold write
  rw [bind_ok (get_run self), if_neg (by simp [hwritten]), if_neg (by simp [hopen])]

/-- A buffered response: the header block, then the body unless it answers a HEAD. -/
theorem finishBuffered_run {self : Response} (h : self.conn.faults = [])
    (hchunked : self.chunked = false) (hw : self.headersWritten = false) {headers : Headers}
    (hs : self.settledHeaders = .ok headers) :
    ∃ self', finishBuffered self = .ok () self' ∧
      self'.conn.out = self.conn.out ++ headBlock (self.setHeaders headers).headLines ++
        (if self.head then [] else self.bodyBytes) ∧
      self'.conn.flushed = self'.conn.out.length ∧ self'.keepalive = self.keepalive ∧
      self'.written = true := by
  let r : Response := self.markWritten
  have hr : r.conn.faults = [] := h
  have hsr : r.settledHeaders = .ok headers := hs
  have hhead := writeHeader_run hr hw
  rw [hsr] at hhead
  have hf : (r.setHeaders headers).sentHead.conn.faults = [] := by
    rw [sentHead, Conn.faults_wroteLines]
    exact h
  have hout : (r.setHeaders headers).sentHead.conn.out =
      self.conn.out ++ headBlock (self.setHeaders headers).headLines :=
    Conn.out_wroteLines_block _ _
  have hc : ¬self.markWritten.chunked = true := by simp [hchunked]
  unfold finishBuffered
  rw [bind_ok (modify_run ..), bind_ok (get_run _), if_neg hc, bind_ok hhead, bind_ok (get_run _)]
  cases hd : self.head with
  | true =>
      have hd' : (r.setHeaders headers).sentHead.head = true := hd
      rw [hd', Bool.not_true, when_false, bind_ok (pure_run ..), onConn_flush_run hf]
      exact ⟨_, rfl, by simp [setConn, hout], rfl, rfl, rfl⟩
  | false =>
      have hd' : (r.setHeaders headers).sentHead.head = false := hd
      have hbody := onConn_writeAll_run hf .body self.bodyBytes
      rw [hd', Bool.not_false, when_true]
      rw [show writeBody (r.setHeaders headers).sentHead =
        onConn (Conn.writeAll .body self.bodyBytes) from rfl, bind_ok hbody,
        onConn_flush_run (by simpa [setConn] using hf)]
      exact ⟨_, rfl, by simp [setConn, hout], rfl, rfl, rfl⟩

/-- A response with chunked framing gets only the last chunk. -/
theorem finishBuffered_chunked {self : Response} (h : self.conn.faults = [])
    (hchunked : self.chunked = true) :
    ∃ self', finishBuffered self = .ok () self' ∧
      self'.conn.out = self.conn.out ++ (if self.head then [] else lastChunk) ∧
      self'.keepalive = self.keepalive := by
  have hc : self.markWritten.chunked = true := hchunked
  unfold finishBuffered
  rw [bind_ok (modify_run ..), bind_ok (get_run _), if_pos hc]
  cases hd : self.head with
  | true =>
      have hf : self.markWritten.conn.faults = [] := h
      have hterm : writeTerminator self.markWritten = pure () := by
        simp [writeTerminator, markWritten, hd]
      rw [hterm, bind_ok (pure_run ..), onConn_flush_run hf]
      exact ⟨_, rfl, by simp [setConn], rfl⟩
  | false =>
      have hf : self.markWritten.conn.faults = [] := h
      have hterm : writeTerminator self.markWritten =
          onConn (Conn.writeAll .body lastChunk) := by
        simp only [writeTerminator, markWritten, hd, Bool.not_false, when_true]
        rfl
      rw [hterm, bind_ok (onConn_writeAll_run hf _ _), onConn_flush_run (by simpa [setConn] using hf)]
      exact ⟨_, rfl, by simp [setConn], rfl⟩

theorem finishBuffered_error {self : Response} (h : self.conn.faults = [])
    (hchunked : self.chunked = false) (hw : self.headersWritten = false) {e : Error}
    (hs : self.settledHeaders = .error e) :
    ∃ self', finishBuffered self = .error (.err e) self' ∧ self'.conn = self.conn ∧
      self'.keepalive = self.keepalive := by
  have hr : self.markWritten.conn.faults = [] := h
  have hhead := writeHeader_run hr hw
  rw [show self.markWritten.settledHeaders = .error e from hs] at hhead
  have hc : ¬self.markWritten.chunked = true := by simp [hchunked]
  unfold finishBuffered
  rw [bind_ok (modify_run ..), bind_ok (get_run _), if_neg hc, bind_error hhead]
  exact ⟨_, rfl, rfl, rfl⟩

/-! ### When the replacement is the error response -/

theorem validHeaderName_ne_colon {name : Bytes} (hn : validHeaderName name = true) :
    ∀ b ∈ name, decide (b ≠ 58) = true := by
  intro b hb
  simp only [validHeaderName, Bool.and_eq_true, List.all_eq_true] at hn
  have hmem : b ∈ allowedHeaderNameBytes := by simpa using hn.2 b hb
  refine decide_eq_true ?_
  rintro rfl
  exact absurd hmem (by decide)

theorem fieldName_fieldLine {name value : Bytes} (hn : validHeaderName name = true) :
    fieldName (fieldLine name value) = name := by
  have htail : (ascii ": " ++ value).takeWhile (· ≠ 58) = [] := rfl
  unfold fieldName fieldLine
  rw [List.append_assoc, List.takeWhile_append_of_pos (validHeaderName_ne_colon hn), htail,
    List.append_nil]

theorem get_isNone {headers : Headers} {name : Bytes} (h : headers.has name = false) :
    (headers.get name).isNone = true := by
  unfold Headers.get
  rw [Option.isNone_map, Option.isNone_iff_eq_none, List.find?_eq_none]
  intro e he
  rw [Headers.has, List.any_eq_false] at h
  exact h e he

/-- The fields after the status line. -/
def fieldLines (self : Response) : List Bytes :=
  self.headers.entries.map entryLine
    ++ (if self.keepalive then [] else [ascii "Connection: close"]) ++ self.framingLines

theorem headLines_eq (self : Response) :
    self.headLines = statusLine self.status :: self.fieldLines := rfl

theorem framingLines_replacement {self : Response} (hc : self.chunked = false)
    (hstream : self.streaming = false) {headers : Headers}
    (hentries : headers.entries = (self.headers.entries.filter fun e => !isReset e) ++
      [.make (ascii "Content-Type") (ascii "text/plain; charset=UTF-8")]) :
    (self.replacement.setHeaders headers).framingLines = [ascii "Content-Length: 26"] := by
  have hhas : headers.has (ascii "Content-Length") = false := by
    rw [Headers.has, hentries, List.any_append, Bool.or_eq_false_iff]
    refine ⟨?_, by decide⟩
    rw [List.any_eq_false]
    intro e he
    simp only [List.mem_filter, isReset, Bool.not_eq_true', Bool.or_eq_false_iff] at he
    simp [he.2.2]
  have hnone := get_isNone hhas
  have hlen : (self.replacement.setHeaders headers).bodyLength = 26 := by
    show Executor.errorBody.length = 26
    decide
  unfold framingLines
  rw [hlen, if_neg (show ¬(self.replacement.setHeaders headers).chunked = true by
      rw [show (self.replacement.setHeaders headers).chunked = self.chunked from rfl, hc]; simp),
    if_neg (show ¬(self.replacement.setHeaders headers).streaming = true by
      rw [show (self.replacement.setHeaders headers).streaming = self.streaming from rfl, hstream]
      simp),
    if_pos (show ((self.replacement.setHeaders headers).headers.get
      (ascii "Content-Length")).isNone = true from hnone)]
  decide

/-- The fields about a body in the replacement: those that were left, and its own. -/
theorem filter_replacement {self : Response} (hc : self.chunked = false)
    (hstream : self.streaming = false) {headers : Headers}
    (hentries : headers.entries = (self.headers.entries.filter fun e => !isReset e) ++
      [.make (ascii "Content-Type") (ascii "text/plain; charset=UTF-8")]) :
    (self.replacement.setHeaders headers).fieldLines.filter describesBody =
      (((self.headers.entries.filter fun e => !isReset e).map entryLine).filter describesBody) ++
        [ascii "Content-Type: text/plain; charset=UTF-8", ascii "Content-Length: 26"] := by
  unfold fieldLines
  rw [framingLines_replacement hc hstream hentries,
    show (self.replacement.setHeaders headers).headers.entries = headers.entries from rfl,
    hentries]
  have hclose : (if (self.replacement.setHeaders headers).keepalive then []
      else [ascii "Connection: close"]).filter describesBody = [] := by
    cases (self.replacement.setHeaders headers).keepalive <;> decide
  have hlength : [ascii "Content-Length: 26"].filter describesBody =
      [ascii "Content-Length: 26"] := by decide
  have htype : ([HeaderEntry.make (ascii "Content-Type")
      (ascii "text/plain; charset=UTF-8")].map entryLine).filter describesBody =
      [ascii "Content-Type: text/plain; charset=UTF-8"] := by decide
  rw [List.map_append, List.filter_append, List.filter_append, List.filter_append, hclose,
    hlength, htype]
  simp

/-- What was left says nothing about a body exactly under the condition of `Replaceable`. -/
theorem filter_left_eq_nil {self : Response} :
    ((self.headers.entries.filter fun e => !isReset e).map entryLine).filter describesBody = [] ↔
      ∀ e ∈ self.headers.entries, isReset e = false → describesBody (entryLine e) = false := by
  rw [List.filter_eq_nil_iff]
  constructor
  · intro h e he hreset
    have hmem : entryLine e ∈ (self.headers.entries.filter fun e => !isReset e).map entryLine :=
      List.mem_map_of_mem (List.mem_filter.mpr ⟨he, by simp [hreset]⟩)
    simpa using h _ hmem
  · intro h line hline
    obtain ⟨e, he, rfl⟩ := List.mem_map.mp hline
    obtain ⟨he, hreset⟩ := List.mem_filter.mp he
    simp [h e he (by simpa using hreset)]

/-- With the headers open, `write` closes a body writer left open and sends everything. -/
theorem write_open {self : Response} (hwritten : self.written = false)
    (hw : self.headersWritten = false) : write self = finishBuffered self.closeBody := by
  unfold write
  rw [bind_ok (get_run self), if_neg (by simp [hwritten])]
  cases hopen : self.bodyWriterOpen with
  | true => rw [if_pos rfl, bind_ok (modify_run ..), if_neg (by simp [hw])]
  | false =>
      have hclose : self.closeBody = self := by
        unfold closeBody
        rw [← hopen]
      rw [if_neg Bool.false_ne_true, hclose]

end Response

namespace Executor

open HandlerState Response

/-- The run of a handler that failed with its headers open, from its last state on. -/
theorem respond_error {ops : List Op} {err : Error} {st₀ st : HandlerState}
    {rs : List (Except Error Unit)} (hops : runOps ops st₀ = .ok rs st)
    (herr : isTransport err = false) (hw : st.res.headersWritten = false) :
    respond ops (some err) st₀ = match write st.res.replacement with
      | .ok _ r => .ok rs (st.setRes r)
      | .error e r => .error e (st.setRes r) := by
  have hconclude : conclude (some err) st = .ok () (st.setRes st.res.replacement) := by
    rw [conclude, if_neg (by simp [herr]), bind_ok (get_run st), if_neg (by simp [hw])]
    simp only [onRes, zoom, handleError_run hw]
  have hrun : run ops (some err) st₀ = .ok rs (st.setRes st.res.replacement) := by
    unfold run
    rw [bind_ok hops, bind_ok hconclude]
    rfl
  unfold respond
  rw [bind_ok hrun]
  cases hwrite : write st.res.replacement with
  | ok u r =>
      have hres : onRes write (st.setRes st.res.replacement) = .ok u (st.setRes r) := by
        simp only [onRes, zoom, setRes, hwrite]
      rw [bind_ok hres]
      rfl
  | error e r =>
      have hres : onRes write (st.setRes st.res.replacement) = .error e (st.setRes r) := by
        simp only [onRes, zoom, setRes, hwrite]
      rw [bind_error hres]

/-- **The reply to a failed handler.**  With the headers still open, what the executor and the
server put on the wire is the error response exactly when nothing of the abandoned one is
left. -/
theorem respond_error_iff {conn : Conn} (hconn : conn.faults = []) (maxHeaders : ℕ)
    (head keepalive : Bool) {ops : List Op} {err : Error} {st : HandlerState}
    {rs : List (Except Error Unit)}
    (hops : runOps ops (start conn maxHeaders head keepalive) = .ok rs st)
    (herr : isTransport err = false) (hw : st.res.headersWritten = false) :
    (∃ rs' st' bytes, respond ops (some err) (start conn maxHeaders head keepalive) = .ok rs' st' ∧
        st'.res.conn.out = conn.out ++ bytes ∧ IsErrorReply head bytes ∧
        st'.res.conn.flushed = st'.res.conn.out.length) ↔
      st.res.Replaceable := by
  have hreach := reach_of_runOps hconn hops
  obtain ⟨hwritten, hstreaming, -, hbase⟩ := hreach.fresh hw
  have hhead : st.res.head = head := hreach.head
  have hfaults : st.res.replacement.conn.faults = [] := hreach.faults
  have hout : st.res.replacement.conn.out = conn.out := congrArg Conn.out hbase
  have hwrite : write st.res.replacement = finishBuffered st.res.replacement :=
    write_eq_finishBuffered hwritten rfl
  rw [respond_error hops herr hw, hwrite]
  cases hchunked : st.res.chunked with
  | true =>
      obtain ⟨r, hrun, hr, -⟩ := finishBuffered_chunked hfaults hchunked
      rw [hrun]
      refine ⟨?_, fun h => absurd h.1 (by simp [hchunked])⟩
      rintro ⟨rs', st', bytes, hok, hbytes, ⟨fields, hcut, -⟩, -⟩
      injection hok with _ hst
      subst hst
      have hb : bytes = if head then [] else lastChunk := by
        have h := hbytes.symm.trans hr
        rw [hout] at h
        have hrep : st.res.replacement.head = head := hhead
        rw [hrep] at h
        exact List.append_cancel_left h
      subst hb
      cases head with
      | true => exact absurd hcut (by simp [cutHead, cutHeadAux])
      | false =>
          have hlast : cutHead lastChunk = some ([[48]], []) := by decide
          simp only [Bool.false_eq_true, if_false, hlast] at hcut
          injection hcut with hcut
          injection hcut with hlines _
          injection hlines with hline _
          exact absurd hline (by decide)
  | false =>
      by_cases hroom :
        (st.res.headers.entries.filter fun e => !isReset e).length < st.res.headers.cap
      · obtain ⟨headers, hsettled, hentries⟩ := settledHeaders_replacement hroom
        obtain ⟨r, hrun, hr, hflush, -, -⟩ := finishBuffered_run hfaults hchunked hw hsettled
        have hvalid : HeadersValid headers :=
          settledHeaders_valid ((hreach.valid.remove _).remove _) hsettled
        have hbody : (if st.res.replacement.head then [] else st.res.replacement.bodyBytes) =
            if head then [] else errorBody := by
          rw [show st.res.replacement.head = head from hhead]
          rfl
        have hlines : ∀ line ∈ (st.res.replacement.setHeaders headers).headLines, IsLine line :=
          isLine_headLines hvalid
        have hcut := cutHead_headBlock hlines (if head then [] else errorBody)
        have hfilter := filter_replacement hchunked hstreaming hentries
        rw [hrun]
        rw [hout, hbody, List.append_assoc] at hr
        constructor
        · rintro ⟨rs', st', bytes, hok, hbytes, ⟨fields, hcut', hfields⟩, -⟩
          injection hok with _ hst
          subst hst
          obtain rfl := List.append_cancel_left (hbytes.symm.trans hr)
          rw [hcut, headLines_eq] at hcut'
          injection hcut' with hcut'
          injection hcut' with hlines _
          injection hlines with _ hlines
          subst hlines
          rw [hfilter] at hfields
          refine ⟨hchunked, hroom, filter_left_eq_nil.mp ?_⟩
          exact List.append_left_eq_self.mp hfields
        · rintro ⟨-, -, hleft⟩
          rw [headLines_eq] at hcut hr
          refine ⟨rs, st.setRes r, _, rfl, hr, ⟨_, hcut, ?_⟩, hflush⟩
          rw [hfilter, filter_left_eq_nil.mpr hleft]
          rfl
      · obtain ⟨r, hrun, -⟩ := finishBuffered_error hfaults hchunked hw
          (settledHeaders_replacement_full hroom)
        rw [hrun]
        refine ⟨?_, fun h => absurd h.2.1 hroom⟩
        rintro ⟨rs', st', bytes, hok, -⟩
        exact absurd hok (by simp)

theorem respond_error_iff_sample :
    ∃ rs' st' bytes, respond [.setBody (ascii "half"), .header (ascii "X-A") (ascii "1")]
        (some (.app 1)) (start {} 4 false true) = .ok rs' st' ∧
      st'.res.conn.out = bytes ∧ IsErrorReply false bytes := by
  have hops : runOps [.setBody (ascii "half"), .header (ascii "X-A") (ascii "1")]
      (start {} 4 false true) = .ok [.ok (), .ok ()] (Act.final
        (runOps [.setBody (ascii "half"), .header (ascii "X-A") (ascii "1")])
        (start {} 4 false true)) := rfl
  have hcond : (Act.final (runOps [.setBody (ascii "half"), .header (ascii "X-A") (ascii "1")])
      (start {} 4 false true)).res.Replaceable := by
    refine ⟨rfl, by decide, by decide⟩
  have herr : isTransport (.app 1) = false := rfl
  obtain ⟨rs', st', bytes, hrun, hout, hreply, -⟩ :=
    (respond_error_iff rfl 4 false true hops herr rfl).mpr hcond
  exact ⟨rs', st', bytes, hrun, hout, hreply⟩

/-- A failed `stream` leaves its decision for chunked framing behind: with room for one field
only, the content type does not fit, and what goes out is the last chunk and nothing else. -/
theorem respond_error_leftover :
    (∃ rs st, runOps [.header (ascii "X-A") (ascii "1"), .setContentType (some .text), .stream 16]
        (start {} 1 false true) = .ok rs st ∧ rs.getLast? = some (.error .tooManyHeaders) ∧
        st.res.headersWritten = false) ∧
    isTransport .tooManyHeaders = false ∧
    ¬∃ rs' st' bytes, respond
        [.header (ascii "X-A") (ascii "1"), .setContentType (some .text), .stream 16]
        (some .tooManyHeaders) (start {} 1 false true) = .ok rs' st' ∧
      st'.res.conn.out = bytes ∧ IsErrorReply false bytes := by
  refine ⟨⟨_, _, rfl, rfl, rfl⟩, rfl, ?_⟩
  rintro ⟨rs', st', bytes, hrun, rfl, fields, hcut, -⟩
  have hout : (Act.final (respond
      [.header (ascii "X-A") (ascii "1"), .setContentType (some .text), .stream 16]
      (some .tooManyHeaders)) (start {} 1 false true)).res.conn.out = lastChunk := by
    decide +kernel
  rw [Act.final_of_ok hrun] at hout
  have hlast : cutHead lastChunk = some ([[48]], []) := by decide
  rw [hout, hlast] at hcut
  injection hcut with hcut
  injection hcut with hlines _
  injection hlines with hline _
  exact absurd hline (by decide)

end Executor
end Dusty
