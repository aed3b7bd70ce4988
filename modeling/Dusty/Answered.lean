import Dusty.BufferedFraming
import Dusty.ErrorReply
import Dusty.StreamFraming

/-! # When a response is complete

What the log of a connection says about the response that is being written on it.  `Tracked` is
kept by every operation: what was sent, interim responses aside, is nothing or a header block and
a body under it.  `write_answers_iff` says when `write` completes a response: what was sent, with what
is left to send, is a header block and exactly the body that it announces. -/

namespace Dusty

open Act

namespace Conn

/-- The bytes of some pieces of output. -/
def bytesOf (log : List (Part × Bytes)) : Bytes := (log.map Prod.snd).flatten

/-- The bytes that belong to the final response. -/
def finalOf (log : List (Part × Bytes)) : Bytes := bytesOf (log.filter fun piece => piece.1 ≠ .interim)

@[simp] theorem bytesOf_append (log log' : List (Part × Bytes)) :
    bytesOf (log ++ log') = bytesOf log ++ bytesOf log' := by
  simp [bytesOf]

@[simp] theorem finalOf_append (log log' : List (Part × Bytes)) :
    finalOf (log ++ log') = finalOf log ++ finalOf log' := by
  simp [finalOf]

@[simp] theorem finalOf_nil : finalOf [] = [] := rfl

theorem finalOf_piece {part : Part} (h : part ≠ .interim) (bytes : Bytes) :
    finalOf [(part, bytes)] = bytes := by
  simp [finalOf, bytesOf, h]

theorem log_wroteLines (c : Conn) (lines : List Bytes) :
    (c.wroteLines lines).log = c.log ++ lines.map fun line => (.head, line ++ crlf) := by
  induction lines generalizing c with
  | nil => simp
  | cons line lines ih =>
      rw [wroteLines_cons, ih]
      simp [wrote]

@[simp] theorem flushed_wroteLines (c : Conn) (lines : List Bytes) :
    (c.wroteLines lines).flushed = c.flushed := by
  induction lines generalizing c with
  | nil => rfl
  | cons line lines ih =>
      rw [wroteLines_cons, ih]
      rfl

theorem finalOf_lines (lines : List Bytes) :
    finalOf (lines.map fun line => (.head, line ++ crlf)) = lines.flatMap fun line => line ++ crlf := by
  induction lines with
  | nil => rfl
  | cons line lines ih =>
      rw [List.map_cons, ← List.singleton_append, finalOf_append, ih, finalOf_piece (by decide)]
      rfl

end Conn

/-- A response with the status ends with its header block. -/
def Status.bodiless (s : Status) : Bool := s.code / 100 == 1 || s.code == 204 || s.code == 304

namespace Response

open Conn

theorem statusLine_inj {s s' : Status} (h : statusLine s = statusLine s') : s = s' := by
  have hcode : ∀ s : Status, ((statusLine s).drop 9).takeWhile (· ≠ 32) = fmtNat 10 s.code := by
    intro s
    have hdigits : ∀ b ∈ fmtNat 10 s.code, decide (b ≠ 32) = true := fun b hb =>
      decide_eq_true (fmtNat_ne_blank s.code b hb).1
    have hline : (statusLine s).drop 9 = fmtNat 10 s.code ++ (32 :: s.name) := by
      unfold statusLine
      rw [List.append_assoc, List.append_assoc, List.drop_left' (by decide)]
      rfl
    rw [hline, List.takeWhile_append_of_pos hdigits, List.takeWhile_cons_of_neg (by decide), List.append_nil]
  have hsame := congrArg (fun line => readNat 10 ((List.drop 9 line).takeWhile (· ≠ 32))) h
  simp only [hcode, readNat_fmtNat (show 1 < 10 by decide) (show 10 ≤ 16 by decide), Option.some.injEq] at hsame
  cases s
  cases s'
  cases hsame
  rfl

/-! ### A whole response -/

/-- The fields say where the body ends, and all of them that it has this length. -/
def Measured (fields : List Bytes) (length : ℕ) : Prop :=
  fields.filter isLengthLine ≠ [] ∧ ∀ line ∈ fields, isLengthLine line = true → lengthOf line = some length

instance (fields : List Bytes) (length : ℕ) : Decidable (Measured fields length) :=
  inferInstanceAs (Decidable (_ ≠ _ ∧ ∀ line ∈ fields, isLengthLine line = true → lengthOf line = some length))

example : ¬Measured [ascii "Content-Length: 10"] (ascii "abc").length := by decide

/-- The field says that the body is in chunks. -/
def isChunkedLine (line : Bytes) : Bool :=
  eqlIgnoreCase (fieldName line) (ascii "Transfer-Encoding") &&
    eqlIgnoreCase (trimBlanks ((line.dropWhile (· ≠ 58)).drop 1)) (ascii "chunked")

/-- The one field that says where the body ends says that it is in chunks, and they end where it does. -/
def Chunked (fields : List Bytes) (body : Bytes) : Prop :=
  (fields.filter isLengthLine).map isChunkedLine = [true] ∧ (decodeChunked body).map Prod.snd = some []

instance (fields : List Bytes) (body : Bytes) : Decidable (Chunked fields body) :=
  inferInstanceAs (Decidable (_ ∧ _))

-- A chunk may end with the bytes of the last one.
example : lastChunk <:+ encodeChunk (ascii "0\r\n") ∧
    ¬Chunked [ascii "Transfer-Encoding: chunked"] (encodeChunk (ascii "0\r\n")) := by decide

/-- The body ends with the connection. -/
def OpenEnded (fields : List Bytes) : Prop :=
  fields.filter isLengthLine = [] ∧ ascii "Connection: close" ∈ fields

instance (fields : List Bytes) : Decidable (OpenEnded fields) := inferInstanceAs (Decidable (_ ∧ _))

/-- This is the whole body that the status and the fields announce: none in the response to a HEAD or under a status
that has none, and else one of the given length, one with a last chunk, or any if it ends with the connection.  Behind
a 101 stands another protocol. -/
def Whole (self : Response) (status : Status) (fields : List Bytes) (body : Bytes) : Prop :=
  status.code = 101 ∨
    if self.head || status.bodiless then body = []
    else Measured fields body.length ∨ Chunked fields body ∨ OpenEnded fields

instance (self : Response) (status : Status) (fields : List Bytes) (body : Bytes) :
    Decidable (self.Whole status fields body) :=
  inferInstanceAs (Decidable (_ ∨ ite _ _ _))

theorem whole_congr {r r' : Response} (hhead : r'.head = r.head) {status : Status} {fields : List Bytes}
    {body : Bytes} : r'.Whole status fields body ↔ r.Whole status fields body := by
  unfold Whole
  rw [hhead]

theorem whole_empty {r : Response} {status : Status} {fields : List Bytes} (h : Measured fields 0) :
    r.Whole status fields [] := by
  refine .inr ?_
  split
  · rfl
  · exact .inl h

/-- A header block with a status line, and a whole body. -/
def IsComplete (self : Response) (bytes : Bytes) : Prop :=
  ∃ status fields body, cutHead bytes = some (statusLine status :: fields, body) ∧
    self.Whole status fields body

/-- Behind what was written before, a complete response was written and flushed, and nothing behind it. -/
def Answered (before : List (Part × Bytes)) (self : Response) : Prop :=
  ∃ pieces later, self.conn.log = before ++ pieces ++ later ∧ IsComplete self (finalOf pieces) ∧
    finalOf later = [] ∧ (bytesOf (before ++ pieces)).length ≤ self.conn.flushed

/-- These bytes are what was sent of the response: nothing before the header block, and without
framing for a stream nothing behind it. -/
def Shows (self : Response) (bytes : Bytes) : Prop :=
  (self.headersWritten = false → bytes = []) ∧
    (self.headersWritten = true → ∃ status fields body,
      (∀ line ∈ statusLine status :: fields, IsLine line) ∧
      bytes = headBlock (statusLine status :: fields) ++ body ∧ (¬Streams self → body = []))

/-- The response is being written on a working transport. -/
structure Underway (before : List (Part × Bytes)) (r : Response) : Prop where
  faults : r.conn.faults = []
  valid : HeadersValid r.headers
  flushed : r.conn.flushed ≤ r.conn.out.length
  shows : ∃ pieces, r.conn.log = before ++ pieces ∧ Shows r (finalOf pieces)

/-- And if it is marked as written, its headers are sent. -/
structure Tracked (before : List (Part × Bytes)) (r : Response) : Prop extends
    Underway before r where
  written : r.written = true → r.headersWritten = true

variable {before : List (Part × Bytes)} {r r' : Response}

/-! ### Responses that differ in what is not sent -/

theorem Unseen.streams (hu : Unseen r r') (hw : r.headersWritten = true) :
    Streams r' ↔ Streams r := by
  obtain ⟨hchunked, hlength⟩ := hu.sent hw
  rw [Streams, Streams, hu.headersWritten, hchunked, hlength, hu.streaming]

theorem Shows.unseen {bytes : Bytes} (h : Shows r bytes) (hu : Unseen r r') : Shows r' bytes := by
  refine ⟨fun hw => h.1 (hu.headersWritten ▸ hw), fun hw => ?_⟩
  have hsent : r.headersWritten = true := hu.headersWritten ▸ hw
  obtain ⟨status, fields, body, hlines, hbytes, hbody⟩ := h.2 hsent
  exact ⟨status, fields, body, hlines, hbytes, fun hnot => hbody fun hs => hnot ((hu.streams hsent).mpr hs)⟩

theorem Underway.unseen (h : Underway before r) (hu : Unseen r r') : Underway before r' := by
  obtain ⟨pieces, hlog, hshows⟩ := h.shows
  refine ⟨by rw [hu.conn]; exact h.faults, hu.valid h.valid, by rw [hu.conn]; exact h.flushed, pieces,
    by rw [hu.conn]; exact hlog, hshows.unseen hu⟩

theorem Tracked.unseen (h : Tracked before r) (hu : Unseen r r') : Tracked before r' := by
  refine ⟨h.toUnderway.unseen hu, fun hw => ?_⟩
  rw [hu.headersWritten]
  exact h.written (hu.written ▸ hw)

/-! ### More output -/

/-- The connection accepted more, and still works. -/
structure Grows (more : List (Part × Bytes)) (c c' : Conn) : Prop where
  faults : c'.faults = []
  log : c'.log = c.log ++ more
  bound : c'.flushed ≤ c'.out.length

theorem Underway.grows (h : Underway before r) {conn : Conn} {more : List (Part × Bytes)}
    (hg : Grows more r.conn conn) (hlegal : finalOf more = [] ∨ Streams r) :
    Underway before (r.setConn conn) := by
  obtain ⟨pieces, hlog, hopen, hsent⟩ := h.shows
  refine ⟨hg.faults, h.valid, hg.bound, pieces ++ more, ?_, fun hw => ?_, fun hw => ?_⟩
  · rw [setConn_conn, hg.log, hlog, List.append_assoc]
  · have hmore : finalOf more = [] := by
      rcases hlegal with hmore | hs
      · exact hmore
      · exact absurd (show r.headersWritten = false from hw) (by simp [hs.1])
    rw [finalOf_append, hopen hw, hmore]
    rfl
  · obtain ⟨status, fields, body, hlines, hbytes, hbody⟩ := hsent hw
    refine ⟨status, fields, body ++ finalOf more, hlines, ?_, fun hnot => ?_⟩
    · rw [finalOf_append, hbytes, List.append_assoc]
    · have hmore : finalOf more = [] := hlegal.resolve_right hnot
      rw [hbody hnot, hmore]
      rfl

theorem Tracked.grows (h : Tracked before r) {conn : Conn} {more : List (Part × Bytes)}
    (hg : Grows more r.conn conn) (hlegal : finalOf more = [] ∨ Streams r) :
    Tracked before (r.setConn conn) :=
  ⟨h.toUnderway.grows hg hlegal, h.written⟩

theorem grows_wrote {c : Conn} (hf : c.faults = []) (hb : c.flushed ≤ c.out.length) (part : Part)
    (bytes : Bytes) : Grows [(part, bytes)] c (c.wrote part bytes) := by
  refine ⟨hf, rfl, ?_⟩
  rw [out_wrote, List.length_append]
  exact Nat.le_trans hb (Nat.le_add_right _ _)

theorem grows_flushed {c : Conn} (hf : c.faults = []) : Grows [] c c.flushedAll :=
  ⟨hf, (List.append_nil _).symm, Nat.le_refl _⟩

theorem Underway.wrote_run (h : Underway before r) (part : Part) (bytes : Bytes) :
    onConn (Conn.writeAll part bytes) r = .ok () (r.setConn (r.conn.wrote part bytes)) ∧
      Grows [(part, bytes)] r.conn (r.conn.wrote part bytes) :=
  ⟨onConn_writeAll_run h.faults part bytes, grows_wrote h.faults h.flushed part bytes⟩

theorem Underway.flush_run (h : Underway before r) :
    onConn Conn.flush r = .ok () (r.setConn r.conn.flushedAll) ∧
      Grows [] r.conn r.conn.flushedAll :=
  ⟨onConn_flush_run h.faults, grows_flushed h.faults⟩

theorem tracked_emit (part : Part) (bytes : Bytes) :
    Keeps (fun r => Tracked before r ∧ Streams r) (onConn (Conn.writeAll part bytes)) := by
  intro r hr
  obtain ⟨hrun, hg⟩ := hr.1.toUnderway.wrote_run part bytes
  rw [hrun]
  exact ⟨hr.1.grows hg (.inr hr.2), hr.2⟩

theorem tracked_interim (bytes : Bytes) :
    Keeps (Tracked before) (onConn (Conn.writeAll .interim bytes)) := by
  intro r hr
  obtain ⟨hrun, hg⟩ := hr.toUnderway.wrote_run .interim bytes
  rw [hrun]
  exact hr.grows hg (.inl rfl)

theorem tracked_flush : Keeps (Tracked before) (onConn Conn.flush) := by
  intro r hr
  obtain ⟨hrun, hg⟩ := hr.toUnderway.flush_run
  rw [hrun]
  exact hr.grows hg (.inl rfl)

/-! ### The header block -/

theorem Underway.sentHead (h : Underway before r) (hw : r.headersWritten = false) {headers : Headers}
    (hs : r.settledHeaders = .ok headers) :
    Underway before (r.setHeaders headers).sentHead ∧
      ∃ pieces, (r.setHeaders headers).sentHead.conn.log = before ++ pieces ∧
        finalOf pieces = headBlock (r.setHeaders headers).headLines := by
  obtain ⟨pieces, hlog, hopen, -⟩ := h.shows
  have hvalid : HeadersValid headers := settledHeaders_valid h.valid hs
  have hlines : ∀ line ∈ (r.setHeaders headers).headLines, IsLine line := isLine_headLines hvalid
  let more : List (Part × Bytes) :=
    ((r.setHeaders headers).headLines ++ [[]]).map fun line => (.head, line ++ crlf)
  have hlog' : (r.setHeaders headers).sentHead.conn.log = before ++ (pieces ++ more) := by
    show (r.conn.wroteLines _).log = _
    rw [log_wroteLines, hlog, List.append_assoc]
  have hfinal : finalOf (pieces ++ more) = headBlock (r.setHeaders headers).headLines := by
    rw [finalOf_append, hopen hw, finalOf_lines, List.nil_append, headBlock]
    simp
  refine ⟨⟨?_, hvalid, ?_, pieces ++ more, hlog', fun hw' => ?_, fun _ => ?_⟩, pieces ++ more, hlog',
    hfinal⟩
  · show (r.conn.wroteLines _).faults = []
    rw [Conn.faults_wroteLines]
    exact h.faults
  · show (r.conn.wroteLines _).flushed ≤ (r.conn.wroteLines _).out.length
    rw [flushed_wroteLines, out_wroteLines, List.length_append]
    exact Nat.le_trans h.flushed (Nat.le_add_right _ _)
  · simp [Response.sentHead] at hw'
  · refine ⟨r.status, (r.setHeaders headers).fieldLines, [], ?_, ?_, fun _ => rfl⟩
    · intro line hline
      exact hlines line (by rw [headLines_eq]; exact hline)
    · rw [hfinal, headLines_eq, List.append_nil]
      rfl

/-- A response whose headers are open is not written. -/
theorem Tracked.open (h : Tracked before r) (hw : r.headersWritten = false) : r.written = false := by
  cases hwritten : r.written with
  | false => rfl
  | true => cases hw.symm.trans (h.written hwritten)

theorem tracked_writeHeader : Keeps (Tracked before) writeHeader := by
  intro r hr
  cases hw : r.headersWritten with
  | true =>
      rw [writeHeader_done hw]
      exact hr
  | false =>
      rw [writeHeader_run hr.faults hw]
      cases hs : r.settledHeaders with
      | error e => exact hr
      | ok headers => exact ⟨(hr.toUnderway.sentHead hw hs).1, fun _ => rfl⟩

theorem stable_tracked : Stable (Tracked before) where
  unseen := Tracked.unseen
  writeHeader := tracked_writeHeader
  emit := tracked_emit .body
  flush := tracked_flush.and (keeps_onConn_streams _) |>.weaken (fun _ hr => hr) (fun _ _ hr => hr)
    fun _ _ hr => hr

theorem Tracked.streaming (h : Tracked before r) (keepalive : Bool) :
    Tracked before { r with keepalive := keepalive, streaming := true } := by
  obtain ⟨pieces, hlog, hopen, hsent⟩ := h.shows
  refine ⟨⟨h.faults, h.valid, h.flushed, pieces, hlog, hopen, fun hw => ?_⟩, h.written⟩
  obtain ⟨status, fields, body, hlines, hbytes, -⟩ := hsent hw
  exact ⟨status, fields, body, hlines, hbytes, fun hnot => absurd ⟨hw, .inr (.inr rfl)⟩ hnot⟩

/-- **No operation of a handler loses track of the response.** -/
theorem kept_tracked (before : List (Part × Bytes)) : Kept (Tracked before) :=
  stable_tracked.kept (fun _ hr => hr.streaming false) fun _ hr hs =>
    ⟨⟨hr.faults, hr.valid, hr.flushed, hr.shows⟩, fun _ => hs.1⟩

/-! ### What was sent -/

/-- A header block and this body were sent of the response. -/
def Carries (before : List (Part × Bytes)) (r : Response) (status : Status) (fields : List Bytes) (body : Bytes) :
    Prop :=
  ∃ pieces, r.conn.log = before ++ pieces ∧ (∀ line ∈ statusLine status :: fields, IsLine line) ∧
    finalOf pieces = headBlock (statusLine status :: fields) ++ body

/-- All that was sent of the response was handed over. -/
def HandedOver (before : List (Part × Bytes)) (r : Response) : Prop :=
  ∃ pieces later, r.conn.log = before ++ pieces ++ later ∧ finalOf later = [] ∧
    (bytesOf (before ++ pieces)).length ≤ r.conn.flushed

section carries
variable {status : Status} {fields : List Bytes} {body : Bytes}

theorem Underway.carries (h : Underway before r) (hw : r.headersWritten = true) :
    ∃ status fields body, Carries before r status fields body := by
  obtain ⟨pieces, hlog, -, hsent⟩ := h.shows
  obtain ⟨status, fields, body, hlines, hbytes, -⟩ := hsent hw
  exact ⟨status, fields, body, pieces, hlog, hlines, hbytes⟩

theorem Carries.unique (h : Carries before r status fields body) {status' : Status} {fields' : List Bytes}
    {body' : Bytes} (h' : Carries before r status' fields' body') :
    status' = status ∧ fields' = fields ∧ body' = body := by
  obtain ⟨pieces, hlog, hlines, hbytes⟩ := h
  obtain ⟨pieces', hlog', hlines', hbytes'⟩ := h'
  obtain rfl := List.append_cancel_left (hlog.symm.trans hlog')
  have hcut := cutHead_headBlock hlines body
  rw [← hbytes, hbytes', cutHead_headBlock hlines' body'] at hcut
  obtain ⟨hhead, hbody⟩ := Prod.mk.inj (Option.some.inj hcut)
  obtain ⟨hline, hfields⟩ := List.cons.inj hhead
  exact ⟨statusLine_inj hline, hfields, hbody⟩

theorem Carries.wrote (h : Carries before r status fields body) {part : Part} (hpart : part ≠ .interim)
    (bytes : Bytes) : Carries before (r.setConn (r.conn.wrote part bytes)) status fields (body ++ bytes) := by
  obtain ⟨pieces, hlog, hlines, hbytes⟩ := h
  refine ⟨pieces ++ [(part, bytes)], ?_, hlines, ?_⟩
  · show r.conn.log ++ _ = _
    rw [hlog, List.append_assoc]
  · rw [finalOf_append, finalOf_piece hpart, hbytes, List.append_assoc]

theorem Carries.handedOver (h : Carries before r status fields body) (hflushed : r.conn.flushed = r.conn.out.length) :
    HandedOver before r := by
  obtain ⟨pieces, hlog, -, -⟩ := h
  refine ⟨pieces, [], by rw [hlog, List.append_nil], rfl, ?_⟩
  rw [hflushed, ← hlog]
  exact Nat.le_refl _

/-- A whole body that was handed over makes a complete response. -/
theorem Carries.answered (h : Carries before r status fields body) (hwhole : r.Whole status fields body)
    (hhanded : HandedOver before r) : Answered before r := by
  obtain ⟨pieces, hlog, hlines, hbytes⟩ := h
  obtain ⟨pieces', later, hlog', hnone, hflushed⟩ := hhanded
  rw [hlog', List.append_assoc] at hlog
  obtain rfl := List.append_cancel_left hlog
  refine ⟨pieces', later, hlog', ⟨status, fields, body, ?_, hwhole⟩, hnone, hflushed⟩
  rw [finalOf_append, hnone, List.append_nil] at hbytes
  rw [hbytes]
  exact cutHead_headBlock hlines body

/-- **A response is complete** exactly if its body is whole and was handed over. -/
theorem Carries.answered_iff (h : Carries before r status fields body) :
    Answered before r ↔ r.Whole status fields body ∧ HandedOver before r := by
  refine ⟨fun hanswered => ?_, fun hcomplete => h.answered hcomplete.1 hcomplete.2⟩
  obtain ⟨pieces, hlog, hlines, hbytes⟩ := h
  obtain ⟨pieces', later, hlog', ⟨status', fields', body', hcut, hwhole⟩, hnone, hflushed⟩ := hanswered
  refine ⟨?_, pieces', later, hlog', hnone, hflushed⟩
  rw [hlog', List.append_assoc] at hlog
  obtain rfl := List.append_cancel_left hlog
  rw [finalOf_append, hnone, List.append_nil] at hbytes
  rw [hbytes, cutHead_headBlock hlines body] at hcut
  obtain ⟨hlines', rfl⟩ := Prod.mk.inj (Option.some.inj hcut)
  obtain ⟨hline, rfl⟩ := List.cons.inj hlines'
  rw [statusLine_inj hline]
  exact hwhole

end carries

/-! ### The server's `write` -/

section write
variable {status : Status} {fields : List Bytes} {body : Bytes}

/-- What the last `write` sends behind headers that were sent. -/
def leftover (self : Response) : Bytes :=
  if self.written || self.head then []
  else if self.chunked then lastChunk
  else if self.bodyWriterOpen then [] else self.bodyBytes

/-- The last `write` completes the response.  Its headers can still be sent, and what is buffered is the whole body; or
they were sent, and then what was sent of the body is whole with what is left, and was handed over if nothing is. -/
structure Completable (before : List (Part × Bytes)) (res : Response) : Prop where
  opens : res.headersWritten = false → res.chunked = false ∧ ∃ headers, res.settledHeaders = .ok headers ∧
    res.Whole res.status (res.setHeaders headers).fieldLines (if res.head then [] else res.bodyBytes)
  closes : res.headersWritten = true → ∃ status fields body,
    Carries before res status fields body ∧ res.Whole status fields (body ++ res.leftover)
  handed : res.written = true → HandedOver before res

/-! ### What is sent last -/

/-- The response goes on, and this is what was sent of it by then. -/
structure Sends (before : List (Part × Bytes)) (r r' : Response) (status : Status) (fields : List Bytes)
    (body : Bytes) : Prop where
  faults : r'.conn.faults = []
  head : r'.head = r.head
  carries : Carries before r' status fields body

theorem Sends.flush_run (h : Sends before r r' status fields body) :
    onConn Conn.flush r' = .ok () (r'.setConn r'.conn.flushedAll) ∧
      Sends before r (r'.setConn r'.conn.flushedAll) status fields body ∧
      HandedOver before (r'.setConn r'.conn.flushedAll) := by
  have hcarries : Carries before (r'.setConn r'.conn.flushedAll) status fields body := h.carries
  exact ⟨onConn_flush_run h.faults, ⟨h.faults, h.head, hcarries⟩, hcarries.handedOver rfl⟩

/-- What was sent is complete exactly if it is a whole body. -/
theorem Sends.answered_iff (h : Sends before r r' status fields body) (hhanded : HandedOver before r') :
    Answered before r' ↔ r.Whole status fields body := by
  rw [h.carries.answered_iff, whole_congr h.head]
  exact and_iff_left hhanded

theorem Sends.terminator (h : Sends before r r' status fields body) {s : Response} (hs : s.head = r.head) :
    ∃ r'', writeTerminator s r' = .ok () r'' ∧
      Sends before r r'' status fields (body ++ if r.head then [] else lastChunk) := by
  unfold writeTerminator
  rw [hs]
  cases r.head with
  | true =>
      rw [if_pos rfl, List.append_nil]
      exact ⟨r', rfl, h⟩
  | false =>
      exact ⟨_, onConn_writeAll_run h.faults .body lastChunk, h.faults, h.head,
        h.carries.wrote (by decide) lastChunk⟩

theorem Sends.buffered (h : Sends before r r' status fields body) :
    ∃ r'', (do Act.when (!r'.head) (writeBody r'); onConn Conn.flush : Act Response Unit) r' = .ok () r'' ∧
      Sends before r r'' status fields (body ++ if r.head then [] else r'.bodyBytes) ∧ HandedOver before r'' := by
  rw [h.head]
  cases r.head with
  | true =>
      obtain ⟨hrun, hsent⟩ := h.flush_run
      rw [Bool.not_true, when_false, bind_ok (pure_run ..), if_pos rfl, List.append_nil]
      exact ⟨_, hrun, hsent⟩
  | false =>
      have hbody : Sends before r (r'.setConn (r'.conn.wrote .body r'.bodyBytes)) status fields
          (body ++ r'.bodyBytes) :=
        ⟨h.faults, h.head, h.carries.wrote (by decide) _⟩
      obtain ⟨hrun, hsent⟩ := hbody.flush_run
      rw [Bool.not_false, when_true, show writeBody r' = onConn (Conn.writeAll .body r'.bodyBytes) from rfl,
        bind_ok (onConn_writeAll_run h.faults .body r'.bodyBytes)]
      exact ⟨_, hrun, hsent⟩

/-- What is left to send for a body writer that was left open. -/
theorem settleAbandoned_sends (h : Sends before r r.closeBody status fields body) :
    ∃ s, settleAbandoned r r.closeBody = .ok () s ∧
      Sends before r s status fields (body ++ if r.head then [] else if r.chunked then lastChunk else []) := by
  unfold settleAbandoned
  cases r.chunked with
  | true => exact h.terminator rfl
  | false =>
      have hnone : body ++ (if r.head then [] else if false then lastChunk else []) = body := by
        cases r.head <;> exact List.append_nil body
      rw [if_neg (by decide), hnone]
      cases r.contentLength with
      | none => exact ⟨r.closeBody, rfl, h⟩
      | some declared =>
          dsimp only
          cases r.bodySent != declared with
          | true => exact ⟨r.closeBody.noKeepalive, rfl, h.faults, h.head, h.carries⟩
          | false => exact ⟨r.closeBody, rfl, h⟩

theorem finishAbandoned_sends (h : Sends before r r.closeBody status fields body) :
    ∃ r', finishAbandoned r r.closeBody = .ok () r' ∧
      Sends before r r' status fields (body ++ if r.head then [] else if r.chunked then lastChunk else []) ∧
      HandedOver before r' := by
  obtain ⟨s, hsettle, hs⟩ := settleAbandoned_sends h
  obtain ⟨hflush, hsent, hhanded⟩ := hs.flush_run
  refine ⟨(s.setConn s.conn.flushedAll).markWritten, ?_,
    ⟨hsent.faults, hsent.head, hsent.carries⟩, hhanded⟩
  unfold finishAbandoned
  rw [bind_ok hsettle, bind_ok hflush]
  rfl

theorem finishBuffered_sends (h : Sends before r r.markWritten status fields body) (hw : r.headersWritten = true) :
    ∃ r', finishBuffered r = .ok () r' ∧
      Sends before r r' status fields (body ++ if r.head then [] else if r.chunked then lastChunk else r.bodyBytes) ∧
      HandedOver before r' := by
  unfold finishBuffered
  rw [bind_ok (modify_run ..), bind_ok (get_run _), show r.markWritten.chunked = r.chunked from rfl]
  cases r.chunked with
  | true =>
      obtain ⟨s, hterm, hs⟩ := h.terminator (s := r.markWritten) rfl
      obtain ⟨hflush, hsent⟩ := hs.flush_run
      rw [if_pos rfl, bind_ok hterm]
      exact ⟨_, hflush, hsent⟩
  | false =>
      rw [if_neg (by decide), bind_ok (@writeHeader_done r.markWritten hw), bind_ok (get_run _)]
      exact h.buffered

/-- **Behind headers that were sent**, the last `write` sends what is left. -/
theorem write_sends (hwritten : r.written = false) (hw : r.headersWritten = true) (hfaults : r.conn.faults = [])
    (hc : Carries before r status fields body) :
    ∃ r', write r = .ok () r' ∧ Sends before r r' status fields (body ++ r.leftover) ∧ HandedOver before r' := by
  unfold write leftover
  rw [bind_ok (get_run r), hwritten, if_neg Bool.false_ne_true, Bool.false_or]
  cases hopen : r.bodyWriterOpen with
  | true =>
      rw [if_pos rfl, bind_ok (modify_run ..), if_pos hw]
      exact finishAbandoned_sends ⟨hfaults, rfl, hc⟩
  | false =>
      rw [if_neg Bool.false_ne_true]
      exact finishBuffered_sends ⟨hfaults, rfl, hc⟩ hw

/-- **Headers that can still be sent** are sent with what is buffered. -/
theorem write_opens (h : Tracked before r) (hw : r.headersWritten = false) (hchunked : r.chunked = false)
    {headers : Headers} (hs : r.settledHeaders = .ok headers) :
    ∃ r', write r = .ok () r' ∧ Sends before r r' r.status (r.setHeaders headers).fieldLines
      (if r.head then [] else r.bodyBytes) ∧ HandedOver before r' := by
  have hmark : Underway before r.closeBody.markWritten := ⟨h.faults, h.valid, h.flushed, h.shows⟩
  obtain ⟨hunder, pieces, hlog, hfinal⟩ := @Underway.sentHead before r.closeBody.markWritten hmark hw headers hs
  have hrun := @writeHeader_run r.closeBody.markWritten h.faults hw
  rw [show r.closeBody.markWritten.settledHeaders = .ok headers from hs] at hrun
  have hcarries : Carries before (r.closeBody.markWritten.setHeaders headers).sentHead r.status
      (r.setHeaders headers).fieldLines [] := by
    have hlines := @isLine_headLines (r.setHeaders headers) (settledHeaders_valid h.valid hs)
    refine ⟨pieces, hlog, hlines, ?_⟩
    rw [hfinal, List.append_nil]
    rfl
  have hsends : Sends before r (r.closeBody.markWritten.setHeaders headers).sentHead r.status
      (r.setHeaders headers).fieldLines [] := ⟨hunder.faults, rfl, hcarries⟩
  rw [write_open (h.open hw) hw]
  unfold finishBuffered
  rw [bind_ok (modify_run ..), bind_ok (get_run _),
    if_neg (show ¬r.closeBody.markWritten.chunked = true by simp [markWritten, closeBody, hchunked]), bind_ok hrun,
    bind_ok (get_run _)]
  exact hsends.buffered

/-! ### What cannot be completed -/

/-- What was sent of a response that is complete starts with a status line. -/
theorem Answered.cut (h : Answered before r) {pieces : List (Part × Bytes)} (hlog : r.conn.log = before ++ pieces) :
    ∃ status fields body, cutHead (finalOf pieces) = some (statusLine status :: fields, body) := by
  obtain ⟨pieces', later, hlog', ⟨status, fields, body, hcut, -⟩, hnone, -⟩ := h
  have hpieces : pieces = pieces' ++ later := by
    rw [hlog', List.append_assoc] at hlog
    exact (List.append_cancel_left hlog).symm
  refine ⟨status, fields, body, ?_⟩
  rw [hpieces, finalOf_append, hnone, List.append_nil]
  exact hcut

theorem unanswered_empty {pieces : List (Part × Bytes)} (hlog : r.conn.log = before ++ pieces)
    (hnone : finalOf pieces = []) : ¬Answered before r := by
  intro h
  obtain ⟨status, fields, body, hcut⟩ := h.cut hlog
  rw [hnone] at hcut
  cases hcut

theorem unanswered_lastChunk {pieces : List (Part × Bytes)} (hlog : r.conn.log = before ++ pieces)
    (hlast : finalOf pieces = lastChunk) : ¬Answered before r := by
  intro h
  obtain ⟨status, fields, body, hcut⟩ := h.cut hlog
  have hread : cutHead lastChunk = some ([[48]], []) := by decide
  rw [hlast, hread] at hcut
  injection hcut with hcut
  injection hcut with hlines _
  injection hlines with hline _
  have hstatus : statusLine status = 72 :: (statusLine status).tail := rfl
  rw [hstatus] at hline
  cases hline

/-- Only the last chunk of a body is sent whose headers never were. -/
theorem finishBuffered_leftover (h : Underway before r) (hw : r.headersWritten = false) (hchunked : r.chunked = true) :
    ¬Answered before (final finishBuffered r) := by
  obtain ⟨pieces, hlog, hopen, -⟩ := h.shows
  have hmark : Underway before r.markWritten := ⟨h.faults, h.valid, h.flushed, h.shows⟩
  unfold finishBuffered
  rw [final_bind_ok (modify_run ..), final_bind_ok (get_run _), if_pos (show r.markWritten.chunked = true from hchunked)]
  cases hhead : r.head with
  | true =>
      have hterm : writeTerminator r.markWritten = pure () := by
        simp [writeTerminator, markWritten, hhead]
      rw [hterm, final_bind_ok (pure_run ..), final_of_ok (onConn_flush_run hmark.faults)]
      exact unanswered_empty hlog (hopen hw)
  | false =>
      have hterm : writeTerminator r.markWritten = onConn (Conn.writeAll .body lastChunk) := by
        simp only [writeTerminator, markWritten, hhead, Bool.not_false, when_true]
        rfl
      obtain ⟨hrun, hg⟩ := hmark.wrote_run .body lastChunk
      rw [hterm, final_bind_ok hrun,
        final_of_ok (@onConn_flush_run (r.markWritten.setConn (r.markWritten.conn.wrote .body lastChunk)) hg.faults)]
      have hlog' : r.conn.log ++ [(.body, lastChunk)] = before ++ (pieces ++ [(.body, lastChunk)]) := by
        rw [hlog, List.append_assoc]
      refine unanswered_lastChunk hlog' ?_
      rw [finalOf_append, hopen hw, finalOf_piece (by decide)]
      rfl

/-- Nothing is sent where the header block cannot be put together. -/
theorem finishBuffered_refused (h : Underway before r) (hw : r.headersWritten = false) (hchunked : r.chunked = false)
    {e : Error} (hs : r.settledHeaders = .error e) : ¬Answered before (final finishBuffered r) := by
  obtain ⟨pieces, hlog, hopen, -⟩ := h.shows
  obtain ⟨r', hrun, hconn, -⟩ := finishBuffered_error h.faults hchunked hw hs
  rw [final_of_error hrun]
  exact unanswered_empty (hconn ▸ hlog) (hopen hw)

/-! ### When it is completed -/

theorem Tracked.answered_iff (h : Tracked before r) (hwritten : r.written = true) :
    Answered before r ↔ Completable before r := by
  have hw := h.written hwritten
  obtain ⟨status, fields, body, hcarries⟩ := h.toUnderway.carries hw
  have hnone : body ++ r.leftover = body := by
    unfold leftover
    rw [hwritten, Bool.true_or, if_pos rfl, List.append_nil]
  rw [hcarries.answered_iff]
  constructor
  · rintro ⟨hwhole, hhanded⟩
    exact ⟨fun hopen => (by cases hopen.symm.trans hw),
      fun _ => ⟨status, fields, body, hcarries, hnone.symm ▸ hwhole⟩, fun _ => hhanded⟩
  · intro hc
    obtain ⟨status', fields', body', hcarries', hwhole⟩ := hc.closes hw
    obtain ⟨rfl, rfl, rfl⟩ := hcarries.unique hcarries'
    rw [hnone] at hwhole
    exact ⟨hwhole, hc.handed hwritten⟩

theorem Tracked.opens_iff (h : Tracked before r) (hw : r.headersWritten = false) :
    Answered before (final write r) ↔ Completable before r := by
  have hclose : Underway before r.closeBody :=
    h.toUnderway.unseen ⟨rfl, rfl, rfl, rfl, rfl, id, fun _ => rfl, fun _ => ⟨rfl, rfl⟩⟩
  have hbuffered : final write r = final finishBuffered r.closeBody := by
    unfold final
    rw [write_open (h.open hw) hw]
  cases hchunked : r.chunked with
  | true =>
      rw [hbuffered]
      refine iff_of_false (finishBuffered_leftover hclose hw hchunked) fun hc => ?_
      cases hchunked.symm.trans (hc.opens hw).1
  | false =>
      cases hs : r.settledHeaders with
      | error e =>
          rw [hbuffered]
          refine iff_of_false (finishBuffered_refused hclose hw hchunked hs) fun hc => ?_
          obtain ⟨-, headers, hsettled, -⟩ := hc.opens hw
          cases hs.symm.trans hsettled
      | ok headers =>
          obtain ⟨r', hrun, hsends, hhanded⟩ := write_opens h hw hchunked hs
          rw [final_of_ok hrun, hsends.answered_iff hhanded]
          constructor
          · intro hwhole
            exact ⟨fun _ => ⟨hchunked, headers, hs, hwhole⟩, fun hsent => (by cases hsent.symm.trans hw),
              fun hwritten => (by cases hwritten.symm.trans (h.open hw))⟩
          · intro hc
            obtain ⟨-, headers', hsettled, hwhole⟩ := hc.opens hw
            cases hs.symm.trans hsettled
            exact hwhole

theorem Tracked.closes_iff (h : Tracked before r) (hwritten : r.written = false) (hw : r.headersWritten = true) :
    Answered before (final write r) ↔ Completable before r := by
  obtain ⟨status, fields, body, hcarries⟩ := h.toUnderway.carries hw
  obtain ⟨r', hrun, hsends, hhanded⟩ := write_sends hwritten hw h.faults hcarries
  rw [final_of_ok hrun, hsends.answered_iff hhanded]
  constructor
  · intro hwhole
    exact ⟨fun hopen => (by cases hopen.symm.trans hw), fun _ => ⟨status, fields, body, hcarries, hwhole⟩,
      fun hsent => (by cases hsent.symm.trans hwritten)⟩
  · intro hc
    obtain ⟨status', fields', body', hcarries', hwhole⟩ := hc.closes hw
    obtain ⟨rfl, rfl, rfl⟩ := hcarries.unique hcarries'
    exact hwhole

/-- **When the last `write` completes a response.** -/
theorem write_answers_iff (h : Tracked before r) : Answered before (final write r) ↔ Completable before r := by
  cases hwritten : r.written with
  | true =>
      have hsame : write r = .ok () r := by
        rw [write, bind_ok (get_run r), if_pos hwritten]
        rfl
      rw [final_of_ok hsame]
      exact h.answered_iff hwritten
  | false =>
      cases hw : r.headersWritten with
      | false => exact h.opens_iff hw
      | true => exact h.closes_iff hwritten hw

/-- **What the last `write` can fail with**: the header block cannot be put together, and nothing is sent. -/
theorem write_error (h : Tracked before r) {f : Fault} (hrun : write r = .error f r') :
    r.headersWritten = false ∧ r'.conn = r.conn ∧ ∃ e, f = .err e ∧ r.settledHeaders = .error e := by
  have hclose : Underway before r.closeBody :=
    h.toUnderway.unseen ⟨rfl, rfl, rfl, rfl, rfl, id, fun _ => rfl, fun _ => ⟨rfl, rfl⟩⟩
  cases hw : r.headersWritten with
  | false =>
      rw [write_open (h.open hw) hw] at hrun
      cases hchunked : r.chunked with
      | true =>
          obtain ⟨s, hok, -⟩ := @finishBuffered_chunked r.closeBody hclose.faults hchunked
          cases hok.symm.trans hrun
      | false =>
          refine ⟨rfl, ?_⟩
          cases hs : r.settledHeaders with
          | ok headers =>
              obtain ⟨s, hok, -⟩ := write_opens h hw hchunked hs
              cases ((write_open (h.open hw) hw).symm.trans hok).symm.trans hrun
          | error e =>
              obtain ⟨s, herror, hconn, -⟩ := @finishBuffered_error r.closeBody hclose.faults hchunked hw e hs
              cases herror.symm.trans hrun
              exact ⟨hconn, e, rfl, rfl⟩
  | true =>
      exfalso
      cases hwritten : r.written with
      | true =>
          rw [write, bind_ok (get_run r), if_pos hwritten] at hrun
          cases hrun
      | false =>
          obtain ⟨status, fields, body, hcarries⟩ := h.toUnderway.carries hw
          obtain ⟨s, hok, -⟩ := write_sends hwritten hw h.faults hcarries
          cases hok.symm.trans hrun

end write
end Response
end Dusty
