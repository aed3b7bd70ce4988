import Dusty.Framing
import Dusty.Hoare
import Dusty.Handler

/-! # What the response functions do on a working transport

One equation for each function that writes, under the hypothesis that no operation of the
connection fails (`faults = []`), and the facts every operation of a handler keeps: all stored
fields are valid, and as long as the headers are open nothing was sent and nothing was
promised. -/

namespace Dusty

/-- The connection after some lines of a header block. -/
def Conn.wroteLines (c : Conn) (lines : List Bytes) : Conn :=
  lines.foldl (fun c line => c.wrote .head (line ++ crlf)) c

namespace Conn

@[simp] theorem wroteLines_nil (c : Conn) : c.wroteLines [] = c := rfl

theorem wroteLines_cons (c : Conn) (line : Bytes) (lines : List Bytes) :
    c.wroteLines (line :: lines) = (c.wrote .head (line ++ crlf)).wroteLines lines := rfl

theorem wroteLines_append (c : Conn) (lines lines' : List Bytes) :
    c.wroteLines (lines ++ lines') = (c.wroteLines lines).wroteLines lines' := by
  simp [wroteLines]

@[simp] theorem faults_wroteLines (c : Conn) (lines : List Bytes) :
    (c.wroteLines lines).faults = c.faults := by
  induction lines generalizing c with
  | nil => rfl
  | cons line lines ih => rw [wroteLines_cons, ih, faults_wrote]

theorem out_wroteLines (c : Conn) (lines : List Bytes) :
    (c.wroteLines lines).out = c.out ++ lines.flatMap fun line => line ++ crlf := by
  induction lines generalizing c with
  | nil => simp
  | cons line lines ih => simp [wroteLines_cons, ih]

theorem out_wroteLines_block (c : Conn) (lines : List Bytes) :
    (c.wroteLines (lines ++ [[]])).out = c.out ++ headBlock lines := by
  simp [out_wroteLines, headBlock]

end Conn

namespace Response

/-! ### Header fields -/

theorem header_run {self : Response} (name value : Bytes) (hw : self.headersWritten = false)
    (hn : validHeaderName name = true) (hv : validHeaderValue value = true) :
    header name value self = match self.headers.put name value with
      | .error e => .error (.err e) self
      | .ok headers => .ok () (self.setHeaders headers) := by
  unfold header
  rw [Act.bind_ok (Act.get_run self)]
  rw [if_neg (by simp [hw]), if_neg (by simp [hn]), if_neg (by simp [hv])]
  cases self.headers.put name value <;> rfl

/-- The headers `writeHeader` sends: the content type goes in first. -/
def settledHeaders (self : Response) : Except Error Headers :=
  match self.contentType with
  | some contentType => self.headers.put (ascii "Content-Type") contentType.toContentType
  | none => .ok self.headers

theorem putContentType_run {self : Response} (hw : self.headersWritten = false) :
    putContentType self = match self.settledHeaders with
      | .error e => .error (.err e) self
      | .ok headers => .ok () (self.setHeaders headers) := by
  unfold putContentType settledHeaders
  rw [Act.bind_ok (Act.get_run self)]
  cases self.contentType with
  | none => rfl
  | some contentType => exact header_run _ _ hw (by decide) (toContentType_valid contentType)

/-! ### Writing and flushing -/

theorem onConn_flush_run {self : Response} (h : self.conn.faults = []) :
    onConn Conn.flush self = .ok () (self.setConn self.conn.flushedAll) := by
  simp only [onConn, Act.zoom, Conn.flush_run h]

theorem onConn_writeAll_run {self : Response} (h : self.conn.faults = []) (part : Part)
    (bytes : Bytes) :
    onConn (Conn.writeAll part bytes) self = .ok () (self.setConn (self.conn.wrote part bytes)) := by
  simp only [onConn, Act.zoom, Conn.writeAll_run h]

/-! ### The header block -/

/-- The response with lines of its header block written. -/
def wroteLines (self : Response) (lines : List Bytes) : Response :=
  self.setConn (self.conn.wroteLines lines)

theorem writeLine_run {self : Response} (h : self.conn.faults = []) (line : Bytes) :
    writeLine line self = .ok () (self.wroteLines [line]) := by
  simp [writeLine, onConn, Act.zoom, Conn.writeAll_run h, wroteLines, Conn.wroteLines]

theorem faults_wroteLines {self : Response} (h : self.conn.faults = []) (lines : List Bytes) :
    (self.wroteLines lines).conn.faults = [] := by
  simp [wroteLines, setConn, h]

theorem wroteLines_append (self : Response) (lines lines' : List Bytes) :
    (self.wroteLines lines).wroteLines lines' = self.wroteLines (lines ++ lines') := by
  simp [wroteLines, setConn, Conn.wroteLines_append]

/-- The line of a stored field. -/
def entryLine (entry : HeaderEntry) : Bytes := fieldLine entry.key entry.value

theorem writeFields_run (entries : List HeaderEntry) {self : Response}
    (h : self.conn.faults = []) :
    writeFields entries self = .ok () (self.wroteLines (entries.map entryLine)) := by
  induction entries generalizing self with
  | nil => rfl
  | cons entry rest ih =>
      rw [writeFields, Act.bind_ok (writeLine_run h _), ih (faults_wroteLines h _),
        wroteLines_append]
      rfl

/-- The line that says how the body is framed, if there is one. -/
def framingLines (self : Response) : List Bytes :=
  if self.chunked then [ascii "Transfer-Encoding: chunked"]
  else if self.streaming then []
  else if (self.headers.get (ascii "Content-Length")).isNone then
    [fieldLine (ascii "Content-Length") (fmtNat 10 self.bodyLength)]
  else []

theorem writeFraming_run (promise : Response) {self : Response} (h : self.conn.faults = []) :
    writeFraming promise self = .ok () (self.wroteLines promise.framingLines) := by
  unfold writeFraming framingLines
  cases promise.chunked with
  | true => exact writeLine_run h _
  | false =>
      cases promise.streaming with
      | true => rfl
      | false =>
          simp only [Bool.false_eq_true, if_false, Bool.not_false, if_true]
          split
          · exact writeLine_run h _
          · rfl

/-- The lines of the header block. -/
def headLines (self : Response) : List Bytes :=
  statusLine self.status :: self.headers.entries.map entryLine
    ++ (if self.keepalive then [] else [ascii "Connection: close"]) ++ self.framingLines

/-- The response with its header block written. -/
def sentHead (self : Response) : Response :=
  { self with headersWritten := true, conn := self.conn.wroteLines (self.headLines ++ [[]]) }

theorem writeHeader_done {self : Response} (hw : self.headersWritten = true) :
    writeHeader self = .ok () self := by
  unfold writeHeader
  rw [Act.bind_ok (Act.get_run self), if_pos hw]
  rfl

/-- **What `writeHeader` does** on a working transport. -/
theorem writeHeader_run {self : Response} (h : self.conn.faults = [])
    (hw : self.headersWritten = false) :
    writeHeader self = match self.settledHeaders with
      | .error e => .error (.err e) self
      | .ok headers => .ok () (self.setHeaders headers).sentHead := by
  unfold writeHeader
  rw [Act.bind_ok (Act.get_run self), if_neg (by simp [hw])]
  have hput := putContentType_run hw
  cases hs : self.settledHeaders with
  | error e =>
      rw [hs] at hput
      exact Act.bind_error hput
  | ok headers =>
      rw [hs] at hput
      rw [Act.bind_ok hput, Act.bind_ok (Act.modify_run ..), Act.bind_ok (Act.get_run _)]
      let r : Response := { self.setHeaders headers with headersWritten := true }
      have hr : r.conn.faults = [] := h
      have hr₁ := faults_wroteLines hr [statusLine r.status]
      have hr₂ := faults_wroteLines hr₁ (r.headers.entries.map entryLine)
      rw [Act.bind_ok (writeLine_run hr _), Act.bind_ok (writeFields_run _ hr₁)]
      have hclose : Act.when (!r.keepalive) (writeLine (ascii "Connection: close"))
          ((r.wroteLines [statusLine r.status]).wroteLines (r.headers.entries.map entryLine)) =
          .ok () (((r.wroteLines [statusLine r.status]).wroteLines
            (r.headers.entries.map entryLine)).wroteLines
              (if r.keepalive then [] else [ascii "Connection: close"])) := by
        cases r.keepalive with
        | true => rfl
        | false => exact writeLine_run hr₂ _
      have hr₃ := faults_wroteLines hr₂ (if r.keepalive then [] else [ascii "Connection: close"])
      have hr₄ := faults_wroteLines hr₃ r.framingLines
      rw [Act.bind_ok hclose, Act.bind_ok (writeFraming_run r hr₃), writeLine_run hr₄]
      simp only [wroteLines_append]
      rfl

end Response
end Dusty
