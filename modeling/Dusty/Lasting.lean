import Dusty.Answered
import Dusty.HandlerSteps

/-! # What lasts to the end of a response

The header fields of a response change through a few doors only, and `keepalive`, once it is off, is put back on by
nobody but a handler that assigns it.  A property that depends on these two alone is `Lasting` when it survives what the
library itself does to them; then it lasts through every step that does not go through one of the doors a handler has
(`Spared`), through the executor, the drain and the last `write`. -/

namespace Dusty

open Act

/-- An action on a part keeps what it keeps of the part. -/
theorem Act.keeps_zoom_part {σ τ α : Type} {g : τ → σ} {put : σ → τ → τ} (hput : ∀ s t, g (put s t) = s)
    {P : σ → Prop} {x : Act σ α} (h : Keeps P x) : Keeps (fun t => P (g t)) (zoom g put x) :=
  keeps_zoom fun t ht => h.weaken (fun _ hs => hs ▸ ht) (fun _ s hs => by rw [hput]; exact hs)
    fun _ s hs => by rw [hput]; exact hs

namespace Response

/-- The fields the library sets by itself. -/
def ownFields : List Bytes :=
  [ascii "Content-Type", ascii "Cache-Control", ascii "Upgrade", ascii "Connection", ascii "Sec-WebSocket-Accept"]

/-- What an assignment to another field leaves as it is; `keepalive` may be put off. -/
structure Aside (r r' : Response) : Prop where
  conn : r'.conn = r.conn
  headersWritten : r'.headersWritten = r.headersWritten
  headers : r'.headers = r.headers
  keepalive : r.keepalive = false → r'.keepalive = false

/-- A handler may set this field. -/
def Settable (P : Response → Prop) (name : Bytes) : Prop :=
  ∀ r value headers, P r → r.headersWritten = false → r.headers.put name value = .ok headers → P (r.setHeaders headers)

/-- The property survives what the library does to a response by itself. -/
structure Lasting (P : Response → Prop) : Prop where
  aside : ∀ {r r' : Response}, P r → Aside r r' → P r'
  settable : ∀ name ∈ ownFields, Settable P name
  addCookie : ∀ {r : Response} {value : Bytes} {headers : Headers}, P r → r.headersWritten = false →
    r.headers.add (ascii "Set-Cookie") value = .ok headers → P (r.setHeaders headers)
  remove : ∀ {r : Response}, P r → r.headersWritten = false → P (r.setHeaders ((r.headers.remove
    (ascii "Content-Type")).1.remove (ascii "Content-Length")).1)
  writeHeader : Keeps P Response.writeHeader
  emit : ∀ part bytes, Keeps P (onConn (Conn.writeAll part bytes))
  flush : Keeps P (onConn Conn.flush)

namespace Lasting

variable {P : Response → Prop} (h : Lasting P)
include h

theorem assign {f : Response → Response} (hf : ∀ r, Aside r (f r)) : Keeps P (modify f) :=
  keeps_modify fun r hr => h.aside hr (hf r)

omit h in
theorem header {name : Bytes} (hname : Settable P name) (value : Bytes) : Keeps P (Response.header name value) := by
  refine triple_get_bind fun r => ?_
  split
  · exact triple_fail fun _ hs => hs.1
  split
  · exact triple_fail fun _ hs => hs.1
  split
  · exact triple_fail fun _ hs => hs.1
  · next hopen _ _ =>
      cases hput : r.headers.put name value with
      | error e => exact triple_fail fun _ hs => hs.1
      | ok headers =>
          refine triple_modify fun s ⟨hs, hsr⟩ => ?_
          subst hsr
          exact hname s value headers hs (Bool.eq_false_iff.mpr hopen) hput

theorem setCookie (name value : Bytes) (opts : CookieOpts) : Keeps P (Response.setCookie name value opts) := by
  refine triple_get_bind fun r => ?_
  split
  · exact triple_fail fun _ hs => hs.1
  · next hopen =>
      refine Triple.bind (Triple.weaken (keeps_serializeCookie (P := fun s => P s ∧ s = r) name value opts)
        (fun _ hs => hs) (fun _ _ hs => hs) fun _ _ hs => hs.1) fun serialized => ?_
      split
      · exact triple_fail fun _ hs => hs.1
      · cases hadd : r.headers.add (ascii "Set-Cookie") serialized with
        | error e => exact triple_fail fun _ hs => hs.1
        | ok headers =>
            refine triple_modify fun s ⟨hs, hsr⟩ => ?_
            subst hsr
            exact h.addCookie hs (Bool.eq_false_iff.mpr hopen) hadd

/-! ### The body -/

theorem startBody : Keeps P Response.startBody :=
  keeps_get_bind fun _ _ => (keeps_assert _).bind fun _ => (keeps_assert _).bind fun _ => (keeps_assert _).bind fun _ =>
    h.assign fun _ => ⟨rfl, rfl, rfl, id⟩

theorem bodyWrite (bytes : Bytes) : Keeps P (Response.bodyWrite bytes) := h.assign fun _ => ⟨rfl, rfl, rfl, id⟩

theorem bodyEnd : Keeps P Response.bodyEnd := by
  refine keeps_get_bind fun r _ => ?_
  split
  · exact keeps_pure _
  · exact h.assign fun _ => ⟨rfl, rfl, rfl, id⟩

theorem clearWriter : Keeps P Response.clearWriter := h.assign fun _ => ⟨rfl, rfl, rfl, id⟩

theorem resetBody : Keeps P Response.resetBody := by
  refine triple_get_bind fun r => ?_
  refine Triple.bind (triple_assert (Q := fun _ s => P s ∧ s.headersWritten = false)
    (fun s hs hopen => ⟨hs.1, by rw [hs.2]; simpa using hopen⟩) fun _ hs => hs.1) fun _ => ?_
  refine Triple.bind (Q := fun _ s => P s ∧ s.headersWritten = false)
    (triple_modify fun s hs => ⟨h.aside hs.1 ⟨rfl, rfl, rfl, id⟩, hs.2⟩) fun _ => ?_
  exact triple_modify fun s hs => h.aside (h.remove hs.1 hs.2) ⟨rfl, rfl, rfl, id⟩

theorem json (text : Bytes) : Keeps P (Response.json text) :=
  (h.bodyWrite text).bind fun _ => header (h.settable _ (by decide)) _

theorem stream : Keeps P Response.stream := by
  refine h.startBody.bind fun _ => Keeps.bind ?_ fun _ => h.writeHeader
  refine keeps_get_bind fun r _ => ?_
  split
  · split
    · exact h.assign fun _ => ⟨rfl, rfl, rfl, id⟩
    · exact keeps_fail _
  · exact h.assign fun _ => ⟨rfl, rfl, rfl, id⟩

theorem startEventStream : Keeps P Response.startEventStream :=
  (header (h.settable _ (by decide)) _).bind fun _ => (header (h.settable _ (by decide)) _).bind fun _ =>
    Keeps.bind (h.assign fun _ => ⟨rfl, rfl, rfl, fun _ => rfl⟩) fun _ => h.writeHeader.bind fun _ => h.flush.bind fun _ =>
      keeps_get_bind fun _ _ => keeps_pure _

/-! ### Finishing -/

theorem writeTerminator (r : Response) : Keeps P (Response.writeTerminator r) := (h.emit _ _).when _

theorem finishAbandoned (r : Response) : Keeps P (Response.finishAbandoned r) := by
  have hsettle : Keeps P (settleAbandoned r) := by
    unfold settleAbandoned
    split
    · exact h.writeTerminator r
    · split
      · exact (h.assign (f := noKeepalive) fun _ => ⟨rfl, rfl, rfl, fun _ => rfl⟩).when _
      · exact keeps_pure _
  exact hsettle.bind fun _ => h.flush.bind fun _ => h.assign fun _ => ⟨rfl, rfl, rfl, id⟩

theorem finishBuffered : Keeps P Response.finishBuffered := by
  refine Keeps.bind (h.assign fun _ => ⟨rfl, rfl, rfl, id⟩) fun _ => keeps_get_bind fun r _ => ?_
  split
  · exact (h.writeTerminator r).bind fun _ => h.flush
  · exact h.writeHeader.bind fun _ => keeps_get_bind fun r _ => ((h.emit _ _).when _).bind fun _ => h.flush

theorem write : Keeps P Response.write := by
  refine keeps_get_bind fun r _ => ?_
  split
  · exact keeps_pure _
  split
  · refine Keeps.bind (h.assign fun _ => ⟨rfl, rfl, rfl, id⟩) fun _ => ?_
    split
    · exact h.finishAbandoned r
    · exact h.finishBuffered
  · exact h.finishBuffered

theorem handleNotFound : Keeps P Executor.handleNotFound :=
  keeps_get_bind fun _ _ => (h.resetBody.when _).bind fun _ => h.assign fun _ => ⟨rfl, rfl, rfl, id⟩

theorem handleError : Keeps P Executor.handleError :=
  h.resetBody.bind fun _ => h.assign fun _ => ⟨rfl, rfl, rfl, id⟩

theorem acceptUpgrade (key : Bytes) : Keeps P (Exchange.acceptUpgrade key) :=
  Keeps.bind (h.assign fun _ => ⟨rfl, rfl, rfl, id⟩) fun _ => (header (h.settable _ (by decide)) _).bind fun _ =>
    (header (h.settable _ (by decide)) _).bind fun _ => (header (h.settable _ (by decide)) _).bind fun _ =>
      Keeps.bind (h.assign fun _ => ⟨rfl, rfl, rfl, id⟩) fun _ => h.writeHeader.bind fun _ => h.flush

/-- A call on a WebSocket writes frames to the connection. -/
theorem survives (res : Response) : WebSocket.Survives fun w => P (res.setConn w.conn) := by
  have hconn : ∀ {x : Act Conn Unit}, Keeps P (onConn x) → Keeps (fun c => P (res.setConn c)) x := by
    intro x hx c hc
    cases hrun : x c with
    | ok a c' =>
        have honConn : onConn x (res.setConn c) = .ok a (res.setConn c') := by
          simp only [onConn, zoom, setConn_conn, hrun]
          rfl
        exact hx.ok hc honConn
    | error f c' =>
        have honConn : onConn x (res.setConn c) = .error f (res.setConn c') := by
          simp only [onConn, zoom, setConn_conn, hrun]
          rfl
        exact hx.error hc honConn
  exact WebSocket.survives_of_conn (fun bytes => hconn (h.emit .frame bytes)) (hconn h.flush)

end Lasting

/-! ### Properties of the fields -/

/-- A property of the header fields and of `keepalive`, which survives what the library does to them. -/
structure Fieldwise (P : Response → Prop) : Prop where
  aside : ∀ {r r' : Response}, P r → r'.headers = r.headers → (r.keepalive = false → r'.keepalive = false) → P r'
  settable : ∀ name ∈ ownFields, Settable P name
  addCookie : ∀ {r : Response} {value : Bytes} {headers : Headers}, P r →
    r.headers.add (ascii "Set-Cookie") value = .ok headers → P (r.setHeaders headers)
  remove : ∀ {r : Response}, P r → P (r.setHeaders ((r.headers.remove (ascii "Content-Type")).1.remove
    (ascii "Content-Length")).1)

/-- Once the headers are written, the line is one of those written since. -/
def Announces (before : List (Part × Bytes)) (line : Bytes) (r : Response) : Prop :=
  ∃ pieces, r.conn.log = before ++ pieces ∧ (r.headersWritten = true → (.head, line ++ crlf) ∈ pieces)

/-- On a transport that works, the response has the property and the line of its header block that goes with it. -/
structure Bears (P : Response → Prop) (before : List (Part × Bytes)) (line : Bytes) (r : Response) : Prop where
  faults : r.conn.faults = []
  holds : P r
  announces : Announces before line r

section fieldwise
variable {P : Response → Prop} (h : Fieldwise P)
include h

theorem Fieldwise.lasting : Lasting P where
  aside hr hu := h.aside hr hu.headers hu.keepalive
  settable := h.settable
  addCookie hr _ := h.addCookie hr
  remove hr _ := h.remove hr
  writeHeader := by
    have hconn : ∀ x : Act Conn Unit, Keeps P (onConn x) := fun x =>
      keeps_zoom fun _ hr c _ => by cases x c <;> exact h.aside hr rfl id
    have hput : Keeps P putContentType := by
      refine keeps_get_bind fun r _ => ?_
      split
      · exact Lasting.header (h.settable _ (by decide)) _
      · exact keeps_pure _
    refine keeps_get_bind fun r _ => ?_
    split
    · exact keeps_pure _
    · exact hput.bind fun _ => Keeps.bind (keeps_modify fun _ hr => h.aside hr rfl id) fun _ =>
        keeps_get_bind fun r _ => keeps_block hconn r
  emit _ _ := keeps_zoom fun _ hr c _ => by cases Conn.writeAll _ _ c <;> exact h.aside hr rfl id
  flush := keeps_zoom fun _ hr c _ => by cases Conn.flush c <;> exact h.aside hr rfl id

/-- Settled headers have the property of the others. -/
theorem Fieldwise.settled {r : Response} {headers : Headers} (hr : P r) (hopen : r.headersWritten = false)
    (hs : r.settledHeaders = .ok headers) : P (r.setHeaders headers) := by
  unfold settledHeaders at hs
  cases htype : r.contentType with
  | none =>
      rw [htype] at hs
      cases hs
      exact h.aside hr rfl id
  | some contentType =>
      rw [htype] at hs
      exact h.settable _ (by decide) r _ headers hr hopen hs

omit h in
theorem Announces.wrote {before : List (Part × Bytes)} {line : Bytes} {r : Response} (ha : Announces before line r)
    (part : Part) (bytes : Bytes) : Announces before line (r.setConn (r.conn.wrote part bytes)) := by
  obtain ⟨pieces, hlog, hsent⟩ := ha
  refine ⟨pieces ++ [(part, bytes)], ?_, fun hw => List.mem_append_left _ (hsent hw)⟩
  rw [← List.append_assoc, ← hlog]
  rfl

/-- **What is announced.**  If the property puts the line into every header block, then the line is written with the
headers, whatever else happens. -/
theorem Fieldwise.bears (before : List (Part × Bytes)) {line : Bytes} (hline : ∀ r, P r → line ∈ r.headLines) :
    Lasting (Bears P before line) where
  aside := by
    rintro r r' ⟨hfaults, hr, pieces, hlog, hsent⟩ hu
    refine ⟨hu.conn ▸ hfaults, h.aside hr hu.headers hu.keepalive, pieces, hu.conn ▸ hlog, fun hw => hsent ?_⟩
    rw [← hu.headersWritten, hw]
  settable name hname r value headers hr hopen hput :=
    ⟨hr.faults, h.settable name hname r value headers hr.holds hopen hput, hr.announces⟩
  addCookie hr _ hadd := ⟨hr.faults, h.addCookie hr.holds hadd, hr.announces⟩
  remove hr _ := ⟨hr.faults, h.remove hr.holds, hr.announces⟩
  writeHeader := by
    intro r hr
    cases hw : r.headersWritten with
    | true =>
        rw [writeHeader_done hw]
        exact hr
    | false =>
        rw [writeHeader_run hr.faults hw]
        cases hs : r.settledHeaders with
        | error e => exact hr
        | ok headers =>
            have hsettled : P (r.setHeaders headers) := h.settled hr.holds hw hs
            obtain ⟨pieces, hlog, -⟩ := hr.announces
            refine ⟨?_, h.aside hsettled rfl id, pieces ++ ((r.setHeaders headers).headLines ++ [[]]).map fun line =>
              (.head, line ++ crlf), ?_, fun _ => List.mem_append_right _ (List.mem_map_of_mem
                (List.mem_append_left _ (hline _ hsettled)))⟩
            · show (r.conn.wroteLines _).faults = []
              rw [Conn.faults_wroteLines]
              exact hr.faults
            · show (r.conn.wroteLines _).log = _
              rw [Conn.log_wroteLines, hlog, List.append_assoc]
  emit part bytes := by
    intro r hr
    rw [onConn_writeAll_run hr.faults]
    exact ⟨hr.faults, h.aside hr.holds rfl id, hr.announces.wrote part bytes⟩
  flush := by
    intro r hr
    rw [onConn_flush_run hr.faults]
    exact ⟨hr.faults, h.aside hr.holds rfl id, hr.announces⟩

end fieldwise

end Response

/-! ### The writers -/

namespace Attached

variable {W : Type} {P : Response → Prop} (h : Response.Lasting P)
include h

theorem lasting_emit (bytes : Bytes) : Keeps (fun a : Attached W => P a.res) (emit bytes) :=
  keeps_zoom_part (fun _ _ => rfl) (h.emit _ _)

theorem lasting_flushConn : Keeps (fun a : Attached W => P a.res) flushConn :=
  keeps_zoom_part (fun _ _ => rfl) h.flush

end Attached

namespace StreamingBodyWriter

open Attached

variable {P : Response → Prop} (h : Response.Lasting P)
include h

theorem lasting_writePieces : ∀ pieces : List Bytes, Keeps (fun a : Self => P a.res) (writePieces pieces)
  | [] => keeps_pure _
  | piece :: rest => (lasting_emit h piece).bind fun _ => lasting_writePieces rest

theorem lasting_writeParts (pending : Bytes) (data : List Bytes) (pattern : Bytes) (splat : ℕ) :
    Keeps (fun a : Self => P a.res) (writeParts pending data pattern splat) :=
  (lasting_emit h pending).bind fun _ => (lasting_writePieces h data).bind fun _ => lasting_writePieces h _

theorem lasting_drain (data : List Bytes) (pattern : Bytes) (splat : ℕ) :
    Keeps (fun a : Self => P a.res) (drain data pattern splat) := by
  have hconsume : ∀ total, Keeps (fun a : Self => P a.res) (modify (consume total)) :=
    fun _ => keeps_modify fun _ ha => h.aside ha ⟨rfl, rfl, rfl, id⟩
  refine keeps_get_bind fun self _ => ?_
  split
  · exact keeps_pure _
  split
  · exact hconsume _
  · refine (keeps_record_of ?_).bind fun _ => hconsume _
    unfold writeFramed
    split
    · exact (lasting_emit h _).bind fun _ => (lasting_writeParts h _ _ _ _).bind fun _ =>
        (lasting_emit h _).bind fun _ => lasting_flushConn h
    · exact (lasting_writeParts h _ _ _ _).bind fun _ => lasting_flushConn h

theorem lasting_writeSplatAll (data : List Bytes) (pattern : Bytes) (splat : ℕ) :
    Keeps (fun a : Self => P a.res) (writeSplatAll data pattern splat) := by
  refine keeps_get_bind fun self _ => ?_
  split
  · exact lasting_drain h _ _ _
  · exact keeps_modify fun _ hs => hs

theorem lasting_writeAll (bytes : Bytes) : Keeps (fun a : Self => P a.res) (writeAll bytes) := by
  unfold writeAll
  split
  · exact keeps_pure _
  · exact lasting_writeSplatAll h _ _ _

theorem lasting_flush : Keeps (fun a : Self => P a.res) flush :=
  keeps_get_bind fun _ _ => (lasting_drain h _ _ _).when _

theorem lasting_finish : Keeps (fun a : Self => P a.res) finish := by
  refine keeps_get_bind fun self _ => ?_
  split
  · exact keeps_pure _
  · refine Keeps.bind (keeps_modify fun _ ha => h.aside ha ⟨rfl, rfl, rfl, id⟩) fun _ => ?_
    refine Keeps.onError ?_ fun _ ha => h.aside ha ⟨rfl, rfl, rfl, fun _ => rfl⟩
    refine (keeps_commit_of (lasting_flush h)).bind fun _ =>
      ((keeps_commit_of (lasting_emit h _)).when _).bind fun _ => (keeps_commit_of (lasting_flushConn h)).bind fun _ =>
        keeps_get_bind fun self _ => ?_
    split
    · exact (keeps_fail _).when _
    · exact keeps_pure _

end StreamingBodyWriter

namespace EventWriter

open Attached

variable {P : Response → Prop} (h : Response.Lasting P)
include h

theorem lasting_emit (bytes : Bytes) : Keeps (fun a : Self => P a.res) (emit bytes) :=
  keeps_get_bind fun _ _ => (Attached.lasting_emit h bytes).when _

theorem lasting_flushConn : Keeps (fun a : Self => P a.res) flushConn :=
  keeps_get_bind fun _ _ => (Attached.lasting_flushConn h).when _

omit h in
theorem lasting_setLineInProgress (b : Bool) : Keeps (fun a : Self => P a.res) (setLineInProgress b) :=
  keeps_modify fun _ hs => hs

theorem lasting_emitField (name : Bytes) (value : Option Bytes) :
    Keeps (fun a : Self => P a.res) (emitField name value) := by
  cases value with
  | none => exact keeps_pure _
  | some value => exact lasting_emit h _

theorem lasting_startSend (opts : EventOptions) : Keeps (fun a : Self => P a.res) (startSend opts) := by
  unfold startSend
  split
  · exact keeps_fail _
  split
  · exact keeps_fail _
  · exact (lasting_emitField h _ _).bind fun _ => (lasting_emitField h _ _).bind fun _ => lasting_emitField h _ _

theorem lasting_sendLines : ∀ lines : List Bytes, Keeps (fun a : Self => P a.res) (sendLines lines)
  | [] => keeps_pure _
  | _ :: rest => (lasting_emit h _).bind fun _ => lasting_sendLines rest

theorem lasting_send (data : Bytes) (opts : EventOptions) : Keeps (fun a : Self => P a.res) (send data opts) :=
  (lasting_startSend h opts).bind fun _ => (lasting_sendLines h _).bind fun _ => (lasting_emit h _).bind fun _ =>
    lasting_flushConn h

theorem lasting_writeLines : ∀ pieces : List Bytes, Keeps (fun a : Self => P a.res) (writeLines pieces)
  | [] => keeps_pure _
  | [rest] => by
      refine Keeps.when ?_ _
      refine Keeps.bind ?_ fun _ => lasting_emit h _
      exact keeps_get_bind fun _ _ => Keeps.when ((lasting_emit h _).bind fun _ => lasting_setLineInProgress _) _
  | _ :: next :: rest => by
      refine Keeps.bind (keeps_get_bind fun _ _ => (lasting_emit h _).when _) fun _ => ?_
      exact (lasting_emit h _).bind fun _ => (lasting_emit h _).bind fun _ =>
        (lasting_setLineInProgress _).bind fun _ => lasting_writeLines (next :: rest)

theorem lasting_writeAll (bytes : Bytes) : Keeps (fun a : Self => P a.res) (writeAll bytes) := by
  unfold writeAll
  split
  · exact keeps_pure _
  · exact lasting_writeLines h _

theorem lasting_finish : Keeps (fun a : Self => P a.res) finish :=
  keeps_get_bind fun _ _ => ((lasting_emit h _).when _).bind fun _ => (lasting_emit h _).bind fun _ => lasting_flushConn h

end EventWriter

/-! ### Handlers -/

namespace HandlerState

variable {P : Response → Prop}

theorem lasting_onRes {α : Type} {x : Act Response α} (hx : Keeps P x) : Keeps (fun st => P st.res) (onRes x) :=
  keeps_zoom_part (fun _ _ => rfl) hx

theorem lasting_onBodyWriter {x : Act Response Unit} (hx : Keeps P x) : Keeps (fun st => P st.res) (onBodyWriter x) :=
  keeps_get_bind fun _ _ => (lasting_onRes hx).when _

theorem lasting_onStream {x : Act StreamingBodyWriter.Self Unit}
    (hx : Keeps (fun a : StreamingBodyWriter.Self => P a.res) x) : Keeps (fun st => P st.res) (onStream x) := by
  refine keeps_get_bind fun st _ => ?_
  split
  · exact keeps_pure _
  · exact keeps_zoom fun _ hst => hx.weaken (fun _ ha => ha ▸ hst) (fun _ _ ha => ha) fun _ _ ha => ha

theorem lasting_onEvents {x : Act EventWriter.Self Unit} (hx : Keeps (fun a : EventWriter.Self => P a.res) x) :
    Keeps (fun st => P st.res) (onEvents x) := by
  refine keeps_get_bind fun st _ => ?_
  split
  · exact keeps_pure _
  · exact keeps_zoom fun _ hst => hx.weaken (fun _ ha => ha ▸ hst) (fun _ _ ha => ha) fun _ _ ha => ha

theorem lasting_onEventWriter (i : ℕ) {x : Act EventWriter.Self Unit}
    (hx : Keeps (fun a : EventWriter.Self => P a.res) x) : Keeps (fun st => P st.res) (onEventWriter i x) := by
  refine keeps_get_bind fun st _ => ?_
  split
  · exact keeps_pure _
  · exact keeps_zoom fun _ hst => hx.weaken (fun _ ha => ha ▸ hst) (fun _ _ ha => ha) fun _ _ ha => ha

end HandlerState

namespace Executor

open HandlerState

variable {P : Response → Prop} (h : Response.Lasting P)
include h

/-- **No operation of a handler breaks the property**, unless it sets a field that must not be set. -/
theorem lasting_exec (op : Op) (hop : ∀ name value, op = .header name value → Response.Settable P name) :
    Keeps (fun st => P st.res) (exec op) := by
  cases op with
  | setStatus status => exact lasting_onRes (h.assign fun _ => ⟨rfl, rfl, rfl, id⟩)
  | setBody body => exact lasting_onRes (h.assign fun _ => ⟨rfl, rfl, rfl, id⟩)
  | setContentType contentType => exact lasting_onRes (h.assign fun _ => ⟨rfl, rfl, rfl, id⟩)
  | header name value => exact lasting_onRes (Response.Lasting.header (hop name value rfl) value)
  | setCookie name value opts => exact lasting_onRes (h.setCookie name value opts)
  | json text => exact lasting_onRes (h.json text)
  | writer => exact (lasting_onRes h.startBody).bind fun _ => keeps_modify fun _ hst => hst
  | bodyWrite bytes => exact lasting_onBodyWriter (h.bodyWrite bytes)
  | bodyEnd => exact lasting_onBodyWriter h.bodyEnd
  | clearWriter => exact lasting_onRes h.clearWriter
  | resetBody => exact lasting_onRes h.resetBody
  | stream cap => exact (lasting_onRes h.stream).bind fun _ => keeps_modify fun _ hst => hst
  | streamWrite bytes => exact lasting_onStream (StreamingBodyWriter.lasting_writeAll h bytes)
  | streamSplat data pattern splat =>
      exact lasting_onStream (StreamingBodyWriter.lasting_writeSplatAll h data pattern splat)
  | streamFlush => exact lasting_onStream (StreamingBodyWriter.lasting_flush h)
  | streamEnd => exact lasting_onStream (StreamingBodyWriter.lasting_finish h)
  | writeHeader => exact lasting_onRes h.writeHeader
  | startEventStream => exact (lasting_onRes h.startEventStream).bind fun _ => keeps_modify fun _ hst => hst
  | send data opts => exact lasting_onEvents (EventWriter.lasting_send h data opts)
  | startSend opts =>
      exact (lasting_onEvents (EventWriter.lasting_startSend h opts)).bind fun _ => keeps_modify fun _ hst => hst
  | eventWrite i bytes => exact lasting_onEventWriter i (EventWriter.lasting_writeAll h bytes)
  | eventEnd i => exact lasting_onEventWriter i (EventWriter.lasting_finish h)
  | handleNotFound => exact lasting_onRes h.handleNotFound

theorem lasting_conclude (outcome : Option Error) : Keeps (fun st => P st.res) (conclude outcome) := by
  cases outcome with
  | none => exact keeps_pure _
  | some err =>
      unfold conclude
      dsimp only
      split
      · exact keeps_fail _
      · refine keeps_get_bind fun st _ => ?_
        split
        · exact keeps_fail _
        · exact lasting_onRes h.handleError

end Executor

namespace Exchange

open Response

variable {L : Llhttp} {P : Response → Prop}

/-- The step goes through none of the doors at which the property can be lost. -/
def Spared (P : Response → Prop) : Step → Prop
  | .res (.header name _) => Settable P name
  | .setKeepalive keepalive => ∀ r, P r → P { r with keepalive := keepalive }
  | _ => True

theorem lasting_onState {x : Act HandlerState Unit} (hx : Keeps (fun st => P st.res) x) :
    Keeps (fun self : Exchange L => P self.res) (onState x) := keeps_zoom_part (fun _ _ => rfl) hx

theorem lasting_onInbound {α : Type} (x : Act (Inbound L Request) α) :
    Keeps (fun self : Exchange L => P self.res) (onInbound x) :=
  keeps_zoom fun _ hself inbound _ => by cases x inbound <;> exact hself

section lasting
variable (h : Lasting P)
include h

theorem lasting_readBody (dest : ℕ) : Keeps (fun self : Exchange L => P self.res) (readBody dest) := by
  have hsend : Keeps (fun self : Exchange L => P self.res) sendContinue := by
    refine keeps_get_bind fun _ _ => Keeps.when ?_ _
    refine Keeps.bind (keeps_modify fun _ hself => hself) fun _ => ?_
    exact (lasting_onState (HandlerState.lasting_onRes (h.emit _ _))).bind fun _ =>
      lasting_onState (HandlerState.lasting_onRes h.flush)
  exact hsend.bind fun _ => lasting_onInbound _

theorem lasting_body (room : ℕ → ℕ) : Keeps (fun self : Exchange L => P self.res) (body room) := by
  have hloop : ∀ fuel remaining got, Keeps (fun self : Exchange L => P self.res) (bodyLoop room fuel remaining got) := by
    intro fuel
    induction fuel with
    | zero => exact fun _ _ => keeps_die _
    | succ fuel ih =>
        intro remaining got
        unfold bodyLoop
        split
        · exact keeps_fail _
        · refine (lasting_readBody h _).attempt.bind fun result => ?_
          split
          · exact keeps_pure _
          · exact keeps_fail _
          · exact keeps_fail _
          · exact ih _ _
  refine keeps_get_bind fun self _ => ?_
  split
  · exact keeps_pure _
  · exact (hloop _ _ _).bind fun _ => Keeps.bind (keeps_modify fun _ hself => hself) fun _ =>
      keeps_get_bind fun _ _ => keeps_pure _

theorem lasting_onSocket (op : SocketOp) : Keeps (fun self : Exchange L => P self.res) (onSocket op) := by
  refine keeps_get_bind fun self _ => ?_
  split
  · exact keeps_pure _
  · next ws _ =>
      have hcall : Keeps (fun self : Exchange L => P self.res)
          (zoom (fun self => self.attachSocket ws) detachSocket (socketCall op)) :=
        keeps_zoom fun self hself => (keeps_socketCall (h.survives self.res) op).weaken
          (fun w hw => by
            subst hw
            exact hself)
          (fun _ _ hw => hw) fun _ _ hw => hw
      refine hcall.attempt.bind fun result => ?_
      split
      · exact keeps_pure _
      · refine Keeps.bind (keeps_modify fun s hs => ?_) fun _ => keeps_fail _
        split <;> exact hs

/-- **A step that is spared** keeps the property. -/
theorem lasting_perform {step : Step} (hstep : Spared P step) :
    Keeps (fun self : Exchange L => P self.res) (perform step) := by
  cases step with
  | res op =>
      refine lasting_onState (Executor.lasting_exec h op ?_)
      rintro name value rfl
      exact hstep
  | setKeepalive keepalive => exact lasting_onState (HandlerState.lasting_onRes (keeps_modify hstep))
  | reader => exact keeps_modify fun _ hself => hself
  | read dest =>
      exact keeps_get_bind fun _ _ => Keeps.when ((lasting_readBody h dest).bind fun _ => keeps_pure _) _
  | body room => exact (lasting_body h room).bind fun _ => keeps_pure _
  | upgradeWebSocket =>
      refine Keeps.bind (keeps_get_bind fun self _ => ?_) fun _ => keeps_pure _
      split
      · exact keeps_pure _
      · exact (lasting_onState (HandlerState.lasting_onRes (h.acceptUpgrade _))).bind fun _ =>
          Keeps.bind (keeps_modify fun _ hself => hself) fun _ => keeps_pure _
  | socket op => exact lasting_onSocket h op

/-- **So does a run of them.** -/
theorem lasting_performAll {steps : List Step} (hsteps : ∀ step ∈ steps, Spared P step) :
    Keeps (fun self : Exchange L => P self.res) (performAll steps) := by
  induction steps with
  | nil => exact keeps_pure _
  | cons step rest ih =>
      exact (lasting_perform h (hsteps step List.mem_cons_self)).attempt.bind fun _ =>
        (ih fun step hstep => hsteps step (List.mem_cons_of_mem _ hstep)).bind fun _ => keeps_pure _

theorem lasting_execute {steps : List Step} (outcome : Option Error) (hsteps : ∀ step ∈ steps, Spared P step) :
    Keeps (fun self : Exchange L => P self.res) (execute steps outcome) :=
  (lasting_performAll h hsteps).bind fun _ => lasting_onState (Executor.lasting_conclude h outcome)

theorem lasting_noKeepalive : Keeps (fun self : Exchange L => P self.res) noKeepalive :=
  lasting_onState (HandlerState.lasting_onRes (h.assign (f := Response.noKeepalive) fun _ => ⟨rfl, rfl, rfl, fun _ => rfl⟩))

/-- What comes behind the executor keeps the property, too. -/
theorem lasting_drain (config : RequestConfig) : Keeps (fun self : Exchange L => P self.res) (drain config) := by
  refine keeps_get_bind fun self _ => ?_
  split
  · exact keeps_pure _
  split
  · refine (keeps_assert _).bind fun _ => (lasting_onInbound _).attempt.bind fun result => ?_
    split
    · exact (lasting_noKeepalive h).when _
    · refine keeps_get_bind fun self _ => ?_
      split
      · exact keeps_fail _
      · exact lasting_noKeepalive h
  · exact lasting_noKeepalive h

end lasting

end Exchange
end Dusty
