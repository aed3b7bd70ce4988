import Dusty.ResponseInv

/-! # Properties that no operation of a handler breaks

A property of responses is `Kept` when it does not look at what the peer has not seen yet, and
when the few functions that put something on the wire keep it.  Such a property holds behind
every sequence of operations, on any transport. -/

namespace Dusty

open Act

namespace Response

/-- The two responses differ in nothing that was sent or that is settled when the headers are. -/
structure Unseen (r r' : Response) : Prop where
  conn : r'.conn = r.conn
  headersWritten : r'.headersWritten = r.headersWritten
  written : r'.written = r.written
  head : r'.head = r.head
  streaming : r'.streaming = r.streaming
  valid : HeadersValid r.headers → HeadersValid r'.headers
  fresh : r.headersWritten = false → r'.bodySent = r.bodySent
  sent : r.headersWritten = true → r'.chunked = r.chunked ∧ r'.contentLength = r.contentLength

theorem unseen_setHeaders {r : Response} {headers : Headers}
    (hv : HeadersValid r.headers → HeadersValid headers) : Unseen r (r.setHeaders headers) :=
  ⟨rfl, rfl, rfl, rfl, rfl, hv, fun _ => rfl, fun _ => ⟨rfl, rfl⟩⟩

/-- The headers are sent, and they say where the body ends. -/
def Delimited (r : Response) : Prop :=
  r.headersWritten = true ∧ (r.chunked = true ∨ r.contentLength.isSome = true)

/-- The headers are sent, and more is sent behind them as it comes. -/
def Streams (r : Response) : Prop :=
  r.headersWritten = true ∧ (r.chunked = true ∨ r.contentLength.isSome = true ∨ r.streaming = true)

theorem Delimited.streams {r : Response} (h : Delimited r) : Streams r :=
  ⟨h.1, h.2.imp_right .inl⟩

/-- The property does not look at what is not sent. -/
def Blind (P : Response → Prop) : Prop := ∀ r r', P r → Unseen r r' → P r'

/-- The property does not look at what is not sent, and survives what is. -/
structure Stable (P : Response → Prop) : Prop where
  unseen : ∀ {r r'}, P r → Unseen r r' → P r'
  writeHeader : Keeps P Response.writeHeader
  emit : ∀ bytes, Keeps (fun r => P r ∧ Streams r) (onConn (Conn.writeAll .body bytes))
  flush : Keeps (fun r => P r ∧ Streams r) (onConn Conn.flush)

/-- The property survives what is sent behind the headers. -/
structure Carried (P : Response → Prop) : Prop where
  emit : ∀ bytes, Keeps (fun r => P r ∧ Streams r) (onConn (Conn.writeAll .body bytes))
  flush : Keeps (fun r => P r ∧ Streams r) (onConn Conn.flush)

theorem Stable.carried {P : Response → Prop} (h : Stable P) : Carried P := ⟨h.emit, h.flush⟩

/-- No operation breaks the property. -/
structure Kept (P : Response → Prop) : Prop extends Stable P where
  startEventStream : Keeps P Response.startEventStream
  finish : Keeps (fun a : StreamingBodyWriter.Self => P a.res ∧ Delimited a.res)
    StreamingBodyWriter.finish

/-! ### The headers stay sent -/

theorem keeps_onConn_sent {α : Type} (x : Act Conn α) :
    Keeps (fun r => r.headersWritten = true) (onConn x) :=
  keeps_zoom fun _ hr _ hs => by
    cases x _ <;> exact hr

theorem keeps_onConn_streams {α : Type} (x : Act Conn α) : Keeps Streams (onConn x) :=
  keeps_zoom fun _ hr _ hs => by
    cases x _ <;> exact hr

/-- The lines of a header block keep whatever does not depend on the connection. -/
theorem keeps_block {P : Response → Prop} (h : ∀ x : Act Conn Unit, Keeps P (onConn x))
    (r : Response) : Keeps P (do
      writeLine (statusLine r.status)
      writeFields r.headers.entries
      Act.when (!r.keepalive) (writeLine (ascii "Connection: close"))
      writeFraming r
      writeLine []) := by
  have hlines : ∀ entries, Keeps P (writeFields entries) := by
    intro entries
    induction entries with
    | nil => exact keeps_pure _
    | cons entry rest ih => exact (h _).bind fun _ => ih
  have hframing : Keeps P (writeFraming r) := by
    unfold writeFraming
    split
    · exact h _
    split
    · split
      · exact h _
      · exact keeps_pure _
    · exact keeps_pure _
  exact (h _).bind fun _ => (hlines _).bind fun _ => ((h _).when _).bind fun _ =>
    hframing.bind fun _ => h _

/-- Whatever the transport does to it, a header block that was written is sent. -/
theorem writeHeader_sent {P : Response → Prop} (h : Keeps P writeHeader) :
    Triple P writeHeader (fun _ r => P r ∧ r.headersWritten = true) (fun _ => P) := by
  have hsent : Triple (fun _ => True) writeHeader (fun _ r => r.headersWritten = true)
      (fun _ _ => True) := by
    refine triple_get_bind fun r => ?_
    split
    · next hw => exact triple_pure fun s hs => hs.2 ▸ hw
    · refine Triple.bind (Q := fun _ _ => True) ?_ fun _ => ?_
      · exact Triple.weaken (keeps_of_forall fun _ => trivial) (fun _ _ => trivial)
          (fun _ _ h => h) fun _ _ h => h
      refine Triple.bind (triple_modify (Q := fun _ r => r.headersWritten = true) fun _ _ => rfl)
        fun _ => ?_
      exact Triple.weaken (keeps_get_bind fun r _ => keeps_block keeps_onConn_sent r)
        (fun _ h => h) (fun _ _ h => h) fun _ _ _ => trivial
  intro r hr
  have hkept := h r hr
  have hw := hsent r trivial
  cases hrun : writeHeader r with
  | ok u s =>
      rw [hrun] at hkept hw
      exact ⟨hkept, hw⟩
  | error e s =>
      rw [hrun] at hkept
      exact hkept

/-- Writing the header block changes the connection and the fields only. -/
theorem keeps_writeHeader_of {P : Response → Prop} (hconn : ∀ x : Act Conn Unit, Keeps P (onConn x))
    (hheaders : ∀ r headers, P r → P (r.setHeaders headers))
    (hsent : ∀ r, P r → P { r with headersWritten := true }) : Keeps P writeHeader := by
  have hput : Keeps P putContentType := by
    refine keeps_get_bind fun r _ => ?_
    split
    · refine keeps_get_bind fun r _ => ?_
      split
      · exact keeps_fail _
      split
      · exact keeps_fail _
      split
      · exact keeps_fail _
      · split
        · exact keeps_fail _
        · exact keeps_modify fun r hr => hheaders r _ hr
    · exact keeps_pure _
  refine keeps_get_bind fun r _ => ?_
  split
  · exact keeps_pure _
  · refine hput.bind fun _ => Keeps.bind (keeps_modify hsent) fun _ => ?_
    exact keeps_get_bind fun r _ => keeps_block hconn r

theorem keeps_writeHeader_framing :
    Keeps (fun r => r.chunked = true ∨ r.contentLength.isSome = true) writeHeader :=
  keeps_writeHeader_of (fun x => keeps_zoom fun _ hr _ hs => by cases x _ <;> exact hr)
    (fun _ _ hr => hr) fun _ hr => hr

theorem keeps_writeHeader_streaming : Keeps (fun r => r.streaming = true) writeHeader :=
  keeps_writeHeader_of (fun x => keeps_zoom fun _ hr _ hs => by cases x _ <;> exact hr)
    (fun _ _ hr => hr) fun _ hr => hr

/-! ### Operations that write nothing -/

namespace Blind

variable {P : Response → Prop} (h : Blind P)
include h

theorem assign {f : Response → Response} (hf : ∀ r, Unseen r (f r)) : Keeps P (modify f) :=
  keeps_modify fun r hr => h _ _ hr (hf r)

theorem header (name value : Bytes) : Keeps P (Response.header name value) := by
  refine triple_get_bind fun r => ?_
  split
  · exact triple_fail fun _ hs => hs.1
  split
  · exact triple_fail fun _ hs => hs.1
  split
  · exact triple_fail fun _ hs => hs.1
  · next hn hv =>
      cases hput : r.headers.put name value with
      | error e => exact triple_fail fun _ hs => hs.1
      | ok headers =>
          refine triple_modify fun s ⟨hs, hsr⟩ => ?_
          subst hsr
          exact h _ _ hs (unseen_setHeaders fun hvalid =>
            hvalid.put (by simpa using hn) (by simpa using hv) hput)

theorem setCookie (name value : Bytes) (opts : CookieOpts) :
    Keeps P (Response.setCookie name value opts) := by
  refine triple_get_bind fun r => ?_
  split
  · exact triple_fail fun _ hs => hs.1
  · have hserialize : Triple (fun s => P s ∧ s = r)
        (Cookie.serializeCookie name value opts : Act Response Bytes)
        (fun _ s => P s ∧ s = r) (fun _ => P) :=
      Triple.weaken (keeps_serializeCookie name value opts) (fun _ hs => hs) (fun _ _ hs => hs)
        fun _ _ hs => hs.1
    refine Triple.bind hserialize fun serialized => ?_
    split
    · exact triple_fail fun _ hs => hs.1
    · next hv =>
        cases hadd : r.headers.add (ascii "Set-Cookie") serialized with
        | error e => exact triple_fail fun _ hs => hs.1
        | ok headers =>
            refine triple_modify fun s ⟨hs, hsr⟩ => ?_
            subst hsr
            exact h _ _ hs (unseen_setHeaders fun hvalid =>
              hvalid.add (by decide) (by simpa using hv) hadd)

theorem bodyWrite (bytes : Bytes) : Keeps P (Response.bodyWrite bytes) :=
  h.assign fun _ => ⟨rfl, rfl, rfl, rfl, rfl, id, fun _ => rfl, fun _ => ⟨rfl, rfl⟩⟩

theorem closeBody : Keeps P (modify Response.closeBody) :=
  h.assign fun _ => ⟨rfl, rfl, rfl, rfl, rfl, id, fun _ => rfl, fun _ => ⟨rfl, rfl⟩⟩

theorem bodyEnd : Keeps P Response.bodyEnd := by
  refine keeps_get_bind fun r _ => ?_
  split
  · exact keeps_pure _
  · exact h.closeBody

theorem clearWriter : Keeps P Response.clearWriter :=
  h.assign fun _ => ⟨rfl, rfl, rfl, rfl, rfl, id, fun _ => rfl, fun _ => ⟨rfl, rfl⟩⟩

theorem resetBody : Keeps P Response.resetBody := by
  refine keeps_get_bind fun r _ => ?_
  refine (keeps_assert _).bind fun _ => h.clearWriter.bind fun _ => ?_
  exact h.assign fun _ => ⟨rfl, rfl, rfl, rfl, rfl, fun hv => (hv.remove _).remove _, fun _ => rfl,
    fun _ => ⟨rfl, rfl⟩⟩

theorem json (text : Bytes) : Keeps P (Response.json text) :=
  (h.bodyWrite text).bind fun _ => h.header _ _

theorem startBody : Triple P Response.startBody
    (fun _ r => P r ∧ r.headersWritten = false) (fun _ => P) := by
  refine triple_get_bind fun r => ?_
  refine Triple.bind (triple_assert (Q := fun _ s => P s ∧ s = r) (fun _ hs _ => hs)
    fun _ hs => hs.1) fun _ => ?_
  refine Triple.bind (triple_assert (Q := fun _ s => P s ∧ s.headersWritten = false)
    (fun s hs hw => ⟨hs.1, by rw [hs.2]; simpa using hw⟩) fun _ hs => hs.1) fun _ => ?_
  refine Triple.bind (triple_assert (Q := fun _ s => P s ∧ s.headersWritten = false)
    (fun _ hs _ => hs) fun _ hs => hs.1) fun _ => ?_
  refine triple_modify fun s hs => ⟨h _ _ hs.1 ?_, hs.2⟩
  exact ⟨rfl, rfl, rfl, rfl, rfl, id, fun _ => rfl, fun _ => ⟨rfl, rfl⟩⟩

/-- The framing is decided on while the headers are open. -/
theorem decideFraming : Triple (fun r => P r ∧ r.headersWritten = false) Response.decideFraming
    (fun _ r => P r ∧ (r.chunked = true ∨ r.contentLength.isSome = true)) (fun _ => P) := by
  refine triple_get_bind fun r => ?_
  split
  · split
    · refine triple_modify fun s hs => ⟨h _ _ hs.1.1 ?_, .inr rfl⟩
      exact ⟨rfl, rfl, rfl, rfl, rfl, id, fun _ => rfl, fun hw => by simp [hs.1.2] at hw⟩
    · exact triple_fail fun _ hs => hs.1.1
  · refine triple_modify fun s hs => ⟨h _ _ hs.1.1 ?_, .inl rfl⟩
    exact ⟨rfl, rfl, rfl, rfl, rfl, id, fun _ => rfl, fun hw => by simp [hs.1.2] at hw⟩

theorem handleNotFound : Keeps P Executor.handleNotFound := by
  refine keeps_get_bind fun r _ => ?_
  refine Keeps.bind (h.resetBody.when _) fun _ => ?_
  exact h.assign fun _ => ⟨rfl, rfl, rfl, rfl, rfl, id, fun _ => rfl, fun _ => ⟨rfl, rfl⟩⟩

theorem handleError : Keeps P Executor.handleError := by
  refine h.resetBody.bind fun _ => ?_
  exact h.assign fun _ => ⟨rfl, rfl, rfl, rfl, rfl, id, fun _ => rfl, fun _ => ⟨rfl, rfl⟩⟩

end Blind

namespace Stable

variable {P : Response → Prop} (h : Stable P)
include h

theorem blind : Blind P := fun _ _ => h.unseen

theorem stream : Triple P Response.stream (fun _ r => P r ∧ Delimited r) (fun _ => P) := by
  refine Triple.bind h.blind.startBody fun _ => Triple.bind h.blind.decideFraming fun _ => ?_
  exact Triple.weaken (writeHeader_sent (h.writeHeader.and keeps_writeHeader_framing))
    (fun _ hr => hr) (fun _ _ hr => ⟨hr.1.1, hr.2, hr.1.2⟩) fun _ _ hr => hr.1

end Stable

end Response

/-! ### Operations of the writers -/

namespace Attached

variable {W : Type} {P : Response → Prop}

/-- The headers are sent, so the writer may write. -/
def Live (P : Response → Prop) (a : Attached W) : Prop := P a.res ∧ Response.Streams a.res

theorem keeps_onRes {x : Act Response Unit}
    (h : Keeps (fun r => P r ∧ Response.Streams r) x) :
    Keeps (Live P) (onRes x : Act (Attached W) Unit) := by
  intro a ha
  unfold onRes zoom
  cases hx : x a.res with
  | ok v r => exact h.ok ha hx
  | error e r => exact h.error ha hx

theorem keeps_emit (h : Response.Carried P) (bytes : Bytes) :
    Keeps (Live P) (emit bytes : Act (Attached W) Unit) :=
  keeps_onRes (h.emit bytes)

theorem keeps_flushConn (h : Response.Carried P) : Keeps (Live P) (flushConn : Act (Attached W) Unit) :=
  keeps_onRes h.flush

end Attached

namespace StreamingBodyWriter

open Attached

variable {P : Response → Prop}

/-- What a writer records about a failure is not part of the response. -/
theorem keeps_record_of {Q : Response → Prop} {x : Act Self Unit} (hx : Keeps (fun a : Self => Q a.res) x) :
    Keeps (fun a : Self => Q a.res) (record x) := by
  refine hx.attempt.bind fun result => ?_
  cases result with
  | ok u => exact keeps_pure _
  | error e =>
      refine keeps_get_bind fun self _ => ?_
      refine Keeps.bind (keeps_modify fun _ hs => hs) fun _ => ?_
      exact keeps_fail _

theorem keeps_commit_of {Q : Response → Prop} {x : Act Self Unit} (hx : Keeps (fun a : Self => Q a.res) x) :
    Keeps (fun a : Self => Q a.res) (commit x) := by
  refine (keeps_record_of hx).attempt.bind fun result => ?_
  cases result with
  | ok u => exact keeps_pure _
  | error e => exact keeps_get_bind fun self _ => keeps_fail _

theorem keeps_record {x : Act Self Unit} (hx : Keeps (Live P) x) : Keeps (Live P) (record x) :=
  keeps_record_of (Q := fun r => P r ∧ Response.Streams r) hx

theorem keeps_commit {x : Act Self Unit} (hx : Keeps (Live P) x) : Keeps (Live P) (commit x) :=
  keeps_commit_of (Q := fun r => P r ∧ Response.Streams r) hx

section stable
variable (h : Response.Stable P)
include h

theorem keeps_writePieces : ∀ pieces : List Bytes, Keeps (Live P) (writePieces pieces)
  | [] => keeps_pure _
  | piece :: rest => (keeps_emit h.carried piece).bind fun _ => keeps_writePieces rest

theorem keeps_writeParts (pending : Bytes) (data : List Bytes) (pattern : Bytes) (splat : ℕ) :
    Keeps (Live P) (writeParts pending data pattern splat) :=
  (keeps_emit h.carried pending).bind fun _ => (keeps_writePieces h data).bind fun _ =>
    keeps_writePieces h _

theorem keeps_drain (data : List Bytes) (pattern : Bytes) (splat : ℕ) :
    Keeps (Live P) (drain data pattern splat) := by
  have hconsume : ∀ total, Keeps (Live P) (modify (consume total)) := by
    intro total
    refine keeps_modify fun a ha => ⟨h.unseen ha.1 ?_, ha.2⟩
    exact ⟨rfl, rfl, rfl, rfl, rfl, id, fun hw => by simp [ha.2.1] at hw, fun _ => ⟨rfl, rfl⟩⟩
  refine keeps_get_bind fun self _ => ?_
  split
  · exact keeps_pure _
  split
  · exact hconsume _
  · refine (keeps_record ?_).bind fun _ => hconsume _
    unfold writeFramed
    split
    · refine (keeps_emit h.carried _).bind fun _ => (keeps_writeParts h _ _ _ _).bind fun _ => ?_
      exact (keeps_emit h.carried _).bind fun _ => keeps_flushConn h.carried
    · exact (keeps_writeParts h _ _ _ _).bind fun _ => keeps_flushConn h.carried

theorem keeps_writeSplatAll (data : List Bytes) (pattern : Bytes) (splat : ℕ) :
    Keeps (Live P) (writeSplatAll data pattern splat) := by
  refine keeps_get_bind fun self _ => ?_
  split
  · exact keeps_drain h _ _ _
  · exact keeps_modify fun _ hs => hs

theorem keeps_writeAll (bytes : Bytes) : Keeps (Live P) (writeAll bytes) := by
  unfold writeAll
  split
  · exact keeps_pure _
  · exact keeps_writeSplatAll h _ _ _

theorem keeps_flush : Keeps (Live P) flush :=
  keeps_get_bind fun _ _ => (keeps_drain h _ _ _).when _

end stable

end StreamingBodyWriter

namespace EventWriter

open Attached

variable {P : Response → Prop}

theorem keeps_setLineInProgress (b : Bool) : Keeps (Live P) (setLineInProgress b) :=
  keeps_modify fun _ hs => hs

section carried
variable (h : Response.Carried P)
include h

theorem keeps_emit (bytes : Bytes) : Keeps (Live P) (emit bytes) :=
  keeps_get_bind fun _ _ => (Attached.keeps_emit h bytes).when _

theorem keeps_flushConn : Keeps (Live P) flushConn :=
  keeps_get_bind fun _ _ => (Attached.keeps_flushConn h).when _

theorem keeps_emitField (name : Bytes) (value : Option Bytes) :
    Keeps (Live P) (emitField name value) := by
  cases value with
  | none => exact keeps_pure _
  | some value => exact keeps_emit h _

theorem keeps_startSend (opts : EventOptions) : Keeps (Live P) (startSend opts) := by
  unfold startSend
  split
  · exact keeps_fail _
  split
  · exact keeps_fail _
  · exact (keeps_emitField h _ _).bind fun _ => (keeps_emitField h _ _).bind fun _ =>
      keeps_emitField h _ _

theorem keeps_sendLines : ∀ lines : List Bytes, Keeps (Live P) (sendLines lines)
  | [] => keeps_pure _
  | _ :: rest => (keeps_emit h _).bind fun _ => keeps_sendLines rest

theorem keeps_send (data : Bytes) (opts : EventOptions) : Keeps (Live P) (send data opts) :=
  (keeps_startSend h opts).bind fun _ => (keeps_sendLines h _).bind fun _ =>
    (keeps_emit h _).bind fun _ => keeps_flushConn h

theorem keeps_writeLines : ∀ pieces : List Bytes, Keeps (Live P) (writeLines pieces)
  | [] => keeps_pure _
  | [rest] => by
      refine Keeps.when ?_ _
      refine Keeps.bind ?_ fun _ => keeps_emit h _
      refine keeps_get_bind fun _ _ => Keeps.when ?_ _
      exact (keeps_emit h _).bind fun _ => keeps_setLineInProgress _
  | _ :: next :: rest => by
      refine Keeps.bind (keeps_get_bind fun _ _ => (keeps_emit h _).when _) fun _ => ?_
      exact (keeps_emit h _).bind fun _ => (keeps_emit h _).bind fun _ =>
        (keeps_setLineInProgress _).bind fun _ => keeps_writeLines (next :: rest)

theorem keeps_writeAll (bytes : Bytes) : Keeps (Live P) (writeAll bytes) := by
  unfold writeAll
  split
  · exact keeps_pure _
  · exact keeps_writeLines h _

theorem keeps_finish : Keeps (Live P) finish :=
  keeps_get_bind fun _ _ => ((keeps_emit h _).when _).bind fun _ =>
    (keeps_emit h _).bind fun _ => keeps_flushConn h

end carried

end EventWriter

/-! ### How properties are put together -/

namespace Response

variable {P Q : Response → Prop}

theorem Kept.and (h : Kept P) (h' : Kept Q) : Kept fun r => P r ∧ Q r where
  unseen hr hu := ⟨h.unseen hr.1 hu, h'.unseen hr.2 hu⟩
  writeHeader := h.writeHeader.and h'.writeHeader
  startEventStream := h.startEventStream.and h'.startEventStream
  emit bytes := ((h.emit bytes).and (h'.emit bytes)).weaken (fun _ hr => ⟨⟨hr.1.1, hr.2⟩, hr.1.2, hr.2⟩)
    (fun _ _ hr => ⟨⟨hr.1.1, hr.2.1⟩, hr.1.2⟩) (fun _ _ hr => ⟨⟨hr.1.1, hr.2.1⟩, hr.1.2⟩)
  flush := (h.flush.and h'.flush).weaken (fun _ hr => ⟨⟨hr.1.1, hr.2⟩, hr.1.2, hr.2⟩)
    (fun _ _ hr => ⟨⟨hr.1.1, hr.2.1⟩, hr.1.2⟩) (fun _ _ hr => ⟨⟨hr.1.1, hr.2.1⟩, hr.1.2⟩)
  finish := (h.finish.and h'.finish).weaken (fun _ ha => ⟨⟨ha.1.1, ha.2⟩, ha.1.2, ha.2⟩)
    (fun _ _ ha => ⟨⟨ha.1.1, ha.2.1⟩, ha.2.2⟩) (fun _ _ ha => ⟨⟨ha.1.1, ha.2.1⟩, ha.2.2⟩)

/-- `end` of a streaming writer marks, writes and flushes. -/
theorem Stable.finish (h : Stable P) (hmark : ∀ r, P r → Streams r → P r.markWritten) :
    Keeps (Attached.Live P) StreamingBodyWriter.finish := by
  have hclose : ∀ r : Response, Unseen r r.closeBody := fun _ =>
    ⟨rfl, rfl, rfl, rfl, rfl, id, fun _ => rfl, fun _ => ⟨rfl, rfl⟩⟩
  have hnokeep : ∀ r : Response, Unseen r r.noKeepalive := fun _ =>
    ⟨rfl, rfl, rfl, rfl, rfl, id, fun _ => rfl, fun _ => ⟨rfl, rfl⟩⟩
  refine keeps_get_bind fun self _ => ?_
  split
  · exact keeps_pure _
  · refine Keeps.bind (keeps_modify fun a ha =>
      ⟨hmark _ (h.unseen ha.1 (hclose _)) ha.2, ha.2⟩) fun _ => ?_
    refine Keeps.onError ?_ fun a ha => ⟨h.unseen ha.1 (hnokeep _), ha.2⟩
    refine (StreamingBodyWriter.keeps_commit (StreamingBodyWriter.keeps_flush h)).bind fun _ => ?_
    refine ((StreamingBodyWriter.keeps_commit (Attached.keeps_emit h.carried _)).when _).bind fun _ => ?_
    refine (StreamingBodyWriter.keeps_commit (Attached.keeps_flushConn h.carried)).bind fun _ => ?_
    refine keeps_get_bind fun _ _ => ?_
    split
    · exact (keeps_fail _).when _
    · exact keeps_pure _

/-- What an event stream that was started is: announced, begun and flushed. -/
theorem startEventStream_streams : Triple (fun _ => True) Response.startEventStream
    (fun _ r => Streams r) (fun _ _ => True) := by
  refine Triple.bind (keeps_of_forall fun _ => trivial) fun _ => ?_
  refine Triple.bind (keeps_of_forall fun _ => trivial) fun _ => ?_
  refine Triple.bind (triple_modify (Q := fun _ r => r.streaming = true) fun _ _ => rfl) fun _ => ?_
  refine Triple.bind (Q := fun _ r => Streams r) (Triple.weaken
    (writeHeader_sent keeps_writeHeader_streaming) (fun _ hr => hr)
    (fun _ _ hr => ⟨hr.2, .inr (.inr hr.1)⟩) fun _ _ _ => trivial) fun _ => ?_
  have hrest : Keeps Streams (do Response.onConn Conn.flush; let self ← get; pure self.head) :=
    (keeps_onConn_streams _).bind fun _ => keeps_get_bind fun _ _ => keeps_pure _
  exact Triple.weaken hrest (fun _ hr => hr) (fun _ _ hr => hr) fun _ _ _ => trivial

/-- An event stream is announced, begun and flushed. -/
theorem Stable.startEventStream (h : Stable P)
    (hstream : ∀ r, P r → P { r with keepalive := false, streaming := true }) :
    Keeps P Response.startEventStream := by
  refine (h.blind.header _ _).bind fun _ => (h.blind.header _ _).bind fun _ => ?_
  refine Triple.bind (Q := fun _ r => P r ∧ r.streaming = true)
    (triple_modify fun r hr => ⟨hstream r hr, rfl⟩) fun _ => ?_
  refine Triple.bind (Q := fun _ r => P r ∧ Streams r) (Triple.weaken
    (writeHeader_sent (h.writeHeader.and keeps_writeHeader_streaming))
    (fun _ hr => hr) (fun _ _ hr => ⟨hr.1.1, hr.2, .inr (.inr hr.1.2)⟩) fun _ _ hr => hr.1) fun _ => ?_
  refine Triple.bind (Triple.weaken h.flush (fun _ hr => hr) (fun _ _ hr => hr.1)
    fun _ _ hr => hr.1) fun _ => ?_
  exact keeps_get_bind fun _ _ => keeps_pure _

/-- With the headers sent, a property of what was decided by then stays. -/
theorem stable_of_sent (hsent : ∀ r, P r → r.headersWritten = true)
    (hunseen : ∀ {r r'}, P r → Unseen r r' → P r') (hconn : ∀ r conn, P r → P (r.setConn conn)) :
    Stable P := by
  have honConn : ∀ {α : Type} (x : Act Conn α), Keeps P (onConn x) :=
    fun x => keeps_zoom fun r hr _ hs => by cases x _ <;> exact hconn r _ hr
  refine ⟨hunseen, fun r hr => ?_, fun _ => (honConn _).and (keeps_onConn_streams _),
    (honConn _).and (keeps_onConn_streams _)⟩
  rw [writeHeader_done (hsent r hr)]
  exact hr

theorem stable_streams : Stable Streams := by
  refine stable_of_sent (fun _ hr => hr.1) (fun hr hu => ?_) fun _ _ hr => hr
  obtain ⟨hchunked, hlength⟩ := hu.sent hr.1
  rw [Streams, hu.headersWritten, hchunked, hlength, hu.streaming]
  exact hr

theorem stable_delimited : Stable Delimited := by
  refine stable_of_sent (fun _ hr => hr.1) (fun hr hu => ?_) fun _ _ hr => hr
  obtain ⟨hchunked, hlength⟩ := hu.sent hr.1
  rw [Delimited, hu.headersWritten, hchunked, hlength]
  exact hr

theorem keeps_finish_delimited :
    Keeps (fun a : StreamingBodyWriter.Self => Delimited a.res) StreamingBodyWriter.finish :=
  (stable_delimited.finish fun _ hr _ => hr).weaken (fun _ ha => ⟨ha, ha.streams⟩)
    (fun _ _ ha => ha.1) fun _ _ ha => ha.1

/-- A stable property that does not look at whether the response is finished. -/
theorem Stable.kept (h : Stable P)
    (hstream : ∀ r, P r → P { r with keepalive := false, streaming := true })
    (hmark : ∀ r, P r → Streams r → P r.markWritten) : Kept P where
  toStable := h
  startEventStream := h.startEventStream hstream
  finish := ((h.finish hmark).and keeps_finish_delimited).weaken
    (fun _ ha => ⟨⟨ha.1, ha.2.streams⟩, ha.2⟩) (fun _ _ ha => ⟨ha.1.1, ha.2⟩)
    fun _ _ ha => ⟨ha.1.1, ha.2⟩

theorem kept_streams : Kept Streams :=
  stable_streams.kept (fun _ hr => ⟨hr.1, .inr (.inr rfl)⟩) fun _ hr _ => hr

theorem kept_delimited : Kept Delimited := stable_delimited.kept (fun _ hr => hr) fun _ hr _ => hr

theorem kept_of_forall (h : ∀ r, P r) : Kept P := by
  refine Stable.kept ⟨fun _ _ => h _, keeps_of_forall h, fun bytes => ?_, ?_⟩ (fun _ _ => h _)
    fun _ _ _ => h _
  · exact (keeps_of_forall h).and (keeps_onConn_streams _)
  · exact (keeps_of_forall h).and (keeps_onConn_streams _)

theorem Kept.guard (h : Kept P) (o : Prop) : Kept fun r => o → P r := by
  by_cases ho : o
  · have hprop : (fun r => o → P r) = P := funext fun r => propext ⟨fun hr => hr ho, fun hr _ => hr⟩
    rw [hprop]
    exact h
  · exact kept_of_forall fun _ h => absurd h ho

/-- What is sent stays sent once something was handed out that needs that. -/
theorem Kept.opened (h : Kept P) (o w : Prop) :
    Kept fun r => P r ∧ (o → Streams r) ∧ (w → Delimited r) :=
  h.and ((kept_streams.guard o).and (kept_delimited.guard w))

end Response

/-! ### Runs of a handler -/

namespace HandlerState

/-- Something exists that is only handed out with the headers sent. -/
def Opened (st : HandlerState) : Prop :=
  st.stream.isSome ∨ st.events.isSome ∨ st.eventWriters ≠ []

/-- The response has the property, its headers are sent if something was handed out that needs
that, and a streaming writer exists only for a body that is delimited. -/
def Has (P : Response → Prop) (st : HandlerState) : Prop :=
  P st.res ∧ (st.Opened → Response.Streams st.res) ∧
    (st.stream.isSome = true → Response.Delimited st.res)

variable {P : Response → Prop}

theorem keeps_onRes {α : Type} {x : Act Response α}
    (h : ∀ o w : Prop, Keeps (fun r => P r ∧ (o → Response.Streams r) ∧
      (w → Response.Delimited r)) x) :
    Keeps (Has P) (onRes x) := by
  intro st hst
  unfold onRes zoom
  cases hx : x st.res with
  | ok v r => exact (h st.Opened (st.stream.isSome = true)).ok hst hx
  | error e r => exact (h st.Opened (st.stream.isSome = true)).error hst hx

theorem keeps_onBodyWriter {x : Act Response Unit}
    (h : ∀ o w : Prop, Keeps (fun r => P r ∧ (o → Response.Streams r) ∧
      (w → Response.Delimited r)) x) :
    Keeps (Has P) (onBodyWriter x) :=
  keeps_get_bind fun _ _ => (keeps_onRes h).when _

theorem keeps_onStream {x : Act StreamingBodyWriter.Self Unit}
    (h : Keeps (fun a => P a.res ∧ Response.Delimited a.res) x) : Keeps (Has P) (onStream x) := by
  intro st hst
  unfold onStream
  rw [bind_ok (get_run st)]
  cases hs : st.stream with
  | none => exact hst
  | some w =>
      have hlive : P st.res ∧ Response.Delimited st.res := ⟨hst.1, hst.2.2 (by rw [hs]; rfl)⟩
      unfold zoom
      cases hx : x ⟨st.res, st.stream.getD w⟩ with
      | ok v a =>
          have ha := h.ok hlive hx
          simp only [hx]
          exact ⟨ha.1, fun _ => ha.2.streams, fun _ => ha.2⟩
      | error e a =>
          have ha := h.error hlive hx
          simp only [hx]
          exact ⟨ha.1, fun _ => ha.2.streams, fun _ => ha.2⟩

/-- An action through an event stream leaves a delimited body delimited. -/
theorem keeps_onEvents {x : Act EventWriter.Self Unit}
    (h : ∀ w : Prop, Keeps (Attached.Live fun r => P r ∧ (w → Response.Delimited r)) x) :
    Keeps (Has P) (onEvents x) := by
  intro st hst
  unfold onEvents
  rw [bind_ok (get_run st)]
  cases hs : st.events with
  | none => exact hst
  | some d =>
      have hlive : Attached.Live (fun r => P r ∧ (st.stream.isSome = true → Response.Delimited r))
          (⟨st.res, ⟨d, false⟩⟩ : EventWriter.Self) :=
        ⟨⟨hst.1, hst.2.2⟩, hst.2.1 (.inr (.inl (by rw [hs]; rfl)))⟩
      unfold zoom
      cases hx : x ⟨st.res, ⟨d, false⟩⟩ with
      | ok v a =>
          have ha := (h (st.stream.isSome = true)).ok hlive hx
          simp only [hx]
          exact ⟨ha.1.1, fun _ => ha.2, ha.1.2⟩
      | error e a =>
          have ha := (h (st.stream.isSome = true)).error hlive hx
          simp only [hx]
          exact ⟨ha.1.1, fun _ => ha.2, ha.1.2⟩

theorem keeps_onEventWriter (i : ℕ) {x : Act EventWriter.Self Unit}
    (h : ∀ w : Prop, Keeps (Attached.Live fun r => P r ∧ (w → Response.Delimited r)) x) :
    Keeps (Has P) (onEventWriter i x) := by
  intro st hst
  unfold onEventWriter
  rw [bind_ok (get_run st)]
  cases hs : st.eventWriters[i]? with
  | none => exact hst
  | some w =>
      have hne : st.eventWriters ≠ [] := by
        rintro hnil
        simp [hnil] at hs
      have hlive : Attached.Live (fun r => P r ∧ (st.stream.isSome = true → Response.Delimited r))
          (⟨st.res, st.eventWriters.getD i w⟩ : EventWriter.Self) :=
        ⟨⟨hst.1, hst.2.2⟩, hst.2.1 (.inr (.inr hne))⟩
      unfold zoom
      cases hx : x ⟨st.res, st.eventWriters.getD i w⟩ with
      | ok v a =>
          have ha := (h (st.stream.isSome = true)).ok hlive hx
          simp only [hx]
          exact ⟨ha.1.1, fun _ => ha.2, ha.1.2⟩
      | error e a =>
          have ha := (h (st.stream.isSome = true)).error hlive hx
          simp only [hx]
          exact ⟨ha.1.1, fun _ => ha.2, ha.1.2⟩

end HandlerState

namespace Executor

open HandlerState Response

variable {P : Response → Prop} (h : Kept P)
include h

theorem keeps_assign {f : Response → Response} (hf : ∀ r, Unseen r (f r)) :
    Keeps (Has P) (onRes (modify f)) :=
  keeps_onRes fun o w => (h.opened o w).blind.assign hf

omit h in
theorem keeps_streamOp {x : Act StreamingBodyWriter.Self Unit}
    (hx : Keeps (Attached.Live fun r => P r ∧ Delimited r) x) : Keeps (Has P) (onStream x) :=
  keeps_onStream (hx.weaken (fun _ ha => ⟨ha, ha.2.streams⟩) (fun _ _ ha => ha.1) fun _ _ ha => ha.1)

theorem keeps_stream (cap : ℕ) : Keeps (Has P) (exec (.stream cap)) := by
  intro st hst
  rw [exec, bind_run]
  unfold onRes zoom
  cases hx : Response.stream st.res with
  | ok v r =>
      obtain ⟨hr, hw⟩ := h.stream.ok hst.1 hx
      exact ⟨hr, fun _ => hw.streams, fun _ => hw⟩
  | error e r => exact (h.opened st.Opened (st.stream.isSome = true)).stream.error hst hx

theorem keeps_startEventStream : Keeps (Has P) (exec .startEventStream) := by
  intro st hst
  rw [exec, bind_run]
  unfold onRes zoom
  have hopened := (h.opened st.Opened (st.stream.isSome = true)).startEventStream
  cases hx : Response.startEventStream st.res with
  | ok v r =>
      have hr := hopened.ok hst hx
      exact ⟨hr.1, fun _ => startEventStream_streams.ok trivial hx, hr.2.2⟩
  | error e r => exact hopened.error hst hx

/-- What an event stream writes, over a body that is delimited or not. -/
theorem stable_events (w : Prop) : Stable fun r => P r ∧ (w → Delimited r) :=
  (h.and (kept_delimited.guard w)).toStable

theorem keeps_startSend (opts : EventOptions) : Keeps (Has P) (exec (.startSend opts)) := by
  rw [exec]
  refine (keeps_onEvents fun w => EventWriter.keeps_startSend (stable_events h w).carried opts).bind
    fun _ => ?_
  refine keeps_modify fun st hst => ⟨hst.1, fun hopen => hst.2.1 ?_, hst.2.2⟩
  rcases hopen with hs | hs | hs
  · exact .inl hs
  · exact .inr (.inl hs)
  · cases he : st.events with
    | none => exact .inr (.inr (by simpa [he] using hs))
    | some d => exact .inr (.inl (by rw [he]; rfl))

/-- **No operation of a handler breaks the property.** -/
theorem keeps_exec (op : Op) : Keeps (Has P) (exec op) := by
  have hstream : Stable fun r => P r ∧ Delimited r :=
    (h.and kept_delimited).toStable
  cases op with
  | setStatus status =>
      exact keeps_assign h fun _ => ⟨rfl, rfl, rfl, rfl, rfl, id, fun _ => rfl, fun _ => ⟨rfl, rfl⟩⟩
  | setBody body =>
      exact keeps_assign h fun _ => ⟨rfl, rfl, rfl, rfl, rfl, id, fun _ => rfl, fun _ => ⟨rfl, rfl⟩⟩
  | setContentType contentType =>
      exact keeps_assign h fun _ => ⟨rfl, rfl, rfl, rfl, rfl, id, fun _ => rfl, fun _ => ⟨rfl, rfl⟩⟩
  | header name value => exact keeps_onRes fun o w => (h.opened o w).blind.header name value
  | setCookie name value opts => exact keeps_onRes fun o w => (h.opened o w).blind.setCookie name value opts
  | json text => exact keeps_onRes fun o w => (h.opened o w).blind.json text
  | writer =>
      refine Keeps.bind (keeps_onRes fun o w => ?_) fun _ => keeps_modify fun _ hs => hs
      exact (h.opened o w).blind.startBody.weaken (fun _ hr => hr) (fun _ _ hr => hr.1) fun _ _ hr => hr
  | bodyWrite bytes => exact keeps_onBodyWriter fun o w => (h.opened o w).blind.bodyWrite bytes
  | bodyEnd => exact keeps_onBodyWriter fun o w => (h.opened o w).blind.bodyEnd
  | clearWriter => exact keeps_onRes fun o w => (h.opened o w).blind.clearWriter
  | resetBody => exact keeps_onRes fun o w => (h.opened o w).blind.resetBody
  | stream cap => exact keeps_stream h cap
  | streamWrite bytes =>
      exact keeps_streamOp (StreamingBodyWriter.keeps_writeAll hstream bytes)
  | streamSplat data pattern splat =>
      exact keeps_streamOp (StreamingBodyWriter.keeps_writeSplatAll hstream data pattern splat)
  | streamFlush => exact keeps_streamOp (StreamingBodyWriter.keeps_flush hstream)
  | streamEnd => exact keeps_onStream h.finish
  | writeHeader => exact keeps_onRes fun o w => (h.opened o w).writeHeader
  | startEventStream => exact keeps_startEventStream h
  | send data opts => exact keeps_onEvents fun w => EventWriter.keeps_send (stable_events h w).carried data opts
  | startSend opts => exact keeps_startSend h opts
  | eventWrite i bytes =>
      exact keeps_onEventWriter i fun w => EventWriter.keeps_writeAll (stable_events h w).carried bytes
  | eventEnd i => exact keeps_onEventWriter i fun w => EventWriter.keeps_finish (stable_events h w).carried
  | handleNotFound => exact keeps_onRes fun o w => (h.opened o w).blind.handleNotFound

/-- **No run of a handler breaks the property.** -/
theorem keeps_runOps : ∀ ops : List Op, Keeps (Has P) (runOps ops)
  | [] => keeps_pure _
  | op :: rest =>
      (keeps_exec h op).attempt.bind fun _ => (keeps_runOps rest).bind fun _ => keeps_pure _

end Executor
end Dusty
