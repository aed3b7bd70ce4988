import Dusty.FailedStreams
import Dusty.StatusLines

/-! # Responses that are finished

Once `end` or `write` has finished a response, nothing that is done with it may reach the wire.  `Finished` is
what the first of them leaves behind, and every later operation keeps it.  What is left of a writer keeps its
buffer, and a write or a flush that drains it is the one thing that is not stopped. -/

namespace Dusty

open Act

/-- A function of the response itself, or of the streaming writer that `stream` returned. -/
def Op.own : Op → Bool
  | .bodyWrite _ | .bodyEnd | .send .. | .startSend _ | .eventWrite .. | .eventEnd _ => false
  | _ => true

/-- A write or a flush on the interface of the streaming writer. -/
def Op.streamed : Op → Option StreamingBodyWriter.WriteOp
  | .streamWrite bytes => some (.write bytes)
  | .streamSplat data pattern splat => some (.splat data pattern splat)
  | .streamFlush => some .flush
  | _ => none

namespace Response

/-- The two responses differ in nothing that is sent or that says what is left to send. -/
structure SameWire (r r' : Response) : Prop where
  conn : r'.conn = r.conn
  headersWritten : r'.headersWritten = r.headersWritten
  written : r'.written = r.written
  bodyWriterOpen : r'.bodyWriterOpen = r.bodyWriterOpen
  head : r'.head = r.head
  keepalive : r'.keepalive = r.keepalive
  chunked : r'.chunked = r.chunked
  contentLength : r'.contentLength = r.contentLength
  bodySent : r'.bodySent = r.bodySent

theorem SameWire.refl (r : Response) : SameWire r r := ⟨rfl, rfl, rfl, rfl, rfl, rfl, rfl, rfl, rfl⟩

section sent
variable {self : Response}

theorem header_sent (name value : Bytes) (h : self.headersWritten = true) :
    header name value self = .error (.err .headersAlreadySent) self := by
  unfold header
  rw [bind_ok (get_run self), if_pos h]
  rfl

theorem setCookie_sent (name value : Bytes) (opts : CookieOpts) (h : self.headersWritten = true) :
    setCookie name value opts self = .error (.err .headersAlreadySent) self := by
  unfold setCookie
  rw [bind_ok (get_run self), if_pos h]
  rfl

theorem startBody_sent (h : self.headersWritten = true) :
    startBody self = .error (.panic .assertion) self := by
  unfold startBody
  rw [bind_ok (get_run self)]
  cases hopen : self.bodyWriterOpen with
  | true => rfl
  | false =>
      rw [Bool.not_false, bind_ok (assert_true rfl self), h]
      rfl

theorem json_sent (text : Bytes) (h : self.headersWritten = true) :
    json text self =
      .error (.err .headersAlreadySent) { self with buffer := self.buffer ++ text } := by
  unfold json bodyWrite
  rw [bind_ok (modify_run ..)]
  exact header_sent _ _ h

theorem stream_sent (h : self.headersWritten = true) :
    stream self = .error (.panic .assertion) self := bind_error (startBody_sent h)

theorem startEventStream_sent (h : self.headersWritten = true) :
    startEventStream self = .error (.err .headersAlreadySent) self := bind_error (header_sent _ _ h)

theorem resetBody_sent (h : self.headersWritten = true) :
    resetBody self = .error (.panic .assertion) self := by
  unfold resetBody
  rw [bind_ok (get_run self), h]
  rfl

end sent
end Response

namespace Executor

open HandlerState Response StreamingBodyWriter

theorem final_onRes {α : Type} (x : Act Response α) (st : HandlerState) :
    final (onRes x) st = st.setRes (final x st.res) := by
  unfold final onRes zoom
  cases x st.res <;> rfl

/-- **With the headers sent, no operation touches the wire** but those of the streaming writer. -/
theorem exec_sent {op : Op} {st : HandlerState} (hown : op.own = true) (hstreamed : op.streamed = none)
    (hend : op ≠ .streamEnd) (h : st.res.headersWritten = true) :
    ∃ r, final (exec op) st = st.setRes r ∧ SameWire st.res r := by
  -- a function that fails before it does anything
  have hfails : ∀ {α β : Type} {x : Act Response α} {f : α → Act HandlerState β} {e : Fault},
      x st.res = .error e st.res → ∃ r, final (onRes x >>= f) st = st.setRes r ∧ SameWire st.res r := by
    intro α β x f e hx
    have hrun : onRes x st = .error e st := by
      unfold onRes zoom
      rw [hx]
      rfl
    exact ⟨st.res, final_of_error (bind_error hrun), .refl _⟩
  cases op with
  | setStatus status => exact ⟨_, rfl, rfl, rfl, rfl, rfl, rfl, rfl, rfl, rfl, rfl⟩
  | setBody body => exact ⟨_, rfl, rfl, rfl, rfl, rfl, rfl, rfl, rfl, rfl, rfl⟩
  | setContentType contentType => exact ⟨_, rfl, rfl, rfl, rfl, rfl, rfl, rfl, rfl, rfl, rfl⟩
  | header name value =>
      rw [exec, final_onRes, final_of_error (header_sent name value h)]
      exact ⟨_, rfl, .refl _⟩
  | setCookie name value opts =>
      rw [exec, final_onRes, final_of_error (setCookie_sent name value opts h)]
      exact ⟨_, rfl, .refl _⟩
  | json text =>
      rw [exec, final_onRes, final_of_error (json_sent text h)]
      exact ⟨_, rfl, rfl, rfl, rfl, rfl, rfl, rfl, rfl, rfl, rfl⟩
  | writer => exact hfails (startBody_sent h)
  | bodyWrite bytes => cases hown
  | bodyEnd => cases hown
  | clearWriter => exact ⟨_, rfl, rfl, rfl, rfl, rfl, rfl, rfl, rfl, rfl, rfl⟩
  | resetBody =>
      rw [exec, final_onRes, final_of_error (resetBody_sent h)]
      exact ⟨_, rfl, .refl _⟩
  | stream cap => exact hfails (stream_sent h)
  | streamWrite bytes => cases hstreamed
  | streamSplat data pattern splat => cases hstreamed
  | streamFlush => cases hstreamed
  | streamEnd => exact absurd rfl hend
  | writeHeader =>
      rw [exec, final_onRes, final_of_ok (writeHeader_done h)]
      exact ⟨_, rfl, .refl _⟩
  | startEventStream => exact hfails (startEventStream_sent h)
  | send data opts => cases hown
  | startSend opts => cases hown
  | eventWrite i bytes => cases hown
  | eventEnd i => cases hown
  | handleNotFound =>
      have hrun : handleNotFound st.res = .ok () { st.res with
          status := .notFound, contentType := some .text, body := ascii "404 Not Found\n" } := by
        unfold handleNotFound
        rw [bind_ok (get_run st.res), h]
        rfl
      rw [exec, final_onRes, final_of_ok hrun]
      exact ⟨_, rfl, rfl, rfl, rfl, rfl, rfl, rfl, rfl, rfl, rfl⟩

/-- What an operation of the streaming writer leaves. -/
theorem final_onStream {st : HandlerState} {w : StreamingBodyWriter} (x : Act StreamingBodyWriter.Self Unit)
    (h : st.stream = some w) :
    final (onStream x) st = { st with
      res := (final x ⟨st.res, w⟩).res, stream := some (final x ⟨st.res, w⟩).w } := by
  obtain ⟨res, bodyWriter, stream, events, eventWriters⟩ := st
  obtain rfl : stream = some w := h
  unfold onStream final
  rw [bind_ok (get_run _)]
  unfold zoom
  simp only [Option.getD_some]
  cases x ⟨res, w⟩ <;> rfl

theorem final_onStream_none {st : HandlerState} (x : Act StreamingBodyWriter.Self Unit)
    (h : st.stream = none) : final (onStream x) st = st := by
  unfold onStream final
  rw [bind_ok (get_run st), h]
  rfl

/-- A write or a flush on the interface of a writer. -/
theorem exec_streamed {op : Op} {o : WriteOp} (h : op.streamed = some o) : exec op = onStream o.exec := by
  cases op with
  | streamWrite bytes =>
      cases h
      rfl
  | streamSplat data pattern splat =>
      cases h
      rfl
  | streamFlush =>
      cases h
      rfl
  | _ => cases h

/-! ### Before the response is finished -/

/-- The response is not finished, and the body of a writer that was handed out is open. -/
structure Unfinished (st : HandlerState) : Prop where
  unwritten : st.res.written = false
  opened : st.stream.isSome = true → st.res.headersWritten = true ∧ st.res.bodyWriterOpen = true

theorem stable_unwritten : Stable fun r => r.written = false := by
  have hconn : ∀ {α : Type} (x : Act Conn α), Keeps (fun r => r.written = false) (onConn x) := fun x =>
    keeps_zoom fun r hr _ _ => by cases x _ <;> exact hr
  exact ⟨fun hr hu => hu.written.trans hr, keeps_writeHeader_of hconn (fun _ _ hr => hr) fun _ hr => hr,
    fun _ => (hconn _).and (keeps_onConn_streams _), (hconn _).and (keeps_onConn_streams _)⟩

/-- With the headers open no writer for what is sent exists, and only `stream` hands one out. -/
theorem keeps_open {op : Op} {s : HandlerState} (hown : op.own = true) (hstreamed : op.streamed = none)
    (hend : op ≠ .streamEnd) (hstream : ∀ cap, op ≠ .stream cap) :
    Keeps (fun st => st.res.written = false ∧ st.stream = s.stream) (exec op) := by
  have hsame : ∀ {α : Type} {x : Act Response α}, Keeps (fun r => r.written = false) x →
      Keeps (fun st : HandlerState => st.res.written = false ∧ st.stream = s.stream) (onRes x) := by
    intro α x hx st hst
    unfold onRes zoom
    cases hrun : x st.res with
    | ok a r => exact ⟨hx.ok hst.1 hrun, hst.2⟩
    | error e r => exact ⟨hx.error hst.1 hrun, hst.2⟩
  by_cases hprepares : op.prepares = true
  · intro st hst
    have hkept := keeps_prepares (s := st) stable_unwritten.blind hprepares st ⟨hst.1, rfl, rfl, rfl⟩
    cases hrun : exec op st with
    | ok u st' =>
        rw [hrun] at hkept
        exact ⟨hkept.1, hkept.2.1.trans hst.2⟩
    | error e st' =>
        rw [hrun] at hkept
        exact ⟨hkept.1, hkept.2.1.trans hst.2⟩
  · cases op with
    | writeHeader => exact hsame stable_unwritten.writeHeader
    | startEventStream =>
        exact (hsame (stable_unwritten.startEventStream fun _ hr => hr)).bind fun _ =>
          keeps_modify fun _ hst => hst
    | stream cap => exact absurd rfl (hstream cap)
    | streamEnd => exact absurd rfl hend
    | streamWrite bytes => cases hstreamed
    | streamSplat data pattern splat => cases hstreamed
    | streamFlush => cases hstreamed
    | send data opts => cases hown
    | startSend opts => cases hown
    | eventWrite i bytes => cases hown
    | eventEnd i => cases hown
    | _ => exact absurd rfl hprepares

theorem keeps_stream_unfinished (cap : ℕ) {st : HandlerState} (h : Unfinished st)
    (hnone : st.stream = none) : Unfinished (final (exec (.stream cap)) st) := by
  unfold final
  rw [exec, bind_run]
  unfold onRes zoom
  cases hrun : Response.stream st.res with
  | ok u res =>
      obtain ⟨hdelimited, hopen⟩ := stream_opened hrun
      exact ⟨(stable_unwritten.stream.ok h.unwritten hrun).1, fun _ => ⟨hdelimited.1, hopen⟩⟩
  | error e res =>
      refine ⟨stable_unwritten.stream.error h.unwritten hrun, fun hsome => ?_⟩
      have hsome : st.stream.isSome = true := hsome
      rw [hnone] at hsome
      cases hsome

/-- No operation but the `end` finishes a response. -/
theorem unfinished_exec {op : Op} {st : HandlerState} (h : Unfinished st) (hown : op.own = true)
    (hend : op ≠ .streamEnd) : Unfinished (final (exec op) st) := by
  cases hstreamed : op.streamed with
  | some o =>
      rw [exec_streamed hstreamed]
      cases hs : st.stream with
      | none =>
          rw [final_onStream_none _ hs]
          exact h
      | some w =>
          obtain ⟨conn, sent, hres⟩ := o.exec_progress ⟨st.res, w⟩
          rw [final_onStream _ hs]
          have hopened := h.opened (by rw [hs]; rfl)
          refine ⟨?_, fun _ => ⟨?_, ?_⟩⟩
          · rw [hres]
            exact h.unwritten
          · rw [hres]
            exact hopened.1
          · rw [hres]
            exact hopened.2
  | none =>
      cases hw : st.res.headersWritten with
      | true =>
          obtain ⟨r, hfinal, hsame⟩ := exec_sent hown hstreamed hend hw
          rw [hfinal]
          refine ⟨hsame.written.trans h.unwritten, fun hsome => ?_⟩
          show r.headersWritten = true ∧ r.bodyWriterOpen = true
          rw [hsame.headersWritten, hsame.bodyWriterOpen]
          exact h.opened hsome
      | false =>
          have hnone : st.stream = none := by
            cases hs : st.stream with
            | none => rfl
            | some w =>
                have hsent := (h.opened (by rw [hs]; rfl)).1
                rw [hw] at hsent
                cases hsent
          by_cases hstream : ∃ cap, op = .stream cap
          · obtain ⟨cap, rfl⟩ := hstream
            exact keeps_stream_unfinished cap h hnone
          · have hkept := keeps_open (s := st) hown hstreamed hend fun cap hop => hstream ⟨cap, hop⟩
            obtain ⟨hunwritten, hsame⟩ := keeps_iff_final.mp hkept st ⟨h.unwritten, rfl⟩
            refine ⟨hunwritten, fun hsome => ?_⟩
            rw [hsame, hnone] at hsome
            cases hsome

theorem unfinished_runOps {ops : List Op} (hown : ∀ op ∈ ops, op.own = true ∧ op ≠ .streamEnd)
    {results : List (Except Error Unit)} {st st' : HandlerState} (h : Unfinished st)
    (hrun : runOps ops st = .ok results st') : Unfinished st' := by
  refine (keeps_runOps_of (P := Unfinished) (fun op hop => ?_)).ok h hrun
  obtain ⟨hop₁, hop₂⟩ := hown op hop
  exact keeps_iff_final.mpr fun s hs => unfinished_exec hs hop₁ hop₂

end Executor

/-! ### Finishing -/

namespace Response

/-- Nothing is left to send. -/
structure Done (r : Response) : Prop where
  headersWritten : r.headersWritten = true
  written : r.written = true
  closed : r.bodyWriterOpen = false

theorem keeps_onConn_done {α : Type} (x : Act Conn α) : Keeps Done (onConn x) :=
  keeps_zoom fun r hr _ _ => by cases x _ <;> exact ⟨hr.headersWritten, hr.written, hr.closed⟩

/-- What closes a streaming body: the last chunk, if there are chunks, and a flush. -/
def closing (self : Response) : List (Option Bytes) :=
  (if self.chunked && !self.head then [some lastChunk] else []) ++ [none]

/-- The `write` finishes the response: the transport takes what closes a body that is under way; otherwise
the header block was sent, or there is nothing in the way of sending it. -/
def Settles (self : Response) : Prop :=
  if self.bodyWriterOpen = true ∧ self.headersWritten = true then
    Conn.breaks self.conn.faults self.closing = false
  else self.headersWritten = true ∨ self.chunked = false ∧ self.settledHeaders.toOption.isSome = true

/-- A header block that nothing is in the way of is begun, whatever the transport does. -/
theorem writeHeader_begins {self : Response} (hwritten : self.written = true)
    (hclosed : self.bodyWriterOpen = false) (hs : self.settledHeaders.toOption.isSome = true) :
    Done (final writeHeader self) := by
  cases hw : self.headersWritten with
  | true =>
      rw [final_of_ok (writeHeader_done hw)]
      exact ⟨hw, hwritten, hclosed⟩
  | false =>
      have hput := putContentType_run hw
      cases hsettled : self.settledHeaders with
      | error e => simp [hsettled, Except.toOption] at hs
      | ok headers =>
          rw [hsettled] at hput
          have hrun : writeHeader self = (do
              let self ← get
              writeLine (statusLine self.status)
              writeFields self.headers.entries
              Act.when (!self.keepalive) (writeLine (ascii "Connection: close"))
              writeFraming self
              writeLine [] : Act Response Unit) { self.setHeaders headers with headersWritten := true } := by
            unfold writeHeader
            rw [bind_ok (get_run self), if_neg (by simp [hw]), bind_ok hput, bind_ok (modify_run ..)]
          have hkept : Keeps Done (do
              let self ← get
              writeLine (statusLine self.status)
              writeFields self.headers.entries
              Act.when (!self.keepalive) (writeLine (ascii "Connection: close"))
              writeFraming self
              writeLine [] : Act Response Unit) :=
            keeps_get_bind fun r _ => keeps_block keeps_onConn_done r
          unfold final
          rw [hrun]
          exact keeps_iff_final.mp hkept _ ⟨rfl, hwritten, hclosed⟩

theorem finishBuffered_done {self : Response} (hclosed : self.bodyWriterOpen = false)
    (hsettles : self.headersWritten = true ∨
      self.chunked = false ∧ self.settledHeaders.toOption.isSome = true) :
    Done (final finishBuffered self) := by
  unfold finishBuffered
  rw [final_bind_ok (modify_run ..), final_bind_ok (get_run _)]
  cases hchunked : self.chunked with
  | true =>
      have hw : self.headersWritten = true := hsettles.resolve_right (by simp [hchunked])
      rw [if_pos (show self.markWritten.chunked = true from hchunked)]
      have hkeeps : Keeps Done (do writeTerminator self.markWritten; onConn Conn.flush : Act Response Unit) :=
        (Keeps.when (keeps_onConn_done _) _).bind fun _ => keeps_onConn_done _
      exact keeps_iff_final.mp hkeeps _ ⟨hw, rfl, hclosed⟩
  | false =>
      rw [if_neg (show ¬self.markWritten.chunked = true by simp [hchunked])]
      refine final_bind_of (P := Done) ?_ fun _ => ?_
      · rcases hsettles with hw | ⟨-, hs⟩
        · rw [final_of_ok (@writeHeader_done self.markWritten hw)]
          exact ⟨hw, rfl, hclosed⟩
        · exact writeHeader_begins rfl hclosed hs
      · refine keeps_get_bind fun r _ => ?_
        exact Keeps.bind (Keeps.when (keeps_onConn_done _) _) fun _ => keeps_onConn_done _

/-- What closes a streaming body, when nothing of it is refused. -/
theorem settleAbandoned_flush (self r : Response) (hconn : r.conn = self.conn)
    (h : Conn.breaks self.conn.faults self.closing = false) :
    ∃ r' : Response, (do settleAbandoned self; onConn Conn.flush : Act Response Unit) r = .ok () r' ∧
      r'.headersWritten = r.headersWritten ∧ r'.bodyWriterOpen = r.bodyWriterOpen := by
  -- a flush behind a settlement that sends nothing
  have hflush : ∀ r₁ : Response, settleAbandoned self r = .ok () r₁ → r₁.conn = self.conn →
      r₁.headersWritten = r.headersWritten → r₁.bodyWriterOpen = r.bodyWriterOpen →
      self.closing = [none] → ∃ r' : Response,
        (do settleAbandoned self; onConn Conn.flush : Act Response Unit) r = .ok () r' ∧
        r'.headersWritten = r.headersWritten ∧ r'.bodyWriterOpen = r.bodyWriterOpen := by
    intro r₁ hsettle hconn₁ hsent hopen hclosing
    rw [hclosing, ← hconn₁] at h
    obtain ⟨conn, hrun⟩ := @serve_run .body _ _ h
    rw [Conn.serve_none] at hrun
    exact ⟨r₁.setConn conn, by rw [bind_ok hsettle, hrun], hsent, hopen⟩
  cases hchunked : self.chunked with
  | true =>
      cases hhead : self.head with
      | true =>
          refine hflush r ?_ hconn rfl rfl (by simp [closing, hhead])
          unfold settleAbandoned writeTerminator
          rw [if_pos hchunked, hhead]
          rfl
      | false =>
          have hclosing : self.closing = [some lastChunk] ++ [none] := by simp [closing, hchunked, hhead]
          have hserve : (do settleAbandoned self; onConn Conn.flush : Act Response Unit) =
              onConn (Conn.serve .body self.closing) := by
            unfold settleAbandoned writeTerminator
            rw [if_pos hchunked, hhead, hclosing, Conn.serve_append, Conn.serve_some, Conn.serve_none,
              onConn_bind]
            rfl
          rw [← hconn] at h
          obtain ⟨conn, hrun⟩ := @serve_run .body _ _ h
          exact ⟨r.setConn conn, by rw [hserve, hrun], rfl, rfl⟩
  | false =>
      have hclosing : self.closing = [none] := by simp [closing, hchunked]
      cases hlength : self.contentLength with
      | none =>
          refine hflush r ?_ hconn rfl rfl hclosing
          unfold settleAbandoned
          rw [if_neg (by simp [hchunked]), hlength]
          rfl
      | some declared =>
          cases hcount : self.bodySent != declared with
          | true =>
              refine hflush r.noKeepalive ?_ hconn rfl rfl hclosing
              unfold settleAbandoned
              rw [if_neg (by simp [hchunked]), hlength]
              simp only [hcount, when_true]
              rfl
          | false =>
              refine hflush r ?_ hconn rfl rfl hclosing
              unfold settleAbandoned
              rw [if_neg (by simp [hchunked]), hlength]
              simp only [hcount, when_false]
              rfl

/-- **The first `write`** leaves nothing to send. -/
theorem write_done {self : Response} (hunwritten : self.written = false) (h : self.Settles) :
    Done (final write self) := by
  unfold write
  rw [final_bind_ok (get_run self), if_neg (by simp [hunwritten])]
  unfold Settles at h
  cases hopen : self.bodyWriterOpen with
  | true =>
      rw [if_pos rfl, final_bind_ok (modify_run ..)]
      cases hw : self.headersWritten with
      | true =>
          rw [if_pos ⟨hopen, hw⟩] at h
          rw [if_pos rfl]
          obtain ⟨r', hrun, hsent, hclosed⟩ := settleAbandoned_flush self self.closeBody rfl h
          have hmark : finishAbandoned self self.closeBody = .ok () r'.markWritten := by
            unfold finishAbandoned
            rw [← bind_assoc, bind_ok hrun]
            rfl
          rw [final_of_ok hmark]
          exact ⟨hsent.trans hw, rfl, hclosed⟩
      | false =>
          rw [if_neg (by simp [hw])] at h
          rw [if_neg Bool.false_ne_true]
          exact finishBuffered_done rfl (h.imp_left fun hsent => hsent)
  | false =>
      rw [if_neg (by simp [hopen])] at h
      rw [if_neg Bool.false_ne_true]
      exact finishBuffered_done hopen h

end Response

namespace StreamingBodyWriter

open Attached Response

/-- An action on the connection of a writer's response. -/
theorem keeps_conn_done (x : Act Conn Unit) :
    Keeps (fun a : Self => Done a.res) (onRes (Response.onConn x)) :=
  keeps_zoom fun a ha r hr => by
    subst hr
    have h := keeps_onConn_done x a.res ha
    cases hrun : Response.onConn x a.res with
    | ok u r =>
        rw [hrun] at h
        exact h
    | error e r =>
        rw [hrun] at h
        exact h

theorem keeps_flush_done : Keeps (fun a : Self => Done a.res) StreamingBodyWriter.flush := by
  refine keeps_iff_final.mpr fun a ha => ?_
  obtain ⟨conn, sent, hres⟩ := WriteOp.flush.exec_progress a
  show Done (final WriteOp.flush.exec a).res
  rw [hres]
  exact ⟨ha.headersWritten, ha.written, ha.closed⟩

/-- **The first `end`** leaves nothing to send, however it ends. -/
theorem finish_done {a : Self} (hopen : a.res.bodyWriterOpen = true) (hw : a.res.headersWritten = true) :
    Done (final StreamingBodyWriter.finish a).res := by
  unfold StreamingBodyWriter.finish
  rw [final_bind_ok (get_run a), if_neg (by simp [hopen]), final_bind_ok (modify_run ..)]
  refine keeps_iff_final.mp (?_ : Keeps (fun a : Self => Done a.res) _) _ ⟨hw, rfl, rfl⟩
  refine Keeps.onError ?_ fun a ha => ⟨ha.headersWritten, ha.written, ha.closed⟩
  refine (keeps_commit_of (Q := Done) keeps_flush_done).bind fun _ => ?_
  refine ((keeps_commit_of (Q := Done) (keeps_conn_done _)).when _).bind fun _ => ?_
  refine (keeps_commit_of (Q := Done) (keeps_conn_done _)).bind fun _ => keeps_get_bind fun self _ => ?_
  split
  · exact (keeps_fail _).when _
  · exact keeps_pure _

theorem finish_closed {a : Self} (h : a.res.bodyWriterOpen = false) :
    StreamingBodyWriter.finish a = .ok () a := by
  unfold StreamingBodyWriter.finish
  rw [bind_ok (get_run a), if_pos (by simp [h])]
  rfl

end StreamingBodyWriter

/-! ### Behind the end -/

namespace Executor

open HandlerState Response StreamingBodyWriter

/-- A step of the handler or of the server. -/
inductive Step where
  | op (op : Op)
  | write

def Step.run : Step → Act HandlerState Unit
  | .op operation => exec operation
  | .write => onRes Response.write

/-- Steps one after the other, whatever they return. -/
def runSteps : List Step → Act HandlerState (List (Except Error Unit))
  | [] => pure []
  | step :: rest => do
      let result ← attempt step.run
      let results ← runSteps rest
      pure (result :: results)

/-- Nothing that the operation drains reaches the wire: it fits into the buffer, or the response is to a
HEAD, or the transport takes nothing. -/
def Quiet (op : Op) (st : HandlerState) : Prop :=
  ∀ o ∈ op.streamed, ∀ w ∈ st.stream, ∀ d ∈ o.drains ⟨st.res, w⟩,
    st.res.head = true ∨ drainAccepted ⟨st.res, w⟩ d.1 d.2.1 d.2.2 = []

/-- Every operation is one of the response or its streaming writer, and is quiet where it is run. -/
def AllQuiet : List Step → HandlerState → Prop
  | [], _ => True
  | .write :: rest, st => AllQuiet rest (final (Step.run .write) st)
  | .op op :: rest, st => (op.own = true ∧ Quiet op st) ∧ AllQuiet rest (final (exec op) st)

instance decidableQuiet (op : Op) (st : HandlerState) : Decidable (Quiet op st) := by
  unfold Quiet
  infer_instance

instance decidableAllQuiet : (steps : List Step) → (st : HandlerState) → Decidable (AllQuiet steps st)
  | [], _ => inferInstanceAs (Decidable True)
  | .write :: rest, st => decidableAllQuiet rest (final (Step.run .write) st)
  | .op op :: rest, st =>
      have := decidableAllQuiet rest (final (exec op) st)
      inferInstanceAs (Decidable ((op.own = true ∧ Quiet op st) ∧ _))

/-- The two responses have the same bytes on the wire, and answer the same request. -/
structure SameSent (r r' : Response) : Prop where
  out : r'.conn.out = r.conn.out
  head : r'.head = r.head

theorem SameSent.trans {r r' r'' : Response} (h : SameSent r r') (h' : SameSent r' r'') : SameSent r r'' :=
  ⟨h'.out.trans h.out, h'.head.trans h.head⟩

/-- A quiet operation keeps a finished response as it is on the wire. -/
theorem done_exec {op : Op} {st : HandlerState} (h : Done st.res) (hown : op.own = true)
    (hquiet : Quiet op st) :
    Done (final (exec op) st).res ∧ SameSent st.res (final (exec op) st).res := by
  by_cases hend : op = .streamEnd
  · subst hend
    cases hs : st.stream with
    | none =>
        rw [exec, final_onStream_none _ hs]
        exact ⟨h, rfl, rfl⟩
    | some w =>
        rw [exec, final_onStream _ hs, final_of_ok (@finish_closed ⟨st.res, w⟩ h.closed)]
        exact ⟨h, rfl, rfl⟩
  cases hstreamed : op.streamed with
  | none =>
      obtain ⟨r, hfinal, hsame⟩ := exec_sent hown hstreamed hend h.headersWritten
      rw [hfinal]
      exact ⟨⟨hsame.headersWritten.trans h.headersWritten, hsame.written.trans h.written,
        hsame.bodyWriterOpen.trans h.closed⟩, congrArg Conn.out hsame.conn, hsame.head⟩
  | some o =>
      rw [exec_streamed hstreamed]
      cases hs : st.stream with
      | none =>
          rw [final_onStream_none _ hs]
          exact ⟨h, rfl, rfl⟩
      | some w =>
          have hout := exec_silent (hquiet o hstreamed w hs)
          obtain ⟨conn, sent, hres⟩ := o.exec_progress ⟨st.res, w⟩
          rw [final_onStream _ hs]
          rw [hres] at hout
          show Done (final o.exec ⟨st.res, w⟩).res ∧ SameSent st.res (final o.exec ⟨st.res, w⟩).res
          rw [hres]
          exact ⟨⟨h.headersWritten, h.written, h.closed⟩, hout, rfl⟩

theorem done_write {st : HandlerState} (h : Done st.res) : final (onRes Response.write) st = st := by
  rw [final_onRes]
  unfold Response.write
  rw [final_bind_ok (get_run st.res), if_pos h.written]
  rfl

/-- Quiet steps keep a finished response as it is on the wire. -/
theorem done_runSteps {steps : List Step} {st st' : HandlerState} (h : Done st.res)
    (hquiet : AllQuiet steps st) {results : List (Except Error Unit)}
    (hrun : runSteps steps st = .ok results st') : SameSent st.res st'.res := by
  induction steps generalizing st results with
  | nil =>
      cases hrun
      exact ⟨rfl, rfl⟩
  | cons step rest ih =>
      rw [runSteps] at hrun
      obtain ⟨result, st₁, hstep, hrun⟩ := bind_eq_ok.mp hrun
      obtain ⟨more, st₂, hrest, hrun⟩ := bind_eq_ok.mp hrun
      cases hrun
      obtain rfl := final_of_attempt hstep
      cases step with
      | write =>
          have hsame : final (Step.run .write) st = st := done_write h
          unfold AllQuiet at hquiet
          rw [hsame] at hrest hquiet
          exact ih h hquiet hrest
      | op op =>
          obtain ⟨hdone, hsame⟩ := done_exec h hquiet.1.1 hquiet.1.2
          exact hsame.trans (ih hdone hquiet.2 hrest)

end Executor
end Dusty
