import Dusty.ErrorReply
import Dusty.SealedResponses

/-! # Responses that end with their header block

A response whose status is 1xx, 204 or 304 ends with its header block for every reader.  `Sent` is the invariant
of what is on the wire once the headers are: a header block, and behind it as many bytes as were accounted for,
or chunks.  From it `header_only_iff` reads off when `write` leaves the header block alone; the status is no part
of it. -/

namespace Dusty

open Act

namespace Response

/-- The lines of a header block: a status line, and lines for the fields. -/
def IsHead (lines : List Bytes) : Prop :=
  (∀ line ∈ lines, IsLine line) ∧ ∃ status fields, lines = statusLine status :: fields

/-- Nothing was sent since, or a header block and nothing behind its empty line. -/
def HeaderOnly (base out : Bytes) : Prop :=
  out = base ∨ ∃ lines, IsHead lines ∧ out = base ++ headBlock lines

/-- There is no body: the response is to a HEAD; or it has no chunks, none of a stream was sent, and nothing
is left that `write` would send. -/
def NoBody (self : Response) : Prop :=
  self.head = true ∨ self.chunked = false ∧ self.bodySent = 0 ∧
    (self.written = true ∨ self.bodyWriterOpen = true ∧ self.headersWritten = true ∨ self.bodyBytes = [])

theorem headerOnly_block {base body : Bytes} {lines : List Bytes} (h : IsHead lines) :
    HeaderOnly base (base ++ headBlock lines ++ body) ↔ body = [] := by
  constructor
  · rintro (hnone | ⟨lines', hlines', heq⟩)
    · have hlength := congrArg List.length hnone
      simp only [headBlock, List.length_append, crlf, List.length_cons, List.length_nil] at hlength
      omega
    · rw [List.append_assoc, List.append_cancel_left_eq] at heq
      have hcut := cutHead_headBlock hlines'.1 []
      rw [List.append_nil, ← heq, cutHead_headBlock h.1 body] at hcut
      exact (Prod.mk.inj (Option.some.inj hcut)).2
  · rintro rfl
    exact .inr ⟨lines, h, List.append_nil _⟩

/-- A last chunk without a header block is not one. -/
theorem not_headerOnly_lastChunk (base : Bytes) : ¬HeaderOnly base (base ++ lastChunk) := by
  rintro (hnone | ⟨lines, ⟨hlines, status, fields, rfl⟩, heq⟩)
  · have hlength := congrArg List.length hnone
    simp [lastChunk] at hlength
  · rw [List.append_cancel_left_eq] at heq
    have hfirst := congrArg List.head? heq
    rw [headBlock_cons] at hfirst
    cases hfirst

instance (self : Response) : Decidable self.NoBody := by
  unfold NoBody
  infer_instance

/-! ### The invariant -/

/-- A header block is on the wire, and behind it what was sent of a body. -/
def Sent (base : Bytes) (r : Response) : Prop :=
  ∃ lines body, IsHead lines ∧ r.conn.out = base ++ headBlock lines ++ body ∧
    (r.head = true → body = []) ∧ (r.head = false → r.chunked = false → body.length = r.bodySent) ∧
    (r.head = false → r.chunked = true → r.written = true → body ≠ [])

theorem Sent.append {base piece : Bytes} {r r' : Response} (h : Sent base r)
    (hout : r'.conn.out = r.conn.out ++ piece) (hhead : r'.head = r.head) (hchunked : r'.chunked = r.chunked)
    (hget : r.head = true → piece = [])
    (hcount : r.head = false → r.chunked = false → r'.bodySent = r.bodySent + piece.length)
    (hwritten : r.head = false → r.chunked = true → r'.written = true → r.written = true ∨ piece ≠ []) :
    Sent base r' := by
  obtain ⟨lines, body, hlines, hbody, hnone, hraw, hsome⟩ := h
  refine ⟨lines, body ++ piece, hlines, ?_, ?_, ?_, ?_⟩
  · rw [hout, hbody, List.append_assoc]
  · intro hh
    rw [hhead] at hh
    rw [hnone hh, hget hh]
    rfl
  · intro hh hc
    rw [hhead] at hh
    rw [hchunked] at hc
    rw [List.length_append, hraw hh hc, hcount hh hc]
  · intro hh hc hw hnil
    rw [hhead] at hh
    rw [hchunked] at hc
    obtain ⟨hbody, hpiece⟩ := List.append_eq_nil_iff.mp hnil
    rcases hwritten hh hc hw with hw | hne
    · exact hsome hh hc hw hbody
    · exact hne hpiece

end Response

namespace StreamingBodyWriter

open Attached

/-- On a working transport: so many more chunks that are not empty are on the wire, or their bytes if the body has
no chunks, and none for a HEAD. -/
structure Advances (a : Self) (chunks : List Bytes) (a' : Self) : Prop where
  faults : a'.res.conn.faults = []
  nonempty : ∀ c ∈ chunks, c ≠ []
  none : a.res.head = true → chunks = []
  out : a'.res.conn.out = a.res.conn.out ++ wire a.res.chunked chunks
  sent : a.res.head = false → a'.res.bodySent = a.res.bodySent + chunks.flatten.length
  same : a'.res = a.res.progress a'.res.conn a'.res.bodySent

theorem wire_nil (chunked : Bool) : wire chunked [] = [] := by cases chunked <;> rfl

theorem drain_advances (data : List Bytes) (pattern : Bytes) (splat : ℕ) {a : Self}
    (hfaults : a.res.conn.faults = []) :
    ∃ chunks a', drain data pattern splat a = .ok () a' ∧ Advances a chunks a' := by
  unfold drain
  rw [bind_ok (get_run a)]
  by_cases hsome : drainTotal a data pattern splat = 0
  · rw [if_pos hsome]
    exact ⟨[], a, rfl, hfaults, by simp, fun _ => rfl, by rw [wire_nil, List.append_nil], fun _ => rfl, rfl⟩
  rw [if_neg hsome]
  cases hhead : a.res.head with
  | true =>
      rw [if_pos rfl]
      refine ⟨[], _, rfl, hfaults, by simp, fun _ => rfl, ?_, fun hget => ?_, rfl⟩
      · rw [wire_nil, List.append_nil]
        rfl
      · rw [hhead] at hget
        cases hget
  | false =>
      obtain ⟨conn, hrun, hconn, hout⟩ := puts_record (puts_writeFramed a data pattern splat) a hfaults
      rw [if_neg Bool.false_ne_true, bind_ok hrun]
      refine ⟨[drained a data pattern splat], _, rfl, hconn, ?_, fun hget => ?_, hout, fun _ => ?_, rfl⟩
      · intro c hc
        rw [List.mem_singleton.mp hc]
        exact drained_ne_nil hsome
      · rw [hhead] at hget
        cases hget
      · show a.res.bodySent + drainTotal a data pattern splat = _
        rw [List.flatten_singleton, length_drained]

/-- **A call on a working transport** succeeds, and sends whole chunks. -/
theorem WriteOp.exec_advances (op : WriteOp) {a : Self} (hfaults : a.res.conn.faults = []) :
    ∃ chunks a', op.exec a = .ok () a' ∧ Advances a chunks a' := by
  cases hdrains : op.drains a with
  | none =>
      obtain ⟨buffered, hrun⟩ := WriteOp.exec_keeps hdrains
      exact ⟨[], _, hrun, hfaults, by simp, fun _ => rfl, by rw [wire_nil, List.append_nil], fun _ => rfl, rfl⟩
  | some d =>
      rw [WriteOp.exec_drains hdrains]
      exact drain_advances d.1 d.2.1 d.2.2 hfaults

/-- What a call puts on the wire, on a working transport. -/
theorem WriteOp.exec_piece (op : WriteOp) {a : Self} (hfaults : a.res.conn.faults = []) :
    ∃ conn sent piece, (final op.exec a).res = a.res.progress conn sent ∧
      conn.out = a.res.conn.out ++ piece ∧ (a.res.head = true → piece = []) ∧
      (a.res.head = false → a.res.chunked = false → sent = a.res.bodySent + piece.length) := by
  obtain ⟨chunks, a', hrun, h⟩ := op.exec_advances hfaults
  rw [final_of_ok hrun]
  refine ⟨_, _, _, h.same, h.out, fun hget => ?_, fun hget hc => ?_⟩
  · rw [h.none hget, wire_nil]
  · rw [h.sent hget, hc]
    rfl

end StreamingBodyWriter

namespace Executor

open HandlerState Response StreamingBodyWriter

/-- Behind the headers `Sent` holds as long as the connection is kept, and events are only sent on one that is
not. -/
structure Follows (base : Bytes) (st : HandlerState) : Prop where
  sent : st.res.headersWritten = true → st.res.keepalive = false ∨ Sent base st.res
  events : st.events.isSome = true ∨ st.eventWriters ≠ [] → st.res.keepalive = false

section steps
variable {base : Bytes} {res₀ : Response} {st : HandlerState}

theorem follows_lost {st : HandlerState} (h : st.res.keepalive = false) : Follows base st :=
  ⟨fun _ => .inl h, fun _ => h⟩

theorem Follows.same (h : Follows base st) {r : Response} (hconn : r.conn = st.res.conn)
    (hsent : r.headersWritten = st.res.headersWritten) (hwritten : r.written = st.res.written)
    (hhead : r.head = st.res.head) (hkeep : r.keepalive = st.res.keepalive)
    (hchunked : r.chunked = st.res.chunked) (hcount : r.bodySent = st.res.bodySent) :
    Follows base (st.setRes r) := by
  refine ⟨fun hw => ?_, fun hevents => hkeep.trans (h.events hevents)⟩
  rcases h.sent (hsent.symm.trans hw) with hlost | hsent'
  · exact .inl (hkeep.trans hlost)
  · refine .inr (@Sent.append base [] _ _ hsent' ?_ hhead hchunked (fun _ => rfl) (fun _ _ => hcount) fun _ _ hw => ?_)
    · show r.conn.out = _
      rw [hconn, List.append_nil]
    · exact .inl (hwritten.symm.trans hw)

theorem follows_streamed (h : Follows base st) (hfaults : st.res.conn.faults = []) {op : Op} {o : WriteOp}
    (ho : op.streamed = some o) : Follows base (final (exec op) st) := by
  rw [exec_streamed ho]
  cases hs : st.stream with
  | none =>
      rw [final_onStream_none _ hs]
      exact h
  | some w =>
      obtain ⟨conn, sent, piece, hres, hout, hget, hcount⟩ := @WriteOp.exec_piece o ⟨st.res, w⟩ hfaults
      rw [final_onStream _ hs, hres]
      refine ⟨fun hw => ?_, h.events⟩
      refine (h.sent hw).imp_right fun hsent => ?_
      exact hsent.append hout rfl rfl hget hcount fun _ _ hw => .inl hw

theorem follows_streamEnd (h : Follows base st) (hfaults : st.res.conn.faults = []) :
    Follows base (final (exec .streamEnd) st) := by
  rw [exec]
  cases hs : st.stream with
  | none =>
      rw [final_onStream_none _ hs]
      exact h
  | some w =>
      rw [final_onStream _ hs]
      cases hopen : st.res.bodyWriterOpen with
      | false =>
          rw [final_of_ok (@finish_closed ⟨st.res, w⟩ hopen)]
          exact ⟨h.sent, h.events⟩
      | true =>
          cases hrun : StreamingBodyWriter.finish ⟨st.res, w⟩ with
          | error e a' =>
              rw [final_of_error hrun]
              exact follows_lost (finish_error hrun)
          | ok u a' =>
              rw [final_of_ok hrun]
              obtain ⟨a₁, conn₂, hflush, rfl, hout₂, -⟩ := @finish_ok ⟨st.res, w⟩ a' hopen hrun
              obtain ⟨conn₁, sent, piece, hres, hout₁, hget, hcount⟩ :=
                @WriteOp.exec_piece .flush ⟨st.res.closeBody.markWritten, w⟩ hfaults
              have hfinal : a₁.res = st.res.closeBody.markWritten.progress conn₁ sent := by
                rw [← hres]
                exact congrArg Attached.res (final_of_ok hflush).symm
              have hterm : (if a₁.res.chunked && !a₁.res.head then lastChunk else []) =
                  if st.res.chunked && !st.res.head then lastChunk else [] := by
                rw [hfinal]
                rfl
              have hout : conn₂.out = st.res.conn.out ++
                  (piece ++ if st.res.chunked && !st.res.head then lastChunk else []) := by
                rw [hout₂, hterm, hfinal, ← List.append_assoc]
                exact congrArg (· ++ _) hout₁
              refine ⟨fun hw => ?_, fun hevents => ?_⟩
              · have hw' : st.res.headersWritten = true := by
                  rw [← hw]
                  show _ = a₁.res.headersWritten
                  rw [hfinal]
                  rfl
                refine Or.imp (fun hlost => ?_) (fun hsent => ?_) (h.sent hw')
                · show a₁.res.keepalive = false
                  rw [hfinal]
                  exact hlost
                · refine hsent.append hout ?_ ?_ ?_ ?_ ?_
                  · show a₁.res.head = _
                    rw [hfinal]
                    rfl
                  · show a₁.res.chunked = _
                    rw [hfinal]
                    rfl
                  · intro hhead
                    rw [hget hhead, hhead]
                    simp
                  · intro hhead hc
                    show a₁.res.bodySent = _
                    rw [hfinal, hc, Bool.false_and, if_neg Bool.false_ne_true, List.append_nil]
                    exact hcount hhead hc
                  · intro hhead hc _
                    rw [hhead, hc]
                    exact .inr (by simp [lastChunk])
              · show a₁.res.keepalive = false
                rw [hfinal]
                exact h.events hevents

/-- What is sent through an event stream goes to a connection that is not kept. -/
theorem carried_lost : Carried fun r => r.keepalive = false := by
  have hconn : ∀ {α : Type} (x : Act Conn α), Keeps (fun r => r.keepalive = false ∧ Streams r) (onConn x) :=
    fun x => keeps_zoom fun r hr _ _ => by cases x _ <;> exact hr
  exact ⟨fun _ => hconn _, hconn _⟩

theorem follows_onEvents (h : Follows base st) (hstreams : st.Opened → Streams st.res)
    {x : Act EventWriter.Self Unit} (hx : Keeps (Attached.Live fun r => r.keepalive = false) x) :
    Follows base (final (onEvents x) st) := by
  cases hs : st.events with
  | none =>
      have hnone : onEvents x st = .ok () st := by
        unfold onEvents
        rw [bind_ok (get_run st), hs]
        rfl
      rw [final_of_ok hnone]
      exact h
  | some d =>
      have hsome : st.events.isSome = true := by rw [hs]; rfl
      have hlost : st.res.keepalive = false ∧ Streams st.res := ⟨h.events (.inl hsome), hstreams (.inr (.inl hsome))⟩
      have hkept := keeps_onEvents_of (P := fun r => r.keepalive = false ∧ Streams r) hx
      exact follows_lost (keeps_iff_final.mp hkept st hlost).1

theorem follows_onEventWriter (h : Follows base st) (hstreams : st.Opened → Streams st.res) (i : ℕ)
    {x : Act EventWriter.Self Unit} (hx : Keeps (Attached.Live fun r => r.keepalive = false) x) :
    Follows base (final (onEventWriter i x) st) := by
  cases hs : st.eventWriters[i]? with
  | none =>
      have hnone : onEventWriter i x st = .ok () st := by
        unfold onEventWriter
        rw [bind_ok (get_run st), hs]
        rfl
      rw [final_of_ok hnone]
      exact h
  | some w =>
      have hne : st.eventWriters ≠ [] := by
        rintro hnil
        simp [hnil] at hs
      have hlost : st.res.keepalive = false ∧ Streams st.res := ⟨h.events (.inr hne), hstreams (.inr (.inr hne))⟩
      have hkept := keeps_onEventWriter_of (P := fun r => r.keepalive = false ∧ Streams r) i hx
      exact follows_lost (keeps_iff_final.mp hkept st hlost).1

/-- What is handed out by `startSend` writes to the event stream. -/
theorem follows_startSend (h : Follows base st) (hstreams : st.Opened → Streams st.res) (opts : EventOptions) :
    Follows base (final (exec (.startSend opts)) st) := by
  have hx := EventWriter.keeps_startSend carried_lost opts
  cases hs : st.events with
  | none =>
      have hnone : exec (.startSend opts) st = .ok () { st with eventWriters := st.eventWriters ++ [] } := by
        rw [exec]
        unfold onEvents
        rw [bind_run, bind_ok (get_run st), hs]
        simp only [pure_run, modify_run, hs]
        rfl
      rw [final_of_ok hnone, List.append_nil]
      exact ⟨h.sent, h.events⟩
  | some d =>
      have hsome : st.events.isSome = true := by rw [hs]; rfl
      have hlost : st.res.keepalive = false ∧ Streams st.res := ⟨h.events (.inl hsome), hstreams (.inr (.inl hsome))⟩
      have hkept : Keeps (fun st : HandlerState => st.res.keepalive = false ∧ Streams st.res)
          (exec (.startSend opts)) :=
        Keeps.bind (keeps_onEvents_of (P := fun r => r.keepalive = false ∧ Streams r) hx) fun _ =>
          keeps_modify fun _ hst => hst
      exact follows_lost (keeps_iff_final.mp hkept st hlost).1

/-- With the headers open nothing exists that is only handed out with the headers sent. -/
theorem not_opened (hstreams : st.Opened → Streams st.res) (hw : st.res.headersWritten = false) :
    ¬st.Opened := by
  intro hopen
  have hsent := (hstreams hopen).1
  rw [hw] at hsent
  cases hsent

theorem follows_open {st' : HandlerState} (hnone : ¬st.Opened) (hw : st'.res.headersWritten = false)
    (hsame : SameWriters st st') : Follows base st' := by
  refine ⟨fun hsent => ?_, fun hevents => absurd ?_ hnone⟩
  · rw [hw] at hsent
    cases hsent
  · rw [hsame.2.1, hsame.2.2] at hevents
    exact .inr hevents

theorem follows_prepares (h : Follows base st) (hstreams : st.Opened → Streams st.res) {op : Op}
    (hop : op.prepares = true) : Follows base (final (exec op) st) := by
  cases hw : st.res.headersWritten with
  | false =>
      have hblind : Blind fun r => r.headersWritten = false := fun _ _ hr hu => hu.headersWritten.trans hr
      have hkept := keeps_prepares (s := st) hblind hop
      obtain ⟨hopen, hsame⟩ := keeps_iff_final.mp hkept st ⟨hw, rfl, rfl, rfl⟩
      exact follows_open (not_opened hstreams hw) hopen hsame
  | true =>
      by_cases hown : op.own = true
      · have hstreamed : op.streamed = none := by cases op <;> first | rfl | cases hop
        have hend : op ≠ .streamEnd := by
          rintro rfl
          cases hop
        obtain ⟨r, hfinal, hsame⟩ := exec_sent hown hstreamed hend hw
        rw [hfinal]
        exact h.same hsame.conn hsame.headersWritten hsame.written hsame.head hsame.keepalive hsame.chunked
          hsame.bodySent
      · -- a `BodyWriter` fills the buffer, or closes the body
        cases op with
        | bodyWrite bytes =>
            rw [exec]
            unfold onBodyWriter
            rw [final_bind_ok (get_run st)]
            cases st.bodyWriter with
            | false => exact h
            | true => exact h.same rfl rfl rfl rfl rfl rfl rfl
        | bodyEnd =>
            rw [exec]
            unfold onBodyWriter
            rw [final_bind_ok (get_run st)]
            cases st.bodyWriter with
            | false => exact h
            | true =>
                rw [when_true, final_onRes]
                unfold Response.bodyEnd
                rw [final_bind_ok (get_run st.res)]
                cases st.res.bodyWriterOpen with
                | false => exact h
                | true => exact h.same rfl rfl rfl rfl rfl rfl rfl
        | _ => first | exact absurd rfl hown | cases hop

/-- With the headers open, the header block is all that `writeHeader` sends. -/
theorem sent_writeHeader {r : Response} (hsound : Sound res₀ False st.res) (hw : st.res.headersWritten = false)
    (hrun : Response.writeHeader st.res = .ok () r) : Sent res₀.conn.out r := by
  obtain ⟨hwritten, -, hzero, hconn⟩ := hsound.fresh hw
  rw [writeHeader_run hsound.faults hw] at hrun
  cases hs : st.res.settledHeaders with
  | error e =>
      rw [hs] at hrun
      cases hrun
  | ok headers =>
      rw [hs] at hrun
      cases hrun
      have hvalid : HeadersValid headers := settledHeaders_valid hsound.valid hs
      refine ⟨(st.res.setHeaders headers).headLines, [], ⟨isLine_headLines hvalid, _, _, rfl⟩, ?_, fun _ => rfl,
        fun _ _ => hzero.symm, fun _ _ hdone => ?_⟩
      · rw [List.append_nil, ← hconn]
        exact Conn.out_wroteLines_block _ _
      · rw [show (st.res.setHeaders headers).sentHead.written = st.res.written from rfl, hwritten] at hdone
        cases hdone

theorem follows_writeHeader (h : Follows res₀.conn.out st) (hsound : Sound res₀ False st.res)
    (hstreams : st.Opened → Streams st.res) : Follows res₀.conn.out (final (exec .writeHeader) st) := by
  rw [exec, final_onRes]
  cases hw : st.res.headersWritten with
  | true =>
      rw [final_of_ok (writeHeader_done hw)]
      exact h.same rfl rfl rfl rfl rfl rfl rfl
  | false =>
      have hnone := not_opened hstreams hw
      cases hrun : Response.writeHeader st.res with
      | ok u r =>
          rw [final_of_ok hrun]
          exact ⟨fun _ => .inr (sent_writeHeader hsound hw hrun), fun hevents => absurd (.inr hevents) hnone⟩
      | error e r =>
          rw [final_of_error hrun]
          rw [writeHeader_run hsound.faults hw] at hrun
          refine follows_open hnone ?_ ⟨rfl, rfl, rfl⟩
          cases hs : st.res.settledHeaders with
          | error e =>
              rw [hs] at hrun
              cases hrun
              exact hw
          | ok headers =>
              rw [hs] at hrun
              cases hrun

/-- A `stream` that fails on a working transport has sent nothing. -/
theorem stream_error {self r : Response} {e : Fault} (hfaults : self.conn.faults = [])
    (hw : self.headersWritten = false) (hrun : Response.stream self = .error e r) : r.headersWritten = false := by
  have hblind : Blind fun r => r.headersWritten = false ∧ r.conn.faults = [] := fun r r' hr hu =>
    ⟨hu.headersWritten.trans hr.1, by rw [hu.conn]; exact hr.2⟩
  have hheader : Triple (fun r => r.headersWritten = false ∧ r.conn.faults = []) Response.writeHeader
      (fun _ _ => True) (fun _ r => r.headersWritten = false) := by
    intro r hr
    rw [writeHeader_run hr.2 hr.1]
    cases r.settledHeaders with
    | error e => exact hr.1
    | ok headers => trivial
  have hstream : Triple (fun r => r.headersWritten = false ∧ r.conn.faults = []) Response.stream
      (fun _ _ => True) (fun _ r => r.headersWritten = false) := by
    refine Triple.bind (hblind.startBody.weaken (fun _ hr => hr) (fun _ _ hr => hr) fun _ _ hr => hr.1) fun _ => ?_
    refine Triple.bind ?_ fun _ => hheader
    exact hblind.decideFraming.weaken (fun _ hr => hr) (fun _ _ hr => hr.1) fun _ _ hr => hr.1
  exact hstream.error ⟨hw, hfaults⟩ hrun

theorem follows_stream (h : Follows res₀.conn.out st) (hsound : Sound res₀ False st.res)
    (hstreams : st.Opened → Streams st.res) (cap : ℕ) :
    Follows res₀.conn.out (final (exec (.stream cap)) st) := by
  cases hw : st.res.headersWritten with
  | true =>
      obtain ⟨r, hfinal, hsame⟩ := @exec_sent (.stream cap) st rfl rfl (by simp) hw
      rw [hfinal]
      exact h.same hsame.conn hsame.headersWritten hsame.written hsame.head hsame.keepalive hsame.chunked
        hsame.bodySent
  | false =>
      have hnone := not_opened hstreams hw
      obtain ⟨hwritten, -, hzero, hconn⟩ := hsound.fresh hw
      unfold final
      rw [exec, bind_run]
      unfold onRes zoom
      cases hrun : Response.stream st.res with
      | error e r => exact follows_open hnone (stream_error hsound.faults hw hrun) ⟨rfl, rfl, rfl⟩
      | ok u r =>
          obtain ⟨-, lines, hlines, hstatus, hout, -, -, -, hdone, -, hcount, -⟩ :=
            stream_ok hsound.faults hsound.valid hrun
          refine ⟨fun _ => .inr ⟨lines, [], ⟨hlines, hstatus⟩, ?_, fun _ => rfl, fun _ _ => ?_,
            fun _ _ hfinished => ?_⟩, fun hevents => absurd (.inr hevents) hnone⟩
          · show r.conn.out = _
            rw [hout, hconn, List.append_nil]
          · exact (hcount.trans hzero).symm
          · have hunwritten : r.written = false := hdone.trans hwritten
            rw [show r.written = true from hfinished] at hunwritten
            cases hunwritten

theorem follows_startEventStream (h : Follows base st) (hstreams : st.Opened → Streams st.res) :
    Follows base (final (exec .startEventStream) st) := by
  cases hw : st.res.headersWritten with
  | true =>
      obtain ⟨r, hfinal, hsame⟩ := @exec_sent .startEventStream st rfl rfl (by simp) hw
      rw [hfinal]
      exact h.same hsame.conn hsame.headersWritten hsame.written hsame.head hsame.keepalive hsame.chunked
        hsame.bodySent
  | false =>
      have hnone := not_opened hstreams hw
      have hblind : Blind fun r => r.headersWritten = false := fun _ _ hr hu => hu.headersWritten.trans hr
      have hconn : ∀ {α : Type} (x : Act Conn α), Keeps (fun r => r.keepalive = false) (onConn x) := fun x =>
        keeps_zoom fun r hr _ _ => by cases x _ <;> exact hr
      -- the headers stay open until the connection is given up
      have hstart : Triple (fun r => r.headersWritten = false) Response.startEventStream
          (fun _ r => r.keepalive = false) (fun _ r => r.headersWritten = false ∨ r.keepalive = false) := by
        have hfield : ∀ name value, Triple (fun r => r.headersWritten = false) (Response.header name value)
            (fun _ r => r.headersWritten = false) (fun _ r => r.headersWritten = false ∨ r.keepalive = false) :=
          fun name value => Triple.weaken (hblind.header name value) (fun _ hr => hr) (fun _ _ hr => hr)
            fun _ _ hr => .inl hr
        refine (hfield _ _).bind fun _ => (hfield _ _).bind fun _ => ?_
        refine Triple.bind (triple_modify (Q := fun _ r => r.keepalive = false) fun _ _ => rfl) fun _ => ?_
        have hrest : Keeps (fun r => r.keepalive = false) (do
            Response.writeHeader; onConn Conn.flush; let self ← get; pure self.head) :=
          (keeps_writeHeader_of hconn (fun _ _ hr => hr) fun _ hr => hr).bind fun _ =>
            (hconn _).bind fun _ => keeps_get_bind fun _ _ => keeps_pure _
        exact Triple.weaken hrest (fun _ hr => hr) (fun _ _ hr => hr) fun _ _ hr => .inr hr
      unfold final
      rw [exec, bind_run]
      unfold onRes zoom
      cases hrun : Response.startEventStream st.res with
      | ok discard r => exact follows_lost (hstart.ok hw hrun)
      | error e r =>
          rcases hstart.error hw hrun with hopen | hlost
          · exact follows_open hnone hopen ⟨rfl, rfl, rfl⟩
          · exact follows_lost hlost

/-- **Every operation** of a handler keeps what is known of the wire. -/
theorem follows_exec (h : Follows res₀.conn.out st) (hhas : Has (Sound res₀ False) st) (op : Op) :
    Follows res₀.conn.out (final (exec op) st) := by
  obtain ⟨hsound, hstreams, -⟩ := hhas
  have hfaults := hsound.faults
  cases op with
  | stream cap => exact follows_stream h hsound hstreams cap
  | streamWrite bytes => exact follows_streamed h hfaults rfl
  | streamSplat data pattern splat => exact follows_streamed h hfaults rfl
  | streamFlush => exact follows_streamed h hfaults rfl
  | streamEnd => exact follows_streamEnd h hfaults
  | writeHeader => exact follows_writeHeader h hsound hstreams
  | startEventStream => exact follows_startEventStream h hstreams
  | send data opts => exact follows_onEvents h hstreams (EventWriter.keeps_send carried_lost data opts)
  | startSend opts => exact follows_startSend h hstreams opts
  | eventWrite i bytes => exact follows_onEventWriter h hstreams i (EventWriter.keeps_writeAll carried_lost bytes)
  | eventEnd i => exact follows_onEventWriter h hstreams i (EventWriter.keeps_finish carried_lost)
  | _ => exact follows_prepares h hstreams rfl

theorem follows_runOps {conn : Conn} (hconn : conn.faults = []) {maxHeaders : ℕ} {head keepalive : Bool}
    {ops : List Op} {results : List (Except Error Unit)} {st : HandlerState}
    (hrun : runOps ops (start conn maxHeaders head keepalive) = .ok results st) :
    Follows conn.out st := by
  let st₀ := start conn maxHeaders head keepalive
  have hkept : ∀ op ∈ ops, Keeps (fun st => Follows st₀.res.conn.out st ∧ Has (Sound st₀.res False) st)
      (exec op) := fun op _ => keeps_iff_final.mpr fun s hs =>
    ⟨follows_exec hs.1 hs.2 op, keeps_iff_final.mp (keeps_exec kept_sound op) s hs.2⟩
  have hstart : Follows st₀.res.conn.out st₀ :=
    @follows_open _ st₀ st₀ (by simp [st₀, Opened, start]) rfl ⟨rfl, rfl, rfl⟩
  exact ((keeps_runOps_of hkept).ok ⟨hstart, has_sound_start hconn maxHeaders head keepalive⟩ hrun).1

end steps

end Executor

/-! ### When nothing follows the header block -/

namespace Response

/-- The body of a response whose headers were sent by `writeHeader`. -/
theorem finishBuffered_sent {self r : Response} (hchunked : self.chunked = false)
    (hw : self.headersWritten = true) (hrun : finishBuffered self = .ok () r) :
    r.conn.out = self.conn.out ++ (if self.head then [] else self.bodyBytes) := by
  unfold finishBuffered at hrun
  rw [bind_ok (modify_run ..), bind_ok (get_run _),
    if_neg (show ¬self.markWritten.chunked = true by simp [hchunked]),
    bind_ok (@writeHeader_done self.markWritten hw), bind_ok (get_run _)] at hrun
  obtain ⟨_, r₁, hbody, hflush⟩ := bind_eq_ok.mp hrun
  obtain ⟨conn₂, rfl, hout₂⟩ := Response.flush_ok hflush
  rw [show (r₁.setConn conn₂).conn.out = conn₂.out from rfl, hout₂]
  cases hhead : self.head with
  | true =>
      rw [show self.markWritten.head = true from hhead] at hbody
      cases hbody
      exact (List.append_nil _).symm
  | false =>
      rw [show self.markWritten.head = false from hhead] at hbody
      obtain ⟨conn₁, rfl, hout₁⟩ := Response.writeAll_ok hbody
      exact hout₁

/-- What may follow the header block that is on the wire: nothing, and nothing may have followed it yet. -/
theorem Sent.behind {base : Bytes} {r : Response} (h : Sent base r) : ∃ body : Bytes,
    (∀ piece, HeaderOnly base (r.conn.out ++ piece) ↔ body = [] ∧ piece = []) ∧
    (r.head = true → body = []) ∧ (r.head = false → r.chunked = false → (body = [] ↔ r.bodySent = 0)) ∧
    (r.head = false → r.chunked = true → r.written = true → body ≠ []) := by
  obtain ⟨lines, body, hlines, hout, hget, hraw, hsome⟩ := h
  refine ⟨body, fun piece => ?_, hget, fun hhead hc => ?_, hsome⟩
  · rw [hout, List.append_assoc, headerOnly_block hlines, List.append_eq_nil_iff]
  · rw [← hraw hhead hc, List.length_eq_zero_iff]

/-- When the header block is all that `finishBuffered` leaves. -/
theorem finishBuffered_headerOnly {res₀ self r : Response} (hsound : Sound res₀ False self)
    (hsent : self.headersWritten = true → Sent res₀.conn.out self) (hrun : finishBuffered self = .ok () r) :
    HeaderOnly res₀.conn.out r.conn.out ↔
      self.head = true ∨ self.chunked = false ∧ self.bodySent = 0 ∧ self.bodyBytes = [] := by
  cases hchunked : self.chunked with
  | true =>
      obtain ⟨r', hrun', hout, -⟩ := finishBuffered_chunked hsound.faults hchunked
      rw [hrun] at hrun'
      cases hrun'
      rw [hout]
      cases hw : self.headersWritten with
      | true =>
          obtain ⟨body, hbehind, hget, -, -⟩ := (hsent hw).behind
          rw [hbehind]
          cases hhead : self.head with
          | true => simp [hget hhead]
          | false => simp [lastChunk]
      | false =>
          obtain ⟨-, -, -, hconn⟩ := hsound.fresh hw
          rw [hconn]
          cases hhead : self.head with
          | true => simp [HeaderOnly]
          | false => simpa using not_headerOnly_lastChunk res₀.conn.out
  | false =>
      cases hw : self.headersWritten with
      | true =>
          obtain ⟨body, hbehind, hget, hcount, -⟩ := (hsent hw).behind
          rw [finishBuffered_sent hchunked hw hrun, hbehind]
          cases hhead : self.head with
          | true => simp [hget hhead]
          | false => simp [hcount hhead hchunked]
      | false =>
          obtain ⟨-, -, hzero, hconn⟩ := hsound.fresh hw
          cases hs : self.settledHeaders with
          | error e =>
              obtain ⟨r', hrun', -⟩ := finishBuffered_error hsound.faults hchunked hw hs
              rw [hrun] at hrun'
              cases hrun'
          | ok headers =>
              obtain ⟨r', hrun', hout, -⟩ := finishBuffered_run hsound.faults hchunked hw hs
              rw [hrun] at hrun'
              cases hrun'
              have hhead : IsHead (self.setHeaders headers).headLines :=
                ⟨isLine_headLines (settledHeaders_valid hsound.valid hs), _, _, rfl⟩
              rw [hout, hconn, headerOnly_block hhead, hzero]
              cases self.head with
              | true => simp
              | false => simp

end Response

namespace Executor

open HandlerState Response

/-- **When nothing follows the header block.**  A handler, its middlewares and the executor do what they like
with a response, and the server's `write` succeeds and keeps the connection.  Nothing follows the header block
exactly if the response has no body; whether its status is 1xx, 204, 304 or any other does not matter. -/
theorem header_only_iff {conn : Conn} (hconn : conn.faults = []) (maxHeaders : ℕ) (head keepalive : Bool)
    {ops : List Op} {results : List (Except Error Unit)} {st : HandlerState}
    (hrun : runOps ops (start conn maxHeaders head keepalive) = .ok results st) {res' : Response}
    (hwrite : Response.write st.res = .ok () res') (hkeep : res'.keepalive = true) :
    HeaderOnly conn.out res'.conn.out ↔ st.res.NoBody := by
  have hfollows := follows_runOps hconn hrun
  have hsound : Sound (start conn maxHeaders head keepalive).res False st.res :=
    ((keeps_runOps kept_sound ops).ok (has_sound_start hconn maxHeaders head keepalive) hrun).1
  have hkept : st.res.keepalive = true := by
    cases hlost : st.res.keepalive with
    | true => rfl
    | false =>
        rw [keeps_write_lost.ok hlost hwrite] at hkeep
        cases hkeep
  have hsent : st.res.headersWritten = true → Sent conn.out st.res := fun hw =>
    (hfollows.sent hw).resolve_left (by simp [hkept])
  unfold Response.write at hwrite
  rw [bind_ok (get_run st.res)] at hwrite
  unfold NoBody
  cases hwritten : st.res.written with
  | true =>
      rw [if_pos hwritten] at hwrite
      cases hwrite
      have hw : st.res.headersWritten = true := by
        by_contra hopen
        have hfresh := (hsound.fresh (by simpa using hopen)).1
        rw [hwritten] at hfresh
        cases hfresh
      obtain ⟨body, hbehind, hget, hcount, hsome⟩ := (hsent hw).behind
      have hnil := hbehind []
      rw [List.append_nil] at hnil
      rw [hnil]
      cases hhead : st.res.head with
      | true => simp [hget hhead]
      | false =>
          cases hchunked : st.res.chunked with
          | true => simp [hsome hhead hchunked hwritten]
          | false => simp [hcount hhead hchunked]
  | false =>
      rw [if_neg (by simp [hwritten])] at hwrite
      cases hopen : st.res.bodyWriterOpen with
      | false =>
          rw [if_neg (by simp [hopen])] at hwrite
          refine (finishBuffered_headerOnly hsound hsent hwrite).trans ?_
          simp
      | true =>
          rw [if_pos hopen, bind_ok (modify_run ..)] at hwrite
          cases hw : st.res.headersWritten with
          | false =>
              rw [if_neg (by simp [hw])] at hwrite
              have hclosed : Sound (start conn maxHeaders head keepalive).res False st.res.closeBody :=
                ⟨hsound.faults, hsound.valid, hsound.fresh, hsound.sent, hsound.head⟩
              have hnone : st.res.closeBody.headersWritten = true → Sent conn.out st.res.closeBody :=
                fun hsent' => absurd (show st.res.headersWritten = true from hsent') (by simp [hw])
              refine (finishBuffered_headerOnly hclosed hnone hwrite).trans ?_
              show st.res.head = true ∨ st.res.chunked = false ∧ st.res.bodySent = 0 ∧ st.res.bodyBytes = [] ↔ _
              simp
          | true =>
              rw [if_pos hw] at hwrite
              obtain ⟨body, hbehind, hget, hcount, -⟩ := (hsent hw).behind
              rw [(finishAbandoned_ok hwrite).1]
              show HeaderOnly conn.out (st.res.conn.out ++ _) ↔ _
              rw [hbehind]
              cases hhead : st.res.head with
              | true => simp [hget hhead]
              | false =>
                  cases hchunked : st.res.chunked with
                  | true => simp [lastChunk]
                  | false => simp [hcount hhead hchunked]

/-- The answer to a preflight request. -/
def noContent : Status := ⟨204, by decide⟩

/-- A 204 that is streamed. -/
def streamedNoContent : List Op := [.setStatus noContent, .stream 4, .streamWrite (ascii "hello"), .streamEnd]

theorem header_only_iff_sample :
    ∃ results st res', runOps streamedNoContent (start {} 8 true true) = .ok results st ∧
      Response.write st.res = .ok () res' ∧ res'.conn.out ≠ [] ∧ HeaderOnly [] res'.conn.out := by
  obtain ⟨results, st, hrun⟩ : ∃ results st, runOps streamedNoContent (start {} 8 true true) = .ok results st :=
    returns_iff.mp (by decide +kernel)
  obtain rfl := final_of_ok hrun
  obtain ⟨_, res', hwrite, hres⟩ := yields_iff.mp (show yields (fun _ res => res.keepalive && decide (res.conn.out ≠ []))
      Response.write (final (runOps streamedNoContent) (start {} 8 true true)).res = true by
    decide +kernel)
  obtain ⟨hkeep, hout⟩ := Bool.and_eq_true_iff.mp hres
  exact ⟨results, _, res', hrun, hwrite, of_decide_eq_true hout,
    (header_only_iff rfl 8 true true hrun hwrite hkeep).mpr (.inl (by decide +kernel))⟩

/-- A body behind the header block of a 204, on a connection that is kept. -/
theorem header_only_iff_not :
    ∃ results st res', runOps [.setStatus noContent, .setBody (ascii "abc")] (start {} 8 false true) =
        .ok results st ∧
      Response.write st.res = .ok () res' ∧ res'.keepalive = true ∧ cutHead res'.conn.out =
        some ([ascii "HTTP/1.1 204 NO_CONTENT", ascii "Content-Length: 3"], ascii "abc") := by
  obtain ⟨results, st, hrun⟩ : ∃ results st, runOps [.setStatus noContent, .setBody (ascii "abc")]
      (start {} 8 false true) = .ok results st :=
    returns_iff.mp (by decide +kernel)
  obtain rfl := final_of_ok hrun
  obtain ⟨_, res', hwrite, hres⟩ := yields_iff.mp (show yields (fun _ res => res.keepalive && decide (cutHead
      res.conn.out = some ([ascii "HTTP/1.1 204 NO_CONTENT", ascii "Content-Length: 3"], ascii "abc")))
      Response.write (final (runOps [.setStatus noContent, .setBody (ascii "abc")])
        (start {} 8 false true)).res = true by
    decide +kernel)
  rw [Bool.and_eq_true, decide_eq_true_eq] at hres
  exact ⟨results, _, res', hrun, hwrite, hres.1, hres.2⟩

end Executor
end Dusty
