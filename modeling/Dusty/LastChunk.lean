import Dusty.HeaderOnly

/-! # One last chunk

Over a working transport, `Chunks` is what a handler keeps until it finishes a chunked response: behind the
header block there are whole chunks, and none of them is empty.  The first `end` or `write` puts the last chunk
behind them, and `sealed_response` says that nothing follows it. -/

namespace Dusty

open Act

namespace Response

/-- On the wire there is a header block, and behind it whole chunks that are not empty and then `last`; behind the
header block of the response to a HEAD there is nothing. -/
def Chunks (base last : Bytes) (r : Response) : Prop :=
  ∃ (lines chunks : List Bytes), IsHead lines ∧ (∀ c ∈ chunks, c ≠ []) ∧
    r.conn.out = base ++ headBlock lines ++ if r.head then [] else chunks.flatMap encodeChunk ++ last

theorem Chunks.append {base last : Bytes} {r r' : Response} (h : r.Chunks base []) (more : List Bytes)
    (hmore : ∀ c ∈ more, c ≠ []) (hhead : r'.head = r.head)
    (hout : r'.conn.out = r.conn.out ++ if r.head then [] else more.flatMap encodeChunk ++ last) :
    r'.Chunks base last := by
  obtain ⟨lines, chunks, hlines, hne, hsent⟩ := h
  refine ⟨lines, chunks ++ more, hlines, fun c hc => (List.mem_append.mp hc).elim (hne c) (hmore c), ?_⟩
  rw [hout, hsent, hhead]
  cases r.head with
  | true => exact List.append_nil _
  | false => simp

/-! ### The header block -/

/-- On a working transport nothing was sent while the headers are open, and then the header block alone. -/
structure Bare (base : Bytes) (r : Response) : Prop where
  faults : r.conn.faults = []
  valid : HeadersValid r.headers
  unsent : r.headersWritten = false → r.conn.out = base
  sent : r.headersWritten = true → ∃ lines, IsHead lines ∧ r.conn.out = base ++ headBlock lines

variable {base : Bytes}

theorem blind_bare : Blind (Bare base) := fun r r' hr hu =>
  ⟨by rw [hu.conn]; exact hr.faults, hu.valid hr.valid,
    fun hw => by rw [hu.conn]; exact hr.unsent (hu.headersWritten.symm.trans hw),
    fun hw => by rw [hu.conn]; exact hr.sent (hu.headersWritten.symm.trans hw)⟩

theorem keeps_writeHeader_bare : Keeps (Bare base) writeHeader := by
  refine keeps_iff_final.mpr fun r hr => ?_
  cases hw : r.headersWritten with
  | true =>
      rw [final_of_ok (writeHeader_done hw)]
      exact hr
  | false =>
      have hrun := writeHeader_run hr.faults hw
      cases hs : r.settledHeaders with
      | error e =>
          rw [hs] at hrun
          rw [final_of_error hrun]
          exact hr
      | ok headers =>
          rw [hs] at hrun
          rw [final_of_ok hrun]
          have hvalid : HeadersValid headers := settledHeaders_valid hr.valid hs
          refine ⟨?_, hvalid, fun hopen => ?_, fun _ => ⟨(r.setHeaders headers).headLines,
            ⟨isLine_headLines hvalid, _, _, rfl⟩, ?_⟩⟩
          · exact (Conn.faults_wroteLines _ _).trans hr.faults
          · cases hopen
          · rw [← hr.unsent hw]
            exact Conn.out_wroteLines_block _ _

theorem keeps_flush_bare : Keeps (Bare base) (onConn Conn.flush) := by
  refine keeps_iff_final.mpr fun r hr => ?_
  rw [final_of_ok (onConn_flush_run hr.faults)]
  exact ⟨hr.faults, hr.valid, hr.unsent, hr.sent⟩

theorem keeps_stream_bare : Keeps (Bare base) stream := by
  refine Triple.bind blind_bare.startBody fun _ => Triple.bind blind_bare.decideFraming fun _ => ?_
  exact Triple.weaken keeps_writeHeader_bare (fun _ hr => hr.1) (fun _ _ hr => hr) fun _ _ hr => hr

theorem keeps_startEventStream_bare : Keeps (Bare base) startEventStream := by
  refine (blind_bare.header _ _).bind fun _ => (blind_bare.header _ _).bind fun _ => ?_
  refine (keeps_modify fun r hr => ⟨hr.faults, hr.valid, hr.unsent, hr.sent⟩).bind fun _ => ?_
  refine keeps_writeHeader_bare.bind fun _ => keeps_flush_bare.bind fun _ => ?_
  exact keeps_get_bind fun _ _ => keeps_pure _

theorem Bare.chunks {r : Response} (h : Bare base r) (hw : r.headersWritten = true) : r.Chunks base [] := by
  obtain ⟨lines, hlines, hout⟩ := h.sent hw
  refine ⟨lines, [], hlines, by simp, ?_⟩
  rw [hout]
  cases r.head <;> simp

/-! ### The last chunk -/

/-- The last chunk and a flush, on a working transport. -/
theorem writeTerminator_flush {r : Response} (self : Response) (hfaults : r.conn.faults = []) :
    ∃ conn, (do writeTerminator self; onConn Conn.flush : Act Response Unit) r = .ok () (r.setConn conn) ∧
      conn.out = r.conn.out ++ if self.head then [] else lastChunk := by
  unfold writeTerminator
  cases self.head with
  | true =>
      refine ⟨r.conn.flushedAll, ?_, (List.append_nil _).symm⟩
      exact onConn_flush_run hfaults
  | false =>
      refine ⟨(r.conn.wrote .body lastChunk).flushedAll, ?_, Conn.out_wrote _ _ _⟩
      rw [Bool.not_false, when_true, show ascii "0\r\n\r\n" = lastChunk from rfl,
        bind_ok (onConn_writeAll_run hfaults .body lastChunk)]
      exact onConn_flush_run hfaults

/-- **The `write`** of a chunked response puts the last chunk behind the chunks. -/
theorem write_last {self : Response} (hfaults : self.conn.faults = []) (hunwritten : self.written = false)
    (hw : self.headersWritten = true) (hchunked : self.chunked = true) (h : self.Chunks base []) :
    (final write self).Chunks base lastChunk := by
  have hclosed : ∀ {r : Response} {conn : Conn}, r.conn = self.conn → r.head = self.head →
      conn.out = r.conn.out ++ (if self.head then [] else lastChunk) → (r.setConn conn).Chunks base lastChunk := by
    intro r conn hconn hhead hout
    refine h.append [] (by simp) hhead ?_
    show conn.out = _
    rw [hout, hconn]
    rfl
  unfold write
  rw [final_bind_ok (get_run self), if_neg (by simp [hunwritten])]
  cases hopen : self.bodyWriterOpen with
  | true =>
      obtain ⟨conn, hrun, hout⟩ := @writeTerminator_flush self.closeBody self hfaults
      have hfinish : finishAbandoned self self.closeBody = .ok () (self.closeBody.setConn conn).markWritten := by
        unfold finishAbandoned settleAbandoned
        rw [if_pos hchunked, ← bind_assoc, bind_ok hrun]
        rfl
      rw [if_pos rfl, final_bind_ok (modify_run ..), hw, if_pos rfl, final_of_ok hfinish]
      exact @hclosed self.closeBody.markWritten conn rfl rfl hout
  | false =>
      obtain ⟨conn, hrun, hout⟩ := @writeTerminator_flush self.markWritten self.markWritten hfaults
      have hfinish : finishBuffered self = .ok () (self.markWritten.setConn conn) := by
        unfold finishBuffered
        rw [bind_ok (modify_run ..), bind_ok (get_run _),
          if_pos (show self.markWritten.chunked = true from hchunked), hrun]
      rw [if_neg Bool.false_ne_true, final_of_ok hfinish]
      exact @hclosed self.markWritten conn rfl rfl hout

end Response

namespace StreamingBodyWriter

open Attached Response

/-- **The `end`** of a chunked body puts the last chunk behind the chunks, whatever it returns. -/
theorem finish_last {base : Bytes} {a : Self} (hfaults : a.res.conn.faults = [])
    (hopen : a.res.bodyWriterOpen = true) (hchunked : a.res.chunked = true) (h : a.res.Chunks base []) :
    (final StreamingBodyWriter.finish a).res.Chunks base lastChunk := by
  let a₁ : Self := a.setRes a.res.closeBody.markWritten
  obtain ⟨chunks, a₂, hflush, hmore⟩ := WriteOp.flush.exec_advances (a := a₁) hfaults
  have hflush : StreamingBodyWriter.flush a₁ = .ok () a₂ := hflush
  obtain ⟨conn₃, hlast, hfaults₃, hout₃⟩ :=
    ((puts_commit (puts_emit lastChunk)).when (a.res.chunked && !a.res.head)) a₂ hmore.faults
  obtain ⟨conn₄, hflushed, hfaults₄, hout₄⟩ := puts_commit puts_flushConn (a₂.setConn conn₃) hfaults₃
  have hhead : a₂.res.head = a.res.head := by
    rw [hmore.same]
    rfl
  -- however it ends, this is what was sent
  have hsent : ((a₂.setConn conn₃).setConn conn₄).res.Chunks base lastChunk := by
    refine h.append chunks hmore.nonempty hhead ?_
    show conn₄.out = _
    rw [hout₄, List.append_nil, show (a₂.setConn conn₃).res.conn.out = conn₃.out from rfl, hout₃, hmore.out,
      List.append_assoc, hchunked]
    cases hget : a.res.head with
    | true =>
        rw [hmore.none hget, wire_nil]
        rfl
    | false =>
        show _ ++ (wire a.res.chunked chunks ++ lastChunk) = _
        rw [hchunked]
        rfl
  unfold StreamingBodyWriter.finish
  rw [final_bind_ok (get_run a), if_neg (by simp [hopen]), final_bind_ok (modify_run ..)]
  have hrun : ∀ rest : Act Self Unit, final (onError (fun self => self.setRes self.res.noKeepalive) (do
      commit StreamingBodyWriter.flush
      Act.when (a.res.chunked && !a.res.head) (commit (Attached.emit (ascii "0\r\n\r\n")))
      commit Attached.flushConn
      rest)) a₁ =
        final (onError (fun self => self.setRes self.res.noKeepalive) rest)
          ((a₂.setConn conn₃).setConn conn₄) := by
    intro rest
    unfold final onError
    rw [bind_ok (commit_ok hflush), show ascii "0\r\n\r\n" = lastChunk from rfl, bind_ok hlast, bind_ok hflushed]
  rw [hrun]
  refine keeps_iff_final.mp (?_ : Keeps (fun a : Self => a.res.Chunks base lastChunk) _) _ hsent
  refine Keeps.onError (keeps_get_bind fun self _ => ?_) fun _ ha => ha
  split
  · exact (keeps_fail _).when _
  · exact keeps_pure _

end StreamingBodyWriter

/-! ### Before the end -/

namespace Executor

open HandlerState Response StreamingBodyWriter

theorem SameSent.chunks {base last : Bytes} {r r' : Response} (hsame : SameSent r r') (h : r.Chunks base last) :
    r'.Chunks base last := by
  obtain ⟨lines, chunks, hlines, hne, hout⟩ := h
  exact ⟨lines, chunks, hlines, hne, by rw [hsame.out, hsame.head, hout]⟩

/-- With the headers open, all that an operation can send is the header block. -/
theorem bare_exec {base : Bytes} {op : Op} {st : HandlerState} (h : Bare base st.res) (hown : op.own = true)
    (hstreamed : op.streamed = none) (hend : op ≠ .streamEnd) : Bare base (final (exec op) st).res := by
  have hres : ∀ {α : Type} {x : Act Response α}, Keeps (Bare base) x →
      Keeps (fun st : HandlerState => Bare base st.res) (onRes x) := by
    intro α x hx
    refine keeps_iff_final.mpr fun s hs => ?_
    rw [final_onRes]
    exact keeps_iff_final.mp hx s.res hs
  by_cases hprepares : op.prepares = true
  · exact (keeps_iff_final.mp (keeps_prepares (s := st) blind_bare hprepares) st ⟨h, rfl, rfl, rfl⟩).1
  have hkeeps : Keeps (fun st : HandlerState => Bare base st.res) (exec op) := by
    cases op with
    | writeHeader => exact hres keeps_writeHeader_bare
    | stream cap => exact (hres keeps_stream_bare).bind fun _ => keeps_modify fun _ hst => hst
    | startEventStream => exact (hres keeps_startEventStream_bare).bind fun _ => keeps_modify fun _ hst => hst
    | streamEnd => exact absurd rfl hend
    | streamWrite bytes => cases hstreamed
    | streamSplat data pattern splat => cases hstreamed
    | streamFlush => cases hstreamed
    | send data opts => cases hown
    | startSend opts => cases hown
    | eventWrite i bytes => cases hown
    | eventEnd i => cases hown
    | _ => exact absurd rfl hprepares
  exact keeps_iff_final.mp hkeeps st h

/-- If the response is chunked and its headers are sent, whole chunks are on the wire. -/
def Chunking (base : Bytes) (r : Response) : Prop :=
  r.headersWritten = true → r.chunked = true → r.Chunks base []

/-- **No operation before the `end`** sends anything but chunks that are not empty. -/
theorem chunking_exec {res₀ : Response} {op : Op} {st : HandlerState} (hhas : Has (Sound res₀ False) st)
    (h : Chunking res₀.conn.out st.res) (hown : op.own = true) (hend : op ≠ .streamEnd) :
    Chunking res₀.conn.out (final (exec op) st).res := by
  have hsound : Sound res₀ False st.res := hhas.1
  cases hstreamed : op.streamed with
  | some o =>
      rw [exec_streamed hstreamed]
      cases hs : st.stream with
      | none =>
          rw [final_onStream_none _ hs]
          exact h
      | some w =>
          obtain ⟨more, a', hrun, hmore⟩ := o.exec_advances (a := ⟨st.res, w⟩) hsound.faults
          rw [final_onStream _ hs, final_of_ok hrun]
          show Chunking res₀.conn.out a'.res
          have hsame := hmore.same
          intro hw hchunked
          have hhead : a'.res.head = st.res.head := by
            rw [hsame]
            rfl
          rw [hsame] at hw hchunked
          have hchunked : st.res.chunked = true := hchunked
          refine (h hw hchunked).append more hmore.nonempty hhead ?_
          rw [hmore.out, List.append_nil, show (⟨st.res, w⟩ : Self).res = st.res from rfl, hchunked]
          cases hget : st.res.head with
          | true =>
              rw [hmore.none hget, wire_nil]
              rfl
          | false => rfl
  | none =>
      cases hw : st.res.headersWritten with
      | true =>
          obtain ⟨r, hfinal, hsame⟩ := exec_sent hown hstreamed hend hw
          rw [hfinal]
          intro _ hchunked
          have hsent : SameSent st.res r := ⟨congrArg Conn.out hsame.conn, hsame.head⟩
          exact hsent.chunks (h hw (hsame.chunked.symm.trans hchunked))
      | false =>
          have hbare : Bare res₀.conn.out st.res := by
            refine ⟨hsound.faults, hsound.valid, fun _ => ?_, fun hsent => ?_⟩
            · rw [(hsound.fresh hw).2.2.2]
            · rw [hw] at hsent
              cases hsent
          exact fun hsent _ => (bare_exec hbare hown hstreamed hend).chunks hsent

theorem chunking_runOps {conn : Conn} (hconn : conn.faults = []) {maxHeaders : ℕ} {head keepalive : Bool}
    {ops : List Op} (hown : ∀ op ∈ ops, op.own = true ∧ op ≠ .streamEnd) {results : List (Except Error Unit)}
    {st : HandlerState} (hrun : runOps ops (start conn maxHeaders head keepalive) = .ok results st) :
    Chunking conn.out st.res ∧ st.res.conn.faults = [] := by
  let st₀ := start conn maxHeaders head keepalive
  have hkept : ∀ op ∈ ops, Keeps (fun st => Chunking st₀.res.conn.out st.res ∧ Has (Sound st₀.res False) st)
      (exec op) := fun op hop => keeps_iff_final.mpr fun s hs =>
    ⟨chunking_exec hs.2 hs.1 (hown op hop).1 (hown op hop).2, keeps_iff_final.mp (keeps_exec kept_sound op) s hs.2⟩
  have hstart : Chunking st₀.res.conn.out st₀.res := by
    intro hw
    cases hw
  have h := (keeps_runOps_of hkept).ok ⟨hstart, has_sound_start hconn maxHeaders head keepalive⟩ hrun
  exact ⟨h.1, h.2.1.faults⟩

/-- The first `end` or `write` of a chunked response. -/
theorem chunks_first {conn : Conn} {first : Step} {st : HandlerState} (hunfinished : Unfinished st)
    (hfaults : st.res.conn.faults = []) (h : Chunking conn.out st.res) (hchunked : st.res.chunked = true)
    (hfirst : first = .op .streamEnd ∧ st.stream.isSome = true ∨ first = .write ∧ st.res.Settles) :
    (final first.run st).res.Chunks conn.out lastChunk := by
  rcases hfirst with ⟨rfl, hsome⟩ | ⟨rfl, hsettles⟩
  · obtain ⟨w, hw⟩ := Option.isSome_iff_exists.mp hsome
    obtain ⟨hsent, hopen⟩ := hunfinished.opened hsome
    show (final (exec .streamEnd) st).res.Chunks _ _
    rw [exec, final_onStream _ hw]
    exact finish_last (a := ⟨st.res, w⟩) hfaults hopen hchunked (h hsent hchunked)
  · have hsent : st.res.headersWritten = true := by
      unfold Settles at hsettles
      split at hsettles
      · next hopen => exact hopen.2
      · exact hsettles.resolve_right (by simp [hchunked])
    show (final (onRes Response.write) st).res.Chunks _ _
    rw [final_onRes]
    exact write_last hfaults hunfinished.unwritten hsent hchunked (h hsent hchunked)

/-! ### One status line -/

theorem keeps_write_opened (o w : Prop) :
    Keeps (fun r => (o → Streams r) ∧ (w → Delimited r)) Response.write := by
  have hconn : ∀ {α : Type} (x : Act Conn α),
      Keeps (fun r => (o → Streams r) ∧ (w → Delimited r)) (onConn x) := fun x =>
    keeps_zoom fun r hr _ _ => by cases x _ <;> exact hr
  exact keeps_write_of (fun _ => hconn _) (hconn _)
    ((kept_streams.guard o).and (kept_delimited.guard w)).writeHeader (fun _ hr => hr) (fun _ hr => hr)
    fun _ hr => hr

theorem keeps_runSteps_oneHead (n : ℕ) : ∀ steps : List Step, Keeps (Has (OneHead n)) (runSteps steps)
  | [] => keeps_pure _
  | step :: rest => by
      have hstep : Keeps (Has (OneHead n)) step.run := by
        cases step with
        | op op => exact keeps_exec (kept_oneHead n) op
        | write => exact keeps_onRes fun o w => (keeps_write_oneHead n).and (keeps_write_opened o w)
      exact hstep.attempt.bind fun _ => (keeps_runSteps_oneHead n rest).bind fun _ => keeps_pure _

/-- **A finished response.**  A handler does what it likes with a response and with a writer for its body, over
any transport.  The first `end`, or the first `write` that settles the response, leaves nothing to send: if no
later write or flush of the writer drains anything that reaches the wire, nothing does.  However that may be,
one header block is begun at most; and on a working transport a chunked body has one last chunk, behind chunks
that are not empty. -/
theorem sealed_response (conn : Conn) (maxHeaders : ℕ) (head keepalive : Bool) {before : List Op}
    (hown : ∀ op ∈ before, op.own = true ∧ op ≠ .streamEnd) {rs : List (Except Error Unit)} {st : HandlerState}
    (hbefore : runOps before (start conn maxHeaders head keepalive) = .ok rs st) {first : Step}
    (hfirst : first = .op .streamEnd ∧ st.stream.isSome = true ∨ first = .write ∧ st.res.Settles)
    {result : Except Error Unit} {st₁ : HandlerState} (hrun : attempt first.run st = .ok result st₁)
    {after : List Step} (hquiet : AllQuiet after st₁) {results : List (Except Error Unit)} {st₂ : HandlerState}
    (hrest : runSteps after st₁ = .ok results st₂) :
    st₂.res.conn.out = st₁.res.conn.out ∧ st₂.res.conn.statusLines ≤ conn.statusLines + 1 ∧
      (conn.faults = [] → st.res.chunked = true → st₂.res.Chunks conn.out lastChunk) := by
  have hunfinished : Unfinished st :=
    unfinished_runOps hown ⟨rfl, fun hsome => by simp [start] at hsome⟩ hbefore
  obtain rfl := final_of_attempt hrun
  have hdone : Done (final first.run st).res := by
    rcases hfirst with ⟨rfl, hsome⟩ | ⟨rfl, hsettles⟩
    · obtain ⟨w, hw⟩ := Option.isSome_iff_exists.mp hsome
      obtain ⟨hsent, hopen⟩ := hunfinished.opened hsome
      show Done (final (exec .streamEnd) st).res
      rw [exec, final_onStream _ hw]
      exact @finish_done ⟨st.res, w⟩ hopen hsent
    · show Done (final (onRes Response.write) st).res
      rw [final_onRes]
      exact write_done hunfinished.unwritten hsettles
  have hsame := done_runSteps hdone hquiet hrest
  refine ⟨hsame.out, ?_, fun hconn hchunked => ?_⟩
  · have hbegun := (keeps_runOps (kept_oneHead conn.statusLines) before).ok
      (has_start ⟨.init maxHeaders, le_rfl⟩) hbefore
    have hsteps : runSteps (first :: after) st = .ok (result :: results) st₂ := by
      rw [runSteps, bind_ok hrun, bind_ok hrest]
      rfl
    have hone := (keeps_runSteps_oneHead conn.statusLines (first :: after)).ok hbegun hsteps
    refine hone.1.2.trans (Nat.add_le_add_left ?_ _)
    cases st₂.res.headersWritten <;> decide
  · obtain ⟨hchunks, hfaults⟩ := chunking_runOps hconn hown hbefore
    exact hsame.chunks (chunks_first hunfinished hfaults hchunks hchunked hfirst)

/-- A handler that has written a chunked body, and what it does behind the end. -/
def streamed : List Op := [.stream 4, .streamWrite (ascii "hello")]

def behindEnd (bytes : Bytes) : List Step :=
  [.op .streamEnd, .write, .op .writeHeader, .op (.streamWrite bytes)]

theorem sealed_response_sample :
    ∃ rs st result st₁ results st₂, runOps streamed (start {} 8 false true) = .ok rs st ∧
      attempt (Step.op .streamEnd).run st = .ok result st₁ ∧
      runSteps (behindEnd (ascii "late")) st₁ = .ok results st₂ ∧
      st₂.res.conn.out = st₁.res.conn.out ∧ st₂.res.conn.statusLines ≤ ({} : Conn).statusLines + 1 ∧
      st₂.res.Chunks [] lastChunk := by
  obtain ⟨rs, st, hbefore⟩ : ∃ rs st, runOps streamed (start {} 8 false true) = .ok rs st :=
    returns_iff.mp (by decide +kernel)
  obtain rfl := final_of_ok hbefore
  obtain ⟨result, st₁, hrun⟩ : ∃ result st₁, attempt (Step.op .streamEnd).run
      (final (runOps streamed) (start {} 8 false true)) = .ok result st₁ :=
    returns_iff.mp (by decide +kernel)
  obtain rfl := final_of_ok hrun
  obtain ⟨results, st₂, hrest⟩ : ∃ results st₂, runSteps (behindEnd (ascii "late"))
      (final (attempt (Step.op .streamEnd).run) (final (runOps streamed) (start {} 8 false true))) =
        .ok results st₂ :=
    returns_iff.mp (by decide +kernel)
  have hown : ∀ op ∈ streamed, op.own = true ∧ op ≠ .streamEnd := by
    intro op hop
    simp only [streamed, List.mem_cons, List.not_mem_nil, or_false] at hop
    rcases hop with rfl | rfl
    · exact ⟨rfl, by simp⟩
    · exact ⟨rfl, by simp⟩
  obtain ⟨hout, hlines, hchunks⟩ := sealed_response {} 8 false true hown hbefore
    (.inl ⟨rfl, by decide +kernel⟩) hrun (by decide +kernel) hrest
  exact ⟨rs, _, result, _, results, st₂, hbefore, hrun, hrest, hout, hlines, hchunks rfl (by decide +kernel)⟩

/-- A write that does not fit into what is left of the buffer sends a chunk behind the last chunk. -/
theorem sealed_response_not :
    ∃ rs st result st₁ results st₂, runOps streamed (start {} 8 false true) = .ok rs st ∧
      attempt (Step.op .streamEnd).run st = .ok result st₁ ∧
      runSteps (behindEnd (ascii "later")) st₁ = .ok results st₂ ∧
      st₂.res.conn.out = st₁.res.conn.out ++ ascii "5\r\nlater\r\n" := by
  obtain ⟨rs, st, hbefore⟩ : ∃ rs st, runOps streamed (start {} 8 false true) = .ok rs st :=
    returns_iff.mp (by decide +kernel)
  obtain rfl := final_of_ok hbefore
  obtain ⟨result, st₁, hrun⟩ : ∃ result st₁, attempt (Step.op .streamEnd).run
      (final (runOps streamed) (start {} 8 false true)) = .ok result st₁ :=
    returns_iff.mp (by decide +kernel)
  obtain rfl := final_of_ok hrun
  obtain ⟨results, st₂, hrest, hout⟩ := yields_iff.mp (show yields
      (fun _ st₂ => decide (st₂.res.conn.out =
        (final (attempt (Step.op .streamEnd).run) (final (runOps streamed) (start {} 8 false true))).res.conn.out
          ++ ascii "5\r\nlater\r\n"))
      (runSteps (behindEnd (ascii "later")))
      (final (attempt (Step.op .streamEnd).run) (final (runOps streamed) (start {} 8 false true))) = true by
    decide +kernel)
  exact ⟨rs, _, result, _, results, st₂, hbefore, hrun, hrest, of_decide_eq_true hout⟩

end Executor
end Dusty
