import Dusty.ErrorReply
import Dusty.HeadTwin

/-! # A HEAD answers with the header block of its GET

What the executor and the server write for a HEAD is what they write for the GET with the same
handler, cut after the empty line that ends the header block, and the two agree in the errors
and in whether the connection is kept.  The one exception is a handler that is left with
chunked framing decided on and no header block sent: `stream` failed on the headers.  Then
`Response.write` sends the last chunk for the GET, and nothing for the HEAD. -/

namespace Dusty

open Act

/-- A message up to and including the empty line that ends its header block, or all of it if
there is none. -/
def headPart (bytes : Bytes) : Bytes :=
  match cutHead bytes with
  | some (_, rest) => bytes.take (bytes.length - rest.length)
  | none => bytes

theorem headPart_headBlock {lines : List Bytes} (h : ∀ line ∈ lines, IsLine line) (tail : Bytes) :
    headPart (headBlock lines ++ tail) = headBlock lines := by
  have hlen : (headBlock lines ++ tail).length - tail.length = (headBlock lines).length := by
    rw [List.length_append, Nat.add_sub_cancel]
  unfold headPart
  simp only [cutHead_headBlock h tail, hlen, List.take_left]

namespace Response

/-- The responses of a GET and of its HEAD, as a client sees them. -/
def Answers (base g h : Response) : Prop :=
  h.keepalive = g.keepalive ∧ ∃ bytes, g.conn.out = base.conn.out ++ bytes ∧
    h.conn.out = base.conn.out ++ headPart bytes

variable {base : Response} {opened : Prop}

theorem Twin.answers {g h : Response} (hT : Twin base opened g h) : Answers base g h := by
  refine ⟨by rw [hT.same]; rfl, ?_⟩
  cases hw : g.headersWritten with
  | true =>
      obtain ⟨lines, tail, hlines, hblock, htail⟩ := hT.block hw
      refine ⟨headBlock lines ++ tail, ?_, ?_⟩
      · rw [htail, List.append_assoc]
      · rw [hblock, headPart_headBlock hlines]
  | false =>
      have hg : g.conn = base.conn := (hT.sound.fresh hw).2.2.2
      refine ⟨[], ?_, ?_⟩
      · rw [hg, List.append_nil]
      · rw [hT.fresh hw]
        exact (List.append_nil _).symm

/-! ### `write` on both sides -/

theorem lockstep_markWritten :
    Lockstep (Twin base True) Eq (modify markWritten) (modify markWritten) :=
  lockstep_modify fun _ _ hT => hT.assign (f := markWritten)
    (fun _ => rfl) (fun _ => rfl) (fun _ => rfl) (fun _ => rfl) fun _ _ => rfl

theorem lockstep_writeTerminator {g h : Response} (hT : Twin base opened g h) :
    Lockstep (Twin base True) Eq (writeTerminator g) (writeTerminator h) := by
  unfold writeTerminator
  rw [hT.isGet, hT.isHead]
  exact lockstep_writeAll _ _

theorem lockstep_finishAbandoned {g h : Response} (hT : Twin base opened g h) :
    Lockstep (Twin base True) Eq (finishAbandoned g) (finishAbandoned h) := by
  refine Lockstep.bind (V := Eq) ?_ fun _ _ _ => lockstep_flush.bind fun _ _ _ =>
    lockstep_markWritten
  have hchunked : h.chunked = g.chunked := by rw [hT.same]; rfl
  have hlength : h.contentLength = g.contentLength := by rw [hT.same]; rfl
  have hsent : h.bodySent = g.bodySent := by rw [hT.same]; rfl
  unfold settleAbandoned
  rw [hchunked, hlength, hsent]
  split
  · exact lockstep_writeTerminator hT
  · cases g.contentLength with
    | none => exact lockstep_pure rfl
    | some declared =>
        refine Lockstep.when (lockstep_modify fun _ _ hT => ?_) _
        exact hT.assign (f := noKeepalive)
          (fun _ => rfl) (fun _ => rfl) (fun _ => rfl) (fun _ => rfl) fun _ _ => rfl

theorem lockstep_finishBuffered :
    Lockstep (Twin base True) Eq finishBuffered finishBuffered := by
  refine lockstep_markWritten.bind fun _ _ _ => lockstep_get_bind fun g h hT => ?_
  have hchunked : h.chunked = g.chunked := by rw [hT.same]; rfl
  rw [hchunked]
  split
  · exact (lockstep_writeTerminator hT).bind fun _ _ _ => lockstep_flush
  · refine lockstep_writeHeader.bind fun _ _ _ => lockstep_get_bind fun g h hT => ?_
    refine Lockstep.bind (V := Eq) ?_ fun _ _ _ => lockstep_flush
    rw [hT.isGet, hT.isHead]
    exact lockstep_writeAll _ _

/-- With the headers sent, `write` adds to what the GET wrote and nothing to the HEAD. -/
theorem lockstep_write : Lockstep (Twin base True) Eq write write := by
  refine lockstep_get_bind fun g h hT => ?_
  have hwritten : h.written = g.written := by rw [hT.same]; rfl
  have hopen : h.bodyWriterOpen = g.bodyWriterOpen := by rw [hT.same]; rfl
  rw [hwritten, hopen, hT.headersWritten]
  split
  · exact lockstep_pure rfl
  split
  · refine Lockstep.bind (V := Eq) (lockstep_modify fun _ _ hT => ?_) fun _ _ _ => ?_
    · exact hT.assign (f := closeBody)
        (fun _ => rfl) (fun _ => rfl) (fun _ => rfl) (fun _ => rfl) fun _ _ => rfl
    split
    · exact lockstep_finishAbandoned hT
    · exact lockstep_finishBuffered
  · exact lockstep_finishBuffered

/-- Two ends of `write`: the same outcome, and responses that answer a GET and its HEAD. -/
def SameEnd (base : Response) {α : Type} (x : Act Response α) (g h : Response) : Prop :=
  match x g, x h with
  | .ok a g', .ok b h' => a = b ∧ Answers base g' h'
  | .error e g', .error e' h' => e = e' ∧ Answers base g' h'
  | _, _ => False

theorem write_sameEnd {g h : Response} (hT : Twin base opened g h)
    (hc : g.chunked = false ∨ g.headersWritten = true) : SameEnd base write g h := by
  cases hw : g.headersWritten with
  | true =>
      have hlock := lockstep_write g h (hT.toOpened hw)
      unfold SameEnd
      cases hg : write g with
      | ok a g' =>
          cases hh : write h with
          | error e h' => simp [hg, hh] at hlock
          | ok b h' =>
              simp only [hg, hh] at hlock
              exact ⟨rfl, hlock.2.answers⟩
      | error e g' =>
          cases hh : write h with
          | ok b h' => simp [hg, hh] at hlock
          | error e' h' =>
              simp only [hg, hh] at hlock
              exact ⟨hlock.1, hlock.2.answers⟩
  | false =>
      have hchunked : g.closeBody.chunked = false := by
        rcases hc with hc | hc
        · exact hc
        · exact absurd (hw.symm.trans hc) Bool.false_ne_true
      have hchunked' : h.closeBody.chunked = false := by rw [hT.same]; exact hchunked
      have hwritten' : h.written = false := by rw [hT.same]; exact (hT.sound.fresh hw).1
      have hw' : h.closeBody.headersWritten = false := hT.headersWritten.trans hw
      have hsettled : h.closeBody.settledHeaders = g.closeBody.settledHeaders := by
        rw [hT.same]
        rfl
      have hfaults : g.closeBody.conn.faults = [] := hT.sound.faults
      have hfaults' : h.closeBody.conn.faults = [] := hT.faults
      have hbase : g.closeBody.conn.out = base.conn.out :=
        congrArg Conn.out (hT.sound.fresh hw).2.2.2
      have hbase' : h.closeBody.conn.out = base.conn.out := congrArg Conn.out (hT.fresh hw)
      have hkeep : h.closeBody.keepalive = g.closeBody.keepalive := by rw [hT.same]; rfl
      unfold SameEnd
      rw [write_open (hT.sound.fresh hw).1 hw, write_open hwritten' hw']
      cases hs : g.closeBody.settledHeaders with
      | error e =>
          obtain ⟨g', hrun, hconn, hk⟩ := finishBuffered_error hfaults hchunked hw hs
          obtain ⟨h', hrun', hconn', hk'⟩ :=
            finishBuffered_error hfaults' hchunked' hw' (hsettled.trans hs)
          rw [hrun, hrun']
          refine ⟨rfl, hk'.trans (hkeep.trans hk.symm), [], ?_, ?_⟩
          · rw [hconn, hbase, List.append_nil]
          · rw [hconn', hbase']
            exact (List.append_nil _).symm
      | ok headers =>
          obtain ⟨g', hrun, hout, -, hk, -⟩ := finishBuffered_run hfaults hchunked hw hs
          obtain ⟨h', hrun', hout', -, hk', -⟩ :=
            finishBuffered_run hfaults' hchunked' hw' (hsettled.trans hs)
          have hlines : ∀ line ∈ (g.closeBody.setHeaders headers).headLines, IsLine line :=
            isLine_headLines (settledHeaders_valid hT.sound.valid hs)
          have hsame : (h.closeBody.setHeaders headers).headLines =
              (g.closeBody.setHeaders headers).headLines := by
            rw [hT.same]
            rfl
          rw [hrun, hrun']
          refine ⟨rfl, hk'.trans (hkeep.trans hk.symm),
            headBlock (g.closeBody.setHeaders headers).headLines ++
              (if g.closeBody.head then [] else g.closeBody.bodyBytes), ?_, ?_⟩
          · rw [hout, hbase, List.append_assoc]
          · have hhead : h.closeBody.head = true := hT.isHead
            rw [hout', hbase', hsame, hhead, if_pos rfl, List.append_nil,
              headPart_headBlock hlines]

end Response

namespace Executor

open HandlerState Response

variable {base : Response}

theorem lockstep_conclude (outcome : Option Error) :
    Lockstep (Twins base) Eq (conclude outcome) (conclude outcome) := by
  cases outcome with
  | none => exact lockstep_pure rfl
  | some err =>
      rw [conclude]
      split
      · exact lockstep_fail _
      · refine lockstep_get_bind fun g h hT => ?_
        rw [hT.res.headersWritten]
        split
        · exact lockstep_fail _
        · exact lockstep_onQuiet quiet_handleError fun _ => keeps_handleError

theorem lockstep_run (ops : List Op) (outcome : Option Error) :
    Lockstep (Twins base) Eq (run ops outcome) (run ops outcome) :=
  (lockstep_runOps ops).bind fun _ _ hrs => hrs ▸
    (lockstep_conclude outcome).bind fun _ _ _ => lockstep_pure rfl

/-- The chain's outcome leaves the framing and the header block as the handler left them. -/
theorem conclude_ok {outcome : Option Error} {st st' : HandlerState} {u : Unit}
    (h : conclude outcome st = .ok u st') :
    (∀ err, outcome = some err → isTransport err = false) ∧
      st'.res.chunked = st.res.chunked ∧ st'.res.headersWritten = st.res.headersWritten := by
  cases outcome with
  | none =>
      rw [conclude, pure_run] at h
      cases h
      exact ⟨by simp, rfl, rfl⟩
  | some err =>
      rw [conclude] at h
      by_cases herr : isTransport err = true
      · rw [if_pos herr] at h
        cases h
      · rw [if_neg herr, bind_ok (get_run st)] at h
        cases hw : st.res.headersWritten with
        | true =>
            rw [if_pos hw] at h
            cases h
        | false =>
            rw [if_neg (by simp [hw])] at h
            simp only [onRes, zoom, handleError_run hw] at h
            cases h
            refine ⟨?_, rfl, hw⟩
            rintro err' ⟨⟩
            simpa using herr

/-- With the headers open and no transport failure the executor goes on to `write`. -/
theorem conclude_returns {outcome : Option Error} {st : HandlerState}
    (herr : ∀ err, outcome = some err → isTransport err = false)
    (hw : st.res.headersWritten = false) : ∃ st', conclude outcome st = .ok () st' := by
  cases outcome with
  | none => exact ⟨st, rfl⟩
  | some err =>
      refine ⟨st.setRes st.res.replacement, ?_⟩
      rw [conclude, if_neg (by simp [herr err rfl]), bind_ok (get_run st), if_neg (by simp [hw])]
      simp only [onRes, zoom, handleError_run hw]

/-- What a handler must not leave behind: chunked framing without a header block. -/
def Framable (outcome : Option Error) (st : HandlerState) : Prop :=
  st.res.chunked = false ∨ st.res.headersWritten = true ∨
    ∃ err, outcome = some err ∧ isTransport err = true

/-- The run `h` is that of a HEAD to the GET of the run `g`: the same results, the same fate
of the connection, and the bytes of the GET up to the end of its header block. -/
structure HeadOfGet {α : Type} (conn : Conn) (x : Act HandlerState α) (g h : HandlerState) :
    Prop where
  results : match x g, x h with
    | .ok a _, .ok b _ => a = b
    | .error e _, .error e' _ => e = e'
    | _, _ => False
  keepalive : (final x h).res.keepalive = (final x g).res.keepalive
  bytes : ∃ bytes, (final x g).res.conn.out = conn.out ++ bytes ∧
    (final x h).res.conn.out = conn.out ++ headPart bytes

theorem twins_start {conn : Conn} (h : conn.faults = []) (maxHeaders : ℕ) (keepalive : Bool) :
    Twins (start conn maxHeaders false keepalive).res (start conn maxHeaders false keepalive)
      (start conn maxHeaders true keepalive) := by
  refine ⟨⟨reach_start h maxHeaders false keepalive, rfl, rfl, h, fun _ => rfl, ?_⟩, rfl, rfl,
    .inl ⟨rfl, rfl⟩, .nil⟩
  intro hw
  exact absurd (show false = true from hw) Bool.false_ne_true

theorem respond_error_of_run {ops : List Op} {outcome : Option Error} {st st' : HandlerState}
    {e : Fault} (h : run ops outcome st = .error e st') :
    respond ops outcome st = .error e st' := by
  unfold respond
  rw [bind_error h]

/-- After the executor's run the response is written. -/
theorem respond_of_run {ops : List Op} {outcome : Option Error} {st st' : HandlerState}
    {rs : List (Except Error Unit)} (h : run ops outcome st = .ok rs st') :
    respond ops outcome st = match Response.write st'.res with
      | .ok _ r => .ok rs (st'.setRes r)
      | .error e r => .error e (st'.setRes r) := by
  unfold respond
  rw [bind_ok h, bind_run]
  unfold onRes zoom
  cases Response.write st'.res <;> rfl

theorem run_ok {ops : List Op} {outcome : Option Error} {st₀ st' : HandlerState}
    {rs : List (Except Error Unit)} (h : run ops outcome st₀ = .ok rs st') :
    ∃ st, runOps ops st₀ = .ok rs st ∧ conclude outcome st = .ok () st' := by
  unfold run at h
  obtain ⟨rs', st, hops, h⟩ := bind_eq_ok.mp h
  obtain ⟨u, st₂, hconclude, h⟩ := bind_eq_ok.mp h
  cases h
  exact ⟨st, hops, hconclude⟩

theorem headOfGet_of_framable {conn : Conn} {g h : HandlerState} {ops : List Op}
    {outcome : Option Error} (hT : Twins base g h) (hbase : base.conn = conn)
    (hf : ∀ rs st, runOps ops g = .ok rs st → Framable outcome st) :
    HeadOfGet conn (respond ops outcome) g h := by
  subst hbase
  have hlock : Lockstep (Twins base) Eq (run ops outcome) (run ops outcome) :=
    lockstep_run ops outcome
  cases hg : run ops outcome g with
  | error e g' =>
      obtain ⟨h', hh, hT'⟩ := hlock.error hT hg
      obtain ⟨hkeep, hbytes⟩ := hT'.res.answers
      refine ⟨?_, ?_, ?_⟩
      · rw [respond_error_of_run hg, respond_error_of_run hh]
      · rw [final, final, respond_error_of_run hg, respond_error_of_run hh]
        exact hkeep
      · rw [final, final, respond_error_of_run hg, respond_error_of_run hh]
        exact hbytes
  | ok rs g' =>
      obtain ⟨rs', h', hh, rfl, hT'⟩ := hlock.ok hT hg
      obtain ⟨st, hops, hconclude⟩ := run_ok hg
      obtain ⟨herr, hchunked, hw⟩ := conclude_ok hconclude
      have hc : g'.res.chunked = false ∨ g'.res.headersWritten = true := by
        rcases hf rs st hops with h | h | ⟨err, h, htransport⟩
        · exact .inl (hchunked.trans h)
        · exact .inr (hw.trans h)
        · exact absurd ((herr err h).symm.trans htransport) Bool.false_ne_true
      have hend := write_sameEnd hT'.res hc
      unfold SameEnd at hend
      have hrg := respond_of_run hg
      have hrh := respond_of_run hh
      cases hwg : Response.write g'.res with
      | ok a r =>
          cases hwh : Response.write h'.res with
          | error e r' => simp [hwg, hwh] at hend
          | ok b r' =>
              simp only [hwg, hwh] at hend hrg hrh
              refine ⟨?_, ?_, ?_⟩
              · rw [hrg, hrh]
              · rw [final, final, hrg, hrh]
                exact hend.2.1
              · rw [final, final, hrg, hrh]
                exact hend.2.2
      | error e r =>
          cases hwh : Response.write h'.res with
          | ok b r' => simp [hwg, hwh] at hend
          | error e' r' =>
              simp only [hwg, hwh] at hend hrg hrh
              refine ⟨?_, ?_, ?_⟩
              · rw [hrg, hrh]
                exact hend.1
              · rw [final, final, hrg, hrh]
                exact hend.2.1
              · rw [final, final, hrg, hrh]
                exact hend.2.2

/-- What is written for a response that is left with chunked framing and no header block. -/
theorem write_unframed {r : Response} (hfaults : r.conn.faults = []) (hwritten : r.written = false)
    (hw : r.headersWritten = false) (hchunked : r.chunked = true) :
    ∃ u r', Response.write r = .ok u r' ∧
      r'.conn.out = r.conn.out ++ (if r.head then [] else lastChunk) := by
  have hf : r.closeBody.conn.faults = [] := hfaults
  obtain ⟨r', hrun, hout, -⟩ := finishBuffered_chunked hf hchunked
  exact ⟨(), r', (write_open hwritten hw).trans hrun, hout⟩

/-- **A HEAD answers with the header block of its GET** exactly when the handler is not left
with chunked framing and no header block. -/
theorem head_of_get_iff {conn : Conn} (hconn : conn.faults = []) (maxHeaders : ℕ)
    (keepalive : Bool) (ops : List Op) (outcome : Option Error) :
    HeadOfGet conn (respond ops outcome) (start conn maxHeaders false keepalive)
        (start conn maxHeaders true keepalive) ↔
      ∀ rs st, runOps ops (start conn maxHeaders false keepalive) = .ok rs st →
        Framable outcome st := by
  have hT := twins_start hconn maxHeaders keepalive
  refine ⟨fun hhead rs st hops => ?_, headOfGet_of_framable hT rfl⟩
  by_contra hnot
  simp only [Framable, not_or, Bool.not_eq_false, Bool.not_eq_true, not_exists, not_and] at hnot
  obtain ⟨hchunked, hw, herr⟩ := hnot
  -- both sides go on to `write`, one with the last chunk to send and one without
  obtain ⟨g', hconclude⟩ := conclude_returns herr hw
  obtain ⟨-, hchunked', hw'⟩ := conclude_ok hconclude
  have hrun : run ops outcome (start conn maxHeaders false keepalive) = .ok rs g' := by
    unfold run
    rw [bind_ok hops, bind_ok hconclude]
    rfl
  obtain ⟨rs', h', hrun', -, hT'⟩ := (lockstep_run ops outcome).ok hT hrun
  have hunwritten : g'.res.written = false := (hT'.res.sound.fresh (hw'.trans hw)).1
  obtain ⟨u, r, hwrite, hout⟩ :=
    write_unframed hT'.res.sound.faults hunwritten (hw'.trans hw) (hchunked'.trans hchunked)
  have hsame : h'.res.written = false ∧ h'.res.headersWritten = false ∧ h'.res.chunked = true := by
    rw [hT'.res.same]
    exact ⟨hunwritten, hw'.trans hw, hchunked'.trans hchunked⟩
  obtain ⟨u', r', hwrite', hout'⟩ :=
    write_unframed hT'.res.faults hsame.1 hsame.2.1 hsame.2.2
  have hg : g'.res.conn.out = conn.out :=
    congrArg Conn.out (hT'.res.sound.fresh (hw'.trans hw)).2.2.2
  have hh : h'.res.conn.out = conn.out := congrArg Conn.out (hT'.res.fresh (hw'.trans hw))
  obtain ⟨bytes, hbytes, hbytes'⟩ := hhead.bytes
  rw [final, respond_of_run hrun, hwrite] at hbytes
  rw [final, respond_of_run hrun', hwrite'] at hbytes'
  have hlast : bytes = lastChunk := by
    have h : r.conn.out = conn.out ++ bytes := hbytes
    rw [hout, hg, hT'.res.isGet, if_neg Bool.false_ne_true] at h
    exact (List.append_cancel_left h).symm
  have hnone : headPart bytes = [] := by
    have h : r'.conn.out = conn.out ++ headPart bytes := hbytes'
    rw [hout', hh, hT'.res.isHead, if_pos rfl] at h
    exact (List.append_cancel_left h).symm
  rw [hlast] at hnone
  exact absurd hnone (by decide)

theorem head_of_get_iff_sample :
    HeadOfGet {} (respond [.stream 16, .streamWrite (ascii "hello"), .streamEnd] none)
      (start {} 4 false true) (start {} 4 true true) := by
  refine (head_of_get_iff rfl 4 true _ _).mpr ?_
  intro rs st hops
  have hst : st = final (runOps [.stream 16, .streamWrite (ascii "hello"), .streamEnd])
      (start {} 4 false true) := (final_of_ok hops).symm
  refine .inr (.inl ?_)
  rw [hst]
  decide +kernel

/-- A `stream` that fails on its headers leaves chunked framing behind.  The GET is answered
with the last chunk and nothing else, the HEAD with nothing. -/
theorem head_of_get_leftover :
    ¬HeadOfGet {}
      (respond [.header (ascii "X-A") (ascii "1"), .setContentType (some .text), .stream 16] none)
      (start {} 1 false true) (start {} 1 true true) := by
  intro h
  obtain ⟨bytes, hbytes, hbytes'⟩ := h.bytes
  have hget : (final (respond
      [.header (ascii "X-A") (ascii "1"), .setContentType (some .text), .stream 16] none)
      (start {} 1 false true)).res.conn.out = lastChunk := by
    decide +kernel
  have hhead : (final (respond
      [.header (ascii "X-A") (ascii "1"), .setContentType (some .text), .stream 16] none)
      (start {} 1 true true)).res.conn.out = [] := by
    decide +kernel
  rw [hget] at hbytes
  rw [hhead] at hbytes'
  have hlast : bytes = lastChunk := hbytes.symm
  rw [hlast] at hbytes'
  exact absurd hbytes' (by decide)

end Executor
end Dusty
