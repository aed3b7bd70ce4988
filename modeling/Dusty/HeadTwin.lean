import Dusty.StreamFraming

/-! # A HEAD run beside its GET run

`Twin` relates the response of a GET to that of a HEAD which went through the same calls: the
two agree in everything but the connection and the `head` flag, and once the headers are sent
the HEAD has put the header block on the wire and the GET the same block and some of the body.
Every operation of a handler keeps the relation, and ends alike on both sides.  Operations
that look at neither the flag nor the connection are `Quiet`; they need no argument of their
own.  -/

namespace Dusty

open Act

namespace Response

/-- The same response to a HEAD, on another connection. -/
def asHead (self : Response) (conn : Conn) : Response := { self with conn := conn, head := true }

/-- The action looks neither at the connection nor at the `head` flag, and changes neither of
them nor whether the headers are sent. -/
def Quiet {α : Type} (x : Act Response α) : Prop :=
  ∀ r, (final x r).conn = r.conn ∧ (final x r).headersWritten = r.headersWritten ∧
    ∀ conn, x (r.asHead conn) = match x r with
      | .ok a s => .ok a (s.asHead conn)
      | .error e s => .error e (s.asHead conn)

section quiet
variable {α β : Type}

theorem quiet_pure (a : α) : Quiet (pure a : Act Response α) :=
  fun _ => ⟨rfl, rfl, fun _ => rfl⟩

theorem quiet_fail (e : Error) : Quiet (fail e : Act Response α) :=
  fun _ => ⟨rfl, rfl, fun _ => rfl⟩

theorem quiet_assert (b : Bool) : Quiet (assert b : Act Response Unit) := by
  cases b
  · exact fun _ => ⟨rfl, rfl, fun _ => rfl⟩
  · exact quiet_pure ()

theorem quiet_modify {f : Response → Response}
    (hf : ∀ r, (f r).conn = r.conn ∧ (f r).headersWritten = r.headersWritten ∧
      ∀ conn, f (r.asHead conn) = (f r).asHead conn) : Quiet (modify f : Act Response PUnit) := by
  intro r
  obtain ⟨hconn, hw, hhead⟩ := hf r
  refine ⟨hconn, hw, fun conn => ?_⟩
  rw [modify_run, modify_run, hhead]

theorem Quiet.bind {x : Act Response α} {f : α → Act Response β} (hx : Quiet x)
    (hf : ∀ a, Quiet (f a)) : Quiet (x >>= f) := by
  intro r
  obtain ⟨hconn, hw, hhead⟩ := hx r
  unfold final at hconn hw ⊢
  cases h : x r with
  | ok a s =>
      simp only [h] at hconn hw hhead
      obtain ⟨hconn', hw', hhead'⟩ := hf a s
      refine ⟨?_, ?_, fun conn => ?_⟩
      · rw [bind_ok h]
        exact hconn'.trans hconn
      · rw [bind_ok h]
        exact hw'.trans hw
      · rw [bind_ok h, bind_ok (hhead conn), hhead']
  | error e s =>
      simp only [h] at hconn hw hhead
      refine ⟨?_, ?_, fun conn => ?_⟩
      · rw [bind_error h]
        exact hconn
      · rw [bind_error h]
        exact hw
      · rw [bind_error h, bind_error (hhead conn)]

/-- Reading the response is quiet when what is done with it does not depend on the two. -/
theorem quiet_get_bind {f : Response → Act Response α} (hf : ∀ r, Quiet (f r))
    (hhead : ∀ r conn, f (r.asHead conn) = f r) : Quiet (get >>= f) := by
  intro r
  obtain ⟨hconn, hw, h⟩ := hf r r
  refine ⟨hconn, hw, fun conn => ?_⟩
  rw [bind_ok (get_run _), bind_ok (get_run _), hhead]
  exact h conn

theorem Quiet.when {x : Act Response Unit} (hx : Quiet x) (b : Bool) : Quiet (when b x) := by
  cases b
  · exact quiet_pure ()
  · exact hx

theorem quiet_header (name value : Bytes) : Quiet (header name value) := by
  refine quiet_get_bind (fun r => ?_) fun _ _ => rfl
  split
  · exact quiet_fail _
  split
  · exact quiet_fail _
  split
  · exact quiet_fail _
  · cases r.headers.put name value with
    | error e => exact quiet_fail e
    | ok headers => exact quiet_modify fun _ => ⟨rfl, rfl, fun _ => rfl⟩

theorem quiet_serializeCookie (name value : Bytes) (opts : CookieOpts) :
    Quiet (Cookie.serializeCookie name value opts) := by
  unfold Cookie.serializeCookie
  split
  · exact quiet_fail _
  split
  · exact quiet_fail _
  · refine Quiet.bind ?_ fun _ => quiet_pure _
    unfold Cookie.maxAgeAttribute
    split
    · exact quiet_pure _
    · exact (quiet_assert _).bind fun _ => quiet_pure _

theorem quiet_setCookie (name value : Bytes) (opts : CookieOpts) :
    Quiet (setCookie name value opts) := by
  refine quiet_get_bind (fun r => ?_) fun _ _ => rfl
  split
  · exact quiet_fail _
  · refine (quiet_serializeCookie name value opts).bind fun serialized => ?_
    split
    · exact quiet_fail _
    · cases r.headers.add (ascii "Set-Cookie") serialized with
      | error e => exact quiet_fail e
      | ok headers => exact quiet_modify fun _ => ⟨rfl, rfl, fun _ => rfl⟩

theorem quiet_bodyWrite (bytes : Bytes) : Quiet (bodyWrite bytes) :=
  quiet_modify fun _ => ⟨rfl, rfl, fun _ => rfl⟩

theorem quiet_bodyEnd : Quiet bodyEnd := by
  refine quiet_get_bind (fun r => ?_) fun _ _ => rfl
  split
  · exact quiet_pure _
  · exact quiet_modify fun _ => ⟨rfl, rfl, fun _ => rfl⟩

theorem quiet_clearWriter : Quiet clearWriter := quiet_modify fun _ => ⟨rfl, rfl, fun _ => rfl⟩

theorem quiet_resetBody : Quiet resetBody := by
  refine quiet_get_bind (fun r => ?_) fun _ _ => rfl
  refine (quiet_assert _).bind fun _ => quiet_clearWriter.bind fun _ => ?_
  exact quiet_modify fun _ => ⟨rfl, rfl, fun _ => rfl⟩

theorem quiet_json (text : Bytes) : Quiet (json text) :=
  (quiet_bodyWrite text).bind fun _ => quiet_header _ _

theorem quiet_startBody : Quiet startBody := by
  refine quiet_get_bind (fun r => ?_) fun _ _ => rfl
  refine (quiet_assert _).bind fun _ => (quiet_assert _).bind fun _ =>
    (quiet_assert _).bind fun _ => ?_
  exact quiet_modify fun _ => ⟨rfl, rfl, fun _ => rfl⟩

theorem quiet_decideFraming : Quiet decideFraming := by
  refine quiet_get_bind (fun r => ?_) fun _ _ => rfl
  split
  · split
    · exact quiet_modify fun _ => ⟨rfl, rfl, fun _ => rfl⟩
    · exact quiet_fail _
  · exact quiet_modify fun _ => ⟨rfl, rfl, fun _ => rfl⟩

theorem quiet_handleNotFound : Quiet Executor.handleNotFound := by
  refine quiet_get_bind (fun r => ?_) fun _ _ => rfl
  refine (quiet_resetBody.when _).bind fun _ => ?_
  exact quiet_modify fun _ => ⟨rfl, rfl, fun _ => rfl⟩

theorem quiet_handleError : Quiet Executor.handleError :=
  quiet_resetBody.bind fun _ => quiet_modify fun _ => ⟨rfl, rfl, fun _ => rfl⟩

end quiet

/-! ### The two responses -/

/-- `g` answers a GET and `h` the HEAD that went through the same calls. -/
structure Twin (base : Response) (opened : Prop) (g h : Response) : Prop where
  sound : Sound base opened g
  isGet : g.head = false
  same : h = g.asHead h.conn
  faults : h.conn.faults = []
  fresh : g.headersWritten = false → h.conn = base.conn
  block : g.headersWritten = true → ∃ lines tail, (∀ line ∈ lines, IsLine line) ∧
    h.conn.out = base.conn.out ++ headBlock lines ∧
    g.conn.out = base.conn.out ++ headBlock lines ++ tail

variable {base : Response} {opened : Prop}

/-- What a quiet action makes of the two responses. -/
theorem Twin.quiet {g h g' : Response} (hT : Twin base opened g h) (hs : Sound base opened g')
    (hconn : g'.conn = g.conn) (hw : g'.headersWritten = g.headersWritten) :
    Twin base opened g' (g'.asHead h.conn) := by
  refine ⟨hs, ?_, rfl, hT.faults, fun hf => hT.fresh (hw.symm.trans hf), fun ht => ?_⟩
  · rw [hs.head, ← hT.sound.head, hT.isGet]
  · rw [hconn]
    exact hT.block (hw.symm.trans ht)

theorem lockstep_quiet {α : Type} {x : Act Response α} (hq : Quiet x)
    (hk : Keeps (Sound base opened) x) : Lockstep (Twin base opened) Eq x x := by
  intro g h hT
  obtain ⟨hconn, hw, hhead⟩ := hq g
  have hkeep := hk g hT.sound
  have hrun := hhead h.conn
  rw [← hT.same] at hrun
  rw [hrun]
  unfold final at hconn hw
  cases hx : x g with
  | ok a g' =>
      simp only [hx] at hconn hw hkeep ⊢
      exact ⟨trivial, hT.quiet hkeep hconn hw⟩
  | error e g' =>
      simp only [hx] at hconn hw hkeep ⊢
      exact ⟨trivial, hT.quiet hkeep hconn hw⟩

/-- With the headers sent, the GET may write more and the HEAD may flush. -/
theorem Twin.grow {g h : Response} (hT : Twin base opened g h) (hw : g.headersWritten = true)
    {conn conn' : Conn} (hfaults : conn.faults = []) {bytes : Bytes}
    (hout : conn.out = g.conn.out ++ bytes) (hfaults' : conn'.faults = [])
    (hout' : conn'.out = h.conn.out) : Twin base opened (g.setConn conn) (h.setConn conn') := by
  obtain ⟨lines, tail, hlines, hblock, htail⟩ := hT.block hw
  have hnot : ¬(g.setConn conn).headersWritten = false := by simp [setConn, hw]
  refine ⟨⟨hfaults, hT.sound.valid, fun hf => absurd hf hnot, hT.sound.sent, hT.sound.head⟩,
    hT.isGet, ?_, hfaults', fun hf => absurd hf hnot, fun _ => ?_⟩
  · rw [hT.same]
    rfl
  · refine ⟨lines, tail ++ bytes, hlines, ?_, ?_⟩
    · exact hout'.trans hblock
    · rw [setConn_conn, hout, htail, List.append_assoc]

theorem Twin.headersWritten {g h : Response} (hT : Twin base opened g h) :
    h.headersWritten = g.headersWritten := by
  rw [hT.same]
  rfl

theorem Twin.relax {g h : Response} (hT : Twin base True g h) : Twin base opened g h :=
  ⟨hT.sound.relax, hT.isGet, hT.same, hT.faults, hT.fresh, hT.block⟩

theorem Twin.toOpened {g h : Response} (hT : Twin base opened g h) (hw : g.headersWritten = true) :
    Twin base True g h :=
  ⟨hT.sound.toOpened hw, hT.isGet, hT.same, hT.faults, hT.fresh, hT.block⟩

theorem Twin.reopen {opened' : Prop} {g h : Response} (hT : Twin base opened g h)
    (hsent : opened' → g.headersWritten = true) : Twin base opened' g h :=
  ⟨⟨hT.sound.faults, hT.sound.valid, hT.sound.fresh, hsent, hT.sound.head⟩, hT.isGet, hT.same,
    hT.faults, hT.fresh, hT.block⟩

theorem Twin.isHead {g h : Response} (hT : Twin base opened g h) : h.head = true := by
  rw [hT.same]
  rfl

/-- A change that neither the connection nor the header block depends on. -/
theorem Twin.assign {g h : Response} (hT : Twin base True g h) {f : Response → Response}
    (hconn : ∀ r, (f r).conn = r.conn) (hheaders : ∀ r, (f r).headers = r.headers)
    (hw : ∀ r, (f r).headersWritten = r.headersWritten) (hhead : ∀ r, (f r).head = r.head)
    (hsame : ∀ r conn, f (r.asHead conn) = (f r).asHead conn) : Twin base True (f g) (f h) := by
  have hsent : (f g).headersWritten = true := (hw _).trans (hT.sound.sent trivial)
  have hnot : ¬(f g).headersWritten = false := by simp [hsent]
  refine ⟨⟨?_, ?_, fun hf => absurd hf hnot, fun _ => hsent, (hhead _).trans hT.sound.head⟩,
    (hhead _).trans hT.isGet, ?_, ?_, fun hf => absurd hf hnot, fun _ => ?_⟩
  · rw [hconn]
    exact hT.sound.faults
  · rw [hheaders]
    exact hT.sound.valid
  · rw [hconn, ← hsame, ← hT.same]
  · rw [hconn]
    exact hT.faults
  · rw [hconn, hconn]
    exact hT.block (hT.sound.sent trivial)

theorem twin_sentHead {g : Response} {conn : Conn} (hget : g.head = false)
    (hhead : g.head = base.head) (hvalid : HeadersValid g.headers) (hfaults : base.conn.faults = [])
    (hg : g.conn = base.conn) (hh : conn = base.conn) :
    Twin base True g.sentHead (g.asHead conn).sentHead := by
  have hnot : ¬g.sentHead.headersWritten = false := by simp [sentHead]
  have hlines : (g.asHead conn).headLines = g.headLines := rfl
  refine ⟨⟨?_, hvalid, fun hf => absurd hf hnot, fun _ => rfl, hhead⟩, hget, rfl, ?_,
    fun hf => absurd hf hnot, fun _ => ?_⟩
  · rw [sentHead, Conn.faults_wroteLines, hg, hfaults]
  · rw [sentHead, Conn.faults_wroteLines]
    exact (congrArg Conn.faults hh).trans hfaults
  · refine ⟨g.headLines, [], isLine_headLines hvalid, ?_, ?_⟩
    · rw [← hlines, ← hh]
      exact Conn.out_wroteLines_block _ _
    · rw [List.append_nil, ← hg]
      exact Conn.out_wroteLines_block _ _

theorem Twin.base_faults {g h : Response} (hT : Twin base opened g h)
    (hw : g.headersWritten = false) : base.conn.faults = [] := by
  rw [← (hT.sound.fresh hw).2.2.2]
  exact hT.sound.faults

theorem lockstep_writeHeader : Lockstep (Twin base opened) Eq writeHeader writeHeader := by
  intro g h hT
  cases hw : g.headersWritten with
  | true =>
      rw [writeHeader_done hw, writeHeader_done (hT.headersWritten.trans hw)]
      exact ⟨rfl, hT⟩
  | false =>
      have hsettled : h.settledHeaders = g.settledHeaders := by rw [hT.same]; rfl
      rw [writeHeader_run hT.sound.faults hw, writeHeader_run hT.faults (hT.headersWritten.trans hw),
        hsettled]
      cases hs : g.settledHeaders with
      | error e => exact ⟨rfl, hT⟩
      | ok headers =>
          have hvalid := settledHeaders_valid hT.sound.valid hs
          have hsent : Twin base True (g.setHeaders headers).sentHead
              ((g.setHeaders headers).asHead h.conn).sentHead :=
            twin_sentHead hT.isGet hT.sound.head hvalid (hT.base_faults hw)
              (hT.sound.fresh hw).2.2.2 (hT.fresh hw)
          have hh : h.setHeaders headers = (g.setHeaders headers).asHead h.conn := by
            rw [hT.same]
            rfl
          simp only
          rw [hh]
          exact ⟨trivial, hsent.relax⟩

theorem lockstep_flush : Lockstep (Twin base True) Eq (onConn Conn.flush) (onConn Conn.flush) := by
  intro g h hT
  rw [onConn_flush_run hT.sound.faults, onConn_flush_run hT.faults]
  exact ⟨rfl, hT.grow (hT.sound.sent trivial) hT.sound.faults (List.append_nil _).symm hT.faults rfl⟩

/-- What the GET writes of the body, the HEAD leaves out. -/
theorem lockstep_writeAll (part : Part) (bytes : Bytes) :
    Lockstep (Twin base True) Eq (onConn (Conn.writeAll part bytes)) (pure ()) := by
  intro g h hT
  rw [onConn_writeAll_run hT.sound.faults]
  have hfaults : (g.conn.wrote part bytes).faults = [] := hT.sound.faults
  exact ⟨rfl, hT.grow (hT.sound.sent trivial) hfaults (Conn.out_wrote g.conn part bytes) hT.faults rfl⟩

theorem lockstep_stream : Lockstep (Twin base opened) Eq stream stream :=
  (lockstep_quiet quiet_startBody keeps_startBody).bind fun _ _ _ =>
    (lockstep_quiet quiet_decideFraming keeps_decideFraming).bind fun _ _ _ =>
      lockstep_writeHeader

/-- The fields of an event stream. -/
def putEventFields : Act Response Unit := do
  header (ascii "Content-Type") (ascii "text/event-stream")
  header (ascii "Cache-Control") (ascii "no-cache")
  modify fun self => { self with keepalive := false, streaming := true }

theorem quiet_putEventFields : Quiet putEventFields :=
  (quiet_header _ _).bind fun _ => (quiet_header _ _).bind fun _ =>
    quiet_modify fun _ => ⟨rfl, rfl, fun _ => rfl⟩

theorem startEventStream_eq : startEventStream = (do
    putEventFields
    writeHeader
    onConn Conn.flush
    let self ← get
    pure self.head) := by
  simp only [startEventStream, putEventFields, bind_assoc]

theorem startEventStream_ok {r r₁ : Response} {u : Unit} (hx : putEventFields r = .ok u r₁)
    (hf : r₁.conn.faults = []) (hw : r₁.headersWritten = false) {headers : Headers}
    (hs : r₁.settledHeaders = .ok headers) :
    startEventStream r = .ok r₁.head ((r₁.setHeaders headers).sentHead.setConn
      (r₁.setHeaders headers).sentHead.conn.flushedAll) := by
  have hrun := writeHeader_run hf hw
  rw [hs] at hrun
  have hf' : (r₁.setHeaders headers).sentHead.conn.faults = [] :=
    (Conn.faults_wroteLines _ _).trans hf
  rw [startEventStream_eq, bind_ok hx, bind_ok hrun, bind_ok (onConn_flush_run hf')]
  rfl

theorem startEventStream_error {r r₁ : Response} {u : Unit} (hx : putEventFields r = .ok u r₁)
    (hf : r₁.conn.faults = []) (hw : r₁.headersWritten = false) {e : Error}
    (hs : r₁.settledHeaders = .error e) : startEventStream r = .error (.err e) r₁ := by
  have hrun := writeHeader_run hf hw
  rw [hs] at hrun
  rw [startEventStream_eq, bind_ok hx, bind_error hrun]

/-- An event stream starts alike on both sides, and for a HEAD it goes into a sink. -/
theorem startEventStream_twin {g h : Response} (hT : Twin base opened g h) :
    match startEventStream g, startEventStream h with
    | .ok a g', .ok b h' => (a = false ∧ b = true) ∧ Twin base True g' h'
    | .error e g', .error e' h' => e = e' ∧ Twin base opened g' h'
    | _, _ => False := by
  have hsound := startEventStream_triple g hT.sound
  obtain ⟨hconn, hw, hhead⟩ := quiet_putEventFields g
  replace hhead := hhead h.conn
  rw [← hT.same] at hhead
  unfold final at hconn hw
  cases hx : putEventFields g with
  | error e g' =>
      simp only [hx] at hconn hw hhead
      have hg : startEventStream g = .error e g' := by rw [startEventStream_eq, bind_error hx]
      have hh : startEventStream h = .error e (g'.asHead h.conn) := by
        rw [startEventStream_eq, bind_error hhead]
      rw [hg] at hsound
      rw [hg, hh]
      exact ⟨rfl, hT.quiet hsound hconn hw⟩
  | ok u g₁ =>
      simp only [hx] at hconn hw hhead
      cases hwg : g.headersWritten with
      | true =>
          have hfail : header (ascii "Content-Type") (ascii "text/event-stream") g =
              .error (.err .headersAlreadySent) g := by
            simp [header, bind_run, hwg]
          rw [putEventFields, bind_error hfail] at hx
          exact absurd hx (by simp)
      | false =>
          have hw₁ : g₁.headersWritten = false := hw.trans hwg
          have hf₁ : g₁.conn.faults = [] := by rw [hconn]; exact hT.sound.faults
          have hsettled : (g₁.asHead h.conn).settledHeaders = g₁.settledHeaders := rfl
          cases hs : g₁.settledHeaders with
          | error e =>
              rw [startEventStream_error hx hf₁ hw₁ hs] at hsound ⊢
              rw [startEventStream_error hhead hT.faults hw₁ (hsettled.trans hs)]
              exact ⟨rfl, hT.quiet hsound hconn hw⟩
          | ok headers =>
              rw [startEventStream_ok hx hf₁ hw₁ hs] at hsound ⊢
              rw [startEventStream_ok hhead hT.faults hw₁ (hsettled.trans hs)]
              obtain ⟨hsound, hflag⟩ := hsound
              have hget : g₁.head = false := hsound.head.trans (hT.sound.head.symm.trans hT.isGet)
              have hsent : Twin base True (g₁.setHeaders headers).sentHead
                  ((g₁.setHeaders headers).asHead h.conn).sentHead :=
                twin_sentHead hget hsound.head hsound.valid (hT.base_faults hwg)
                  (hconn.trans (hT.sound.fresh hwg).2.2.2) (hT.fresh hwg)
              refine ⟨⟨hget, rfl⟩, ?_⟩
              exact hsent.grow rfl hsent.sound.faults (List.append_nil _).symm hsent.faults rfl

end Response

/-! ### The two writers -/

namespace Attached

variable {W : Type} {base : Response}

/-- Writers of the two responses, related by `V`. -/
def Pair (base : Response) (V : W → W → Prop) (g h : Attached W) : Prop :=
  Response.Twin base True g.res h.res ∧ V g.w h.w

variable {V : W → W → Prop}

theorem lockstep_puts {bytes : Bytes} {x y : Act (Attached W) Unit} (hx : Puts bytes x)
    (hy : Puts [] y) : Lockstep (Pair base V) Eq x y := by
  rintro g h ⟨hT, hV⟩
  obtain ⟨conn, hrun, hfaults, hout⟩ := hx g hT.sound.faults
  obtain ⟨conn', hrun', hfaults', hout'⟩ := hy h hT.faults
  rw [List.append_nil] at hout'
  rw [hrun, hrun']
  exact ⟨rfl, hT.grow (hT.sound.sent trivial) hfaults hout hfaults' hout', hV⟩

theorem lockstep_flushConn :
    Lockstep (Pair base V) Eq (flushConn : Act (Attached W) Unit) flushConn :=
  lockstep_puts puts_flushConn puts_flushConn

end Attached

namespace StreamingBodyWriter

open Attached

variable {base : Response}

theorem Pair.assign {g h : Self} (hP : Pair base Eq g h) {f : Response → Response}
    (hconn : ∀ r, (f r).conn = r.conn) (hheaders : ∀ r, (f r).headers = r.headers)
    (hw : ∀ r, (f r).headersWritten = r.headersWritten) (hhead : ∀ r, (f r).head = r.head)
    (hsame : ∀ r conn, f (r.asHead conn) = (f r).asHead conn) :
    Pair base Eq (g.setRes (f g.res)) (h.setRes (f h.res)) :=
  ⟨hP.1.assign hconn hheaders hw hhead hsame, hP.2⟩

theorem drain_run {a : Self} (h : a.res.conn.faults = []) (hget : a.res.head = false)
    (data : List Bytes) (pattern : Bytes) (splat : ℕ) (hsome : drainTotal a data pattern splat ≠ 0) :
    ∃ conn bytes, drain data pattern splat a =
        .ok () (consume (drainTotal a data pattern splat) (a.setConn conn)) ∧
      conn.faults = [] ∧ conn.out = a.res.conn.out ++ bytes := by
  obtain ⟨conn, hrun, hfaults, hout⟩ := puts_record (puts_writeFramed a data pattern splat) a h
  refine ⟨conn, _, ?_, hfaults, hout⟩
  rw [drain, bind_ok (get_run _), if_neg hsome, if_neg (by simp [hget]), bind_ok hrun, modify_run]

theorem drain_head {a : Self} (hhead : a.res.head = true) (data : List Bytes) (pattern : Bytes)
    (splat : ℕ) (hsome : drainTotal a data pattern splat ≠ 0) :
    drain data pattern splat a = .ok () (consume (drainTotal a data pattern splat) a) := by
  rw [drain, bind_ok (get_run _), if_neg hsome, if_pos hhead, modify_run]

theorem drain_nothing {a : Self} {data : List Bytes} {pattern : Bytes} {splat : ℕ}
    (hzero : drainTotal a data pattern splat = 0) : drain data pattern splat a = .ok () a := by
  rw [drain, bind_ok (get_run _), if_pos hzero, pure_run]

/-- A drain writes for the GET only and is accounted for on both sides. -/
theorem lockstep_drain (data : List Bytes) (pattern : Bytes) (splat : ℕ) :
    Lockstep (Pair base Eq) Eq (drain data pattern splat) (drain data pattern splat) := by
  rintro g h ⟨hT, hw⟩
  have htotal : drainTotal h data pattern splat = drainTotal g data pattern splat := by
    rw [drainTotal, drainTotal, hw]
  by_cases hzero : drainTotal g data pattern splat = 0
  · rw [drain_nothing hzero, drain_nothing (htotal.trans hzero)]
    exact ⟨rfl, hT, hw⟩
  · obtain ⟨conn, bytes, hrun, hfaults, hout⟩ :=
      drain_run hT.sound.faults hT.isGet data pattern splat hzero
    rw [hrun, drain_head hT.isHead data pattern splat (by rwa [htotal]), htotal]
    have hgrow := hT.grow (hT.sound.sent trivial) hfaults hout hT.faults rfl
    refine ⟨rfl, ?_, ?_⟩
    · exact hgrow.assign (f := fun r =>
        { r with bodySent := r.bodySent + drainTotal g data pattern splat })
        (fun _ => rfl) (fun _ => rfl) (fun _ => rfl) (fun _ => rfl) fun _ _ => rfl
    · show ({ g.w with buffered := [] } : StreamingBodyWriter) = { h.w with buffered := [] }
      rw [hw]

theorem lockstep_writeSplatAll (data : List Bytes) (pattern : Bytes) (splat : ℕ) :
    Lockstep (Pair base Eq) Eq (writeSplatAll data pattern splat)
      (writeSplatAll data pattern splat) := by
  refine lockstep_get_bind fun g h hP => ?_
  have htotal : drainTotal h data pattern splat = drainTotal g data pattern splat := by
    rw [drainTotal, drainTotal, hP.2]
  rw [htotal, ← hP.2]
  split
  · exact lockstep_drain data pattern splat
  · exact lockstep_modify fun g h hP => ⟨hP.1, by rw [hP.2]⟩

theorem lockstep_writeAll (bytes : Bytes) :
    Lockstep (Pair base Eq) Eq (writeAll bytes) (writeAll bytes) := by
  unfold writeAll
  split
  · exact lockstep_pure rfl
  · exact lockstep_writeSplatAll _ _ _

theorem lockstep_streamFlush : Lockstep (Pair base Eq) Eq flush flush := by
  refine lockstep_get_bind fun g h hP => ?_
  rw [← hP.2]
  exact (lockstep_drain _ _ _).when _

theorem flush_returns {a : Self} (h : a.res.conn.faults = []) (hget : a.res.head = false) :
    ∃ a', flush a = .ok () a' := by
  unfold flush
  rw [bind_ok (get_run a)]
  cases (a.w.buffered.length != 0) with
  | false => exact ⟨a, rfl⟩
  | true =>
      rw [when_true]
      by_cases hzero : drainTotal a [] [] 1 = 0
      · exact ⟨a, drain_nothing hzero⟩
      · obtain ⟨conn, bytes, hrun, -⟩ := drain_run h hget [] [] 1 hzero
        exact ⟨_, hrun⟩

theorem lockstep_commit {x y : Act Self Unit} (h : Lockstep (Pair base Eq) Eq x y)
    (hok : ∀ a, a.res.conn.faults = [] → a.res.head = false → ∃ a', x a = .ok () a') :
    Lockstep (Pair base Eq) Eq (commit x) (commit y) := by
  intro g t hP
  obtain ⟨g', hg⟩ := hok g hP.1.sound.faults hP.1.isGet
  obtain ⟨u, t', ht, -, hP'⟩ := h.ok hP hg
  rw [commit_ok hg, commit_ok ht]
  exact ⟨rfl, hP'⟩

theorem Puts.returns {bytes : Bytes} {x : Act Self Unit} (h : Puts bytes x) {a : Self}
    (ha : a.res.conn.faults = []) : ∃ a', x a = .ok () a' := by
  obtain ⟨conn, hrun, -⟩ := h a ha
  exact ⟨_, hrun⟩

/-- **A streamed body ends alike on both sides**: with the same error, if any, and only the
GET's last chunk on the wire. -/
theorem lockstep_finish : Lockstep (Pair base Eq) Eq finish finish := by
  refine lockstep_get_bind fun g h hP => ?_
  have hopen : h.res.bodyWriterOpen = g.res.bodyWriterOpen := by rw [hP.1.same]; rfl
  have hchunked : h.res.chunked = g.res.chunked := by rw [hP.1.same]; rfl
  rw [hopen, hchunked, hP.1.isGet, hP.1.isHead, Bool.not_true, Bool.and_false, when_false]
  split
  · exact lockstep_pure rfl
  refine Lockstep.bind (V := Eq) (lockstep_modify fun g h hP => ?_) fun _ _ _ => ?_
  · exact Pair.assign hP (f := fun r => r.closeBody.markWritten)
      (fun _ => rfl) (fun _ => rfl) (fun _ => rfl) (fun _ => rfl) fun _ _ => rfl
  refine Lockstep.onError ?_ fun g h hP => ?_
  · refine (lockstep_commit lockstep_streamFlush fun _ => flush_returns).bind fun _ _ _ => ?_
    refine (lockstep_puts ((puts_commit (puts_emit _)).when _) puts_pure).bind fun _ _ _ => ?_
    refine (lockstep_commit lockstep_flushConn fun _ ha _ => Puts.returns puts_flushConn ha).bind
      fun _ _ _ => ?_
    refine lockstep_get_bind fun g h hP => ?_
    have hlength : h.res.contentLength = g.res.contentLength := by rw [hP.1.same]; rfl
    have hsent : h.res.bodySent = g.res.bodySent := by rw [hP.1.same]; rfl
    rw [hlength, hsent]
    cases g.res.contentLength with
    | none => exact lockstep_pure rfl
    | some declared => exact (lockstep_fail _).when _
  · exact Pair.assign hP (f := Response.noKeepalive)
      (fun _ => rfl) (fun _ => rfl) (fun _ => rfl) (fun _ => rfl) fun _ _ => rfl

end StreamingBodyWriter

namespace EventWriter

open Attached

variable {base : Response}

/-- The event writers of a GET and of its HEAD: the latter writes into a sink. -/
def Sink (w v : EventWriter) : Prop := w.discard = false ∧ v = { w with discard := true }

theorem lockstep_emit (bytes : Bytes) : Lockstep (Pair base Sink) Eq (emit bytes) (emit bytes) := by
  refine lockstep_get_bind fun g h hP => ?_
  obtain ⟨-, hg, hh⟩ := hP
  rw [hg, hh]
  exact lockstep_puts (puts_emit bytes) puts_pure

theorem lockstep_flushConn : Lockstep (Pair base Sink) Eq flushConn flushConn := by
  refine lockstep_get_bind fun g h hP => ?_
  obtain ⟨-, hg, hh⟩ := hP
  rw [hg, hh]
  exact lockstep_puts puts_flushConn puts_pure

theorem lockstep_emitField (name : Bytes) (value : Option Bytes) :
    Lockstep (Pair base Sink) Eq (emitField name value) (emitField name value) := by
  cases value with
  | none => exact lockstep_pure rfl
  | some value => exact lockstep_emit _

theorem lockstep_startSend (opts : EventOptions) :
    Lockstep (Pair base Sink) Eq (startSend opts) (startSend opts) := by
  unfold startSend
  split
  · exact lockstep_fail _
  split
  · exact lockstep_fail _
  · exact (lockstep_emitField _ _).bind fun _ _ _ => (lockstep_emitField _ _).bind fun _ _ _ =>
      lockstep_emitField _ _

theorem lockstep_sendLines : ∀ lines : List Bytes,
    Lockstep (Pair base Sink) Eq (sendLines lines) (sendLines lines)
  | [] => lockstep_pure rfl
  | _ :: rest => (lockstep_emit _).bind fun _ _ _ => lockstep_sendLines rest

theorem lockstep_send (data : Bytes) (opts : EventOptions) :
    Lockstep (Pair base Sink) Eq (send data opts) (send data opts) :=
  (lockstep_startSend opts).bind fun _ _ _ => (lockstep_sendLines _).bind fun _ _ _ =>
    (lockstep_emit _).bind fun _ _ _ => lockstep_flushConn

theorem lockstep_setLineInProgress (b : Bool) :
    Lockstep (Pair base Sink) Eq (setLineInProgress b) (setLineInProgress b) :=
  lockstep_modify fun g h hP => ⟨hP.1, hP.2.1, by rw [hP.2.2]⟩

/-- Both sides are in the middle of a line, or neither. -/
theorem Sink.lineInProgress {w v : EventWriter} (h : Sink w v) :
    v.lineInProgress = w.lineInProgress := by
  rw [h.2]

theorem lockstep_openLine : Lockstep (Pair base Sink) Eq openLine openLine := by
  refine lockstep_get_bind fun g h hP => ?_
  rw [hP.2.lineInProgress]
  exact (lockstep_emit _).when _

theorem lockstep_keepLine : Lockstep (Pair base Sink) Eq keepLine keepLine := by
  refine lockstep_get_bind fun g h hP => ?_
  rw [hP.2.lineInProgress]
  exact ((lockstep_emit _).bind fun _ _ _ => lockstep_setLineInProgress _).when _

theorem lockstep_writeLines : ∀ pieces : List Bytes,
    Lockstep (Pair base Sink) Eq (writeLines pieces) (writeLines pieces)
  | [] => lockstep_pure rfl
  | [rest] => (lockstep_keepLine.bind fun _ _ _ => lockstep_emit rest).when _
  | _ :: next :: rest =>
      lockstep_openLine.bind fun _ _ _ => (lockstep_emit _).bind fun _ _ _ =>
        (lockstep_emit _).bind fun _ _ _ => (lockstep_setLineInProgress _).bind fun _ _ _ =>
          lockstep_writeLines (next :: rest)

theorem lockstep_writeAll (bytes : Bytes) :
    Lockstep (Pair base Sink) Eq (writeAll bytes) (writeAll bytes) := by
  unfold writeAll
  split
  · exact lockstep_pure rfl
  · exact lockstep_writeLines _

theorem lockstep_finish : Lockstep (Pair base Sink) Eq finish finish := by
  refine lockstep_get_bind fun g h hP => ?_
  rw [hP.2.lineInProgress]
  exact ((lockstep_emit _).when _).bind fun _ _ _ => (lockstep_emit _).bind fun _ _ _ =>
    lockstep_flushConn

end EventWriter

/-! ### The two handlers -/

namespace HandlerState

open Attached

/-- `g` serves a GET and `h` the HEAD that went through the same calls. -/
structure Twins (base : Response) (g h : HandlerState) : Prop where
  res : Response.Twin base g.Opened g.res h.res
  bodyWriter : h.bodyWriter = g.bodyWriter
  stream : h.stream = g.stream
  events : g.events = none ∧ h.events = none ∨ g.events = some false ∧ h.events = some true
  eventWriters : List.Forall₂ EventWriter.Sink g.eventWriters h.eventWriters

variable {base : Response}

theorem Twins.setRes {g h : HandlerState} (hT : Twins base g h) {r t : Response}
    (hr : Response.Twin base g.Opened r t) : Twins base (g.setRes r) (h.setRes t) :=
  ⟨hr, hT.bodyWriter, hT.stream, hT.events, hT.eventWriters⟩

theorem lockstep_onRes {α : Type} {V : α → α → Prop} {x y : Act Response α}
    (h : ∀ opened, Lockstep (Response.Twin base opened) V x y) :
    Lockstep (Twins base) V (onRes x) (onRes y) := by
  intro g t hT
  have hx := h g.Opened g.res t.res hT.res
  unfold onRes zoom
  cases hg : x g.res with
  | ok a r =>
      cases ht : y t.res with
      | ok b r' =>
          rw [hg, ht] at hx
          exact ⟨hx.1, hT.setRes hx.2⟩
      | error e r' => simp [hg, ht] at hx
  | error e r =>
      cases ht : y t.res with
      | ok b r' => simp [hg, ht] at hx
      | error e' r' =>
          rw [hg, ht] at hx
          exact ⟨hx.1, hT.setRes hx.2⟩

theorem lockstep_onBodyWriter {x : Act Response Unit}
    (h : ∀ opened, Lockstep (Response.Twin base opened) Eq x x) :
    Lockstep (Twins base) Eq (onBodyWriter x) (onBodyWriter x) := by
  refine lockstep_get_bind fun g t hT => ?_
  rw [hT.bodyWriter]
  exact (lockstep_onRes h).when _

theorem lockstep_onStream {x : Act StreamingBodyWriter.Self Unit}
    (h : Lockstep (Pair base Eq) Eq x x) : Lockstep (Twins base) Eq (onStream x) (onStream x) := by
  intro g t hT
  unfold onStream
  rw [bind_ok (get_run g), bind_ok (get_run t), hT.stream]
  cases hs : g.stream with
  | none => exact ⟨rfl, hT⟩
  | some w =>
      have hw : g.res.headersWritten = true := hT.res.sound.sent (.inl (by rw [hs]; rfl))
      have hP : Pair base Eq (⟨g.res, g.stream.getD w⟩ : StreamingBodyWriter.Self)
          ⟨t.res, t.stream.getD w⟩ := ⟨hT.res.toOpened hw, by rw [hT.stream]⟩
      unfold zoom
      cases hx : x ⟨g.res, g.stream.getD w⟩ with
      | ok u a =>
          obtain ⟨v, b, hy, huv, hP'⟩ := h.ok hP hx
          simp only [hx, hy]
          exact ⟨trivial, hP'.1.relax, hT.bodyWriter, by rw [hP'.2], hT.events, hT.eventWriters⟩
      | error e a =>
          obtain ⟨b, hy, hP'⟩ := h.error hP hx
          simp only [hx, hy]
          exact ⟨trivial, hP'.1.relax, hT.bodyWriter, by rw [hP'.2], hT.events, hT.eventWriters⟩

theorem lockstep_onEvents {x : Act EventWriter.Self Unit}
    (h : Lockstep (Pair base EventWriter.Sink) Eq x x) :
    Lockstep (Twins base) Eq (onEvents x) (onEvents x) := by
  intro g t hT
  unfold onEvents
  rw [bind_ok (get_run g), bind_ok (get_run t)]
  rcases hT.events with ⟨hg, ht⟩ | ⟨hg, ht⟩
  · rw [hg, ht]
    exact ⟨rfl, hT⟩
  · have hw : g.res.headersWritten = true := hT.res.sound.sent (.inr (.inl (by rw [hg]; rfl)))
    have hP : Pair base EventWriter.Sink (⟨g.res, ⟨false, false⟩⟩ : EventWriter.Self)
        ⟨t.res, ⟨true, false⟩⟩ := ⟨hT.res.toOpened hw, rfl, rfl⟩
    rw [hg, ht]
    unfold zoom
    cases hx : x ⟨g.res, ⟨false, false⟩⟩ with
    | ok u a =>
        obtain ⟨v, b, hy, huv, hP'⟩ := h.ok hP hx
        simp only [hx, hy]
        exact ⟨trivial, hT.setRes hP'.1.relax⟩
    | error e a =>
        obtain ⟨b, hy, hP'⟩ := h.error hP hx
        simp only [hx, hy]
        exact ⟨trivial, hT.setRes hP'.1.relax⟩

theorem forall₂_set {α β : Type} {R : α → β → Prop} {as : List α} {bs : List β} {a : α} {b : β}
    (h : List.Forall₂ R as bs) (hab : R a b) (i : ℕ) :
    List.Forall₂ R (as.set i a) (bs.set i b) := by
  induction h generalizing i with
  | nil => exact .nil
  | cons hr _ ih =>
      cases i with
      | zero => exact .cons hab ‹_›
      | succ i => exact .cons hr (ih i)

theorem forall₂_getElem? {α β : Type} {R : α → β → Prop} {as : List α} {bs : List β}
    (h : List.Forall₂ R as bs) (i : ℕ) :
    as[i]? = none ∧ bs[i]? = none ∨ ∃ a b, as[i]? = some a ∧ bs[i]? = some b ∧ R a b := by
  induction h generalizing i with
  | nil => exact .inl ⟨rfl, rfl⟩
  | cons hr _ ih =>
      cases i with
      | zero => exact .inr ⟨_, _, rfl, rfl, hr⟩
      | succ i => exact ih i

theorem lockstep_onEventWriter (i : ℕ) {x : Act EventWriter.Self Unit}
    (h : Lockstep (Pair base EventWriter.Sink) Eq x x) :
    Lockstep (Twins base) Eq (onEventWriter i x) (onEventWriter i x) := by
  intro g t hT
  unfold onEventWriter
  rw [bind_ok (get_run g), bind_ok (get_run t)]
  rcases forall₂_getElem? hT.eventWriters i with ⟨hg, ht⟩ | ⟨w, v, hg, ht, hwv⟩
  · rw [hg, ht]
    exact ⟨rfl, hT⟩
  · have hne : g.eventWriters ≠ [] := by
      rintro hnil
      simp [hnil] at hg
    have hw : g.res.headersWritten = true := hT.res.sound.sent (.inr (.inr hne))
    have hgw : g.eventWriters.getD i w = w := by simp [hg]
    have htv : t.eventWriters.getD i v = v := by simp [ht]
    have hP : Pair base EventWriter.Sink
        (⟨g.res, g.eventWriters.getD i w⟩ : EventWriter.Self) ⟨t.res, t.eventWriters.getD i v⟩ :=
      ⟨hT.res.toOpened hw, by rw [hgw, htv]; exact hwv⟩
    rw [hg, ht]
    unfold zoom
    cases hx : x ⟨g.res, g.eventWriters.getD i w⟩ with
    | ok u a =>
        obtain ⟨u', b, hy, huv, hP'⟩ := h.ok hP hx
        simp only [hx, hy]
        exact ⟨trivial, hP'.1.relax, hT.bodyWriter, hT.stream, hT.events,
          forall₂_set hT.eventWriters hP'.2 i⟩
    | error e a =>
        obtain ⟨b, hy, hP'⟩ := h.error hP hx
        simp only [hx, hy]
        exact ⟨trivial, hP'.1.relax, hT.bodyWriter, hT.stream, hT.events,
          forall₂_set hT.eventWriters hP'.2 i⟩

end HandlerState

namespace Executor

open HandlerState Response

variable {base : Response}

theorem lockstep_onQuiet {α : Type} {x : Act Response α} (hq : Quiet x)
    (hk : ∀ opened, Keeps (Sound base opened) x) : Lockstep (Twins base) Eq (onRes x) (onRes x) :=
  lockstep_onRes fun opened => lockstep_quiet hq (hk opened)

theorem lockstep_assign {f : Response → Response}
    (hf : ∀ r, (f r).conn = r.conn ∧ (f r).headersWritten = r.headersWritten ∧
      ∀ conn, f (r.asHead conn) = (f r).asHead conn)
    (hs : ∀ opened r, Sound base opened r → Sound base opened (f r)) :
    Lockstep (Twins base) Eq (onRes (modify f)) (onRes (modify f)) :=
  lockstep_onQuiet (quiet_modify hf) fun opened => keeps_modify (hs opened)

theorem lockstep_execStream (cap : ℕ) :
    Lockstep (Twins base) Eq (exec (.stream cap)) (exec (.stream cap)) := by
  intro g t hT
  have hlock := lockstep_onRes (fun _ => lockstep_stream) g t hT
  have hsent := onRes_triple stream_triple hT.res.sound
  rw [exec, bind_run, bind_run]
  cases hg : onRes stream g with
  | ok u g' =>
      cases ht : onRes stream t with
      | error e t' => simp [hg, ht] at hlock
      | ok v t' =>
          simp only [hg, ht] at hlock hsent
          obtain ⟨-, hT'⟩ := hlock
          obtain ⟨r, rfl, hr, hw⟩ := hsent
          refine ⟨rfl, (hT'.res.toOpened hw).relax, hT'.bodyWriter, rfl, hT'.events,
            hT'.eventWriters⟩
  | error e g' =>
      cases ht : onRes stream t with
      | ok v t' => simp [hg, ht] at hlock
      | error e' t' =>
          simp only [hg, ht] at hlock
          exact hlock

theorem lockstep_execStartEventStream :
    Lockstep (Twins base) Eq (exec .startEventStream) (exec .startEventStream) := by
  intro g t hT
  have h := startEventStream_twin hT.res
  rw [exec, bind_run, bind_run]
  unfold onRes zoom
  cases hg : startEventStream g.res with
  | ok a r =>
      cases ht : startEventStream t.res with
      | error e r' => simp [hg, ht] at h
      | ok b r' =>
          simp only [hg, ht] at h ⊢
          obtain ⟨⟨rfl, rfl⟩, hT'⟩ := h
          exact ⟨trivial, hT'.relax, hT.bodyWriter, hT.stream, .inr ⟨rfl, rfl⟩, hT.eventWriters⟩
  | error e r =>
      cases ht : startEventStream t.res with
      | ok b r' => simp [hg, ht] at h
      | error e' r' =>
          simp only [hg, ht] at h ⊢
          exact ⟨h.1, hT.setRes h.2⟩

theorem lockstep_execStartSend (opts : EventOptions) :
    Lockstep (Twins base) Eq (exec (.startSend opts)) (exec (.startSend opts)) := by
  rw [exec]
  refine (lockstep_onEvents (EventWriter.lockstep_startSend opts)).bind fun _ _ _ => ?_
  refine lockstep_modify fun g t hT => ⟨hT.res.reopen ?_, hT.bodyWriter, hT.stream, hT.events, ?_⟩
  · rintro (hs | hs | hs)
    · exact hT.res.sound.sent (.inl hs)
    · exact hT.res.sound.sent (.inr (.inl hs))
    · cases he : g.events with
      | none => exact hT.res.sound.sent (.inr (.inr (by simpa [he] using hs)))
      | some d => exact hT.res.sound.sent (.inr (.inl (by rw [he]; rfl)))
  · rcases hT.events with ⟨hg, ht⟩ | ⟨hg, ht⟩
    · rw [hg, ht]
      exact List.rel_append hT.eventWriters .nil
    · rw [hg, ht]
      exact List.rel_append hT.eventWriters (.cons ⟨rfl, rfl⟩ .nil)

/-- **Every operation of a handler does the same for a GET and its HEAD.** -/
theorem lockstep_exec (op : Op) : Lockstep (Twins base) Eq (exec op) (exec op) := by
  cases op with
  | setStatus status =>
      rw [exec]
      exact lockstep_assign (fun _ => ⟨rfl, rfl, fun _ => rfl⟩)
        fun _ _ hs => ⟨hs.faults, hs.valid, hs.fresh, hs.sent, hs.head⟩
  | setBody body =>
      rw [exec]
      exact lockstep_assign (fun _ => ⟨rfl, rfl, fun _ => rfl⟩)
        fun _ _ hs => ⟨hs.faults, hs.valid, hs.fresh, hs.sent, hs.head⟩
  | setContentType contentType =>
      rw [exec]
      exact lockstep_assign (fun _ => ⟨rfl, rfl, fun _ => rfl⟩)
        fun _ _ hs => ⟨hs.faults, hs.valid, hs.fresh, hs.sent, hs.head⟩
  | header name value => exact lockstep_onQuiet (quiet_header _ _) fun _ => keeps_header name value
  | setCookie name value opts =>
      exact lockstep_onQuiet (quiet_setCookie _ _ _) fun _ => keeps_setCookie name value opts
  | json text => exact lockstep_onQuiet (quiet_json _) fun _ => keeps_json text
  | writer =>
      refine Lockstep.bind (V := Eq) (lockstep_onQuiet quiet_startBody fun _ => keeps_startBody)
        fun _ _ _ => ?_
      exact lockstep_modify fun g t hT => ⟨hT.res, rfl, hT.stream, hT.events, hT.eventWriters⟩
  | bodyWrite bytes =>
      exact lockstep_onBodyWriter fun _ => lockstep_quiet (quiet_bodyWrite _) (keeps_bodyWrite bytes)
  | bodyEnd => exact lockstep_onBodyWriter fun _ => lockstep_quiet quiet_bodyEnd keeps_bodyEnd
  | clearWriter => exact lockstep_onQuiet quiet_clearWriter fun _ => keeps_clearWriter
  | resetBody => exact lockstep_onQuiet quiet_resetBody fun _ => keeps_resetBody
  | stream cap => exact lockstep_execStream cap
  | streamWrite bytes => exact lockstep_onStream (StreamingBodyWriter.lockstep_writeAll bytes)
  | streamSplat data pattern splat =>
      exact lockstep_onStream (StreamingBodyWriter.lockstep_writeSplatAll data pattern splat)
  | streamFlush => exact lockstep_onStream StreamingBodyWriter.lockstep_streamFlush
  | streamEnd => exact lockstep_onStream StreamingBodyWriter.lockstep_finish
  | writeHeader => exact lockstep_onRes fun _ => lockstep_writeHeader
  | startEventStream => exact lockstep_execStartEventStream
  | send data opts => exact lockstep_onEvents (EventWriter.lockstep_send data opts)
  | startSend opts => exact lockstep_execStartSend opts
  | eventWrite i bytes => exact lockstep_onEventWriter i (EventWriter.lockstep_writeAll bytes)
  | eventEnd i => exact lockstep_onEventWriter i EventWriter.lockstep_finish
  | handleNotFound => exact lockstep_onQuiet quiet_handleNotFound fun _ => keeps_handleNotFound

/-- **Every run of a handler does the same for a GET and its HEAD.** -/
theorem lockstep_runOps : ∀ ops : List Op, Lockstep (Twins base) Eq (runOps ops) (runOps ops)
  | [] => lockstep_pure rfl
  | op :: rest => (lockstep_exec op).attempt.bind fun _ _ hr => hr ▸
      (lockstep_runOps rest).bind fun _ _ hrs => hrs ▸ lockstep_pure rfl

end Executor
end Dusty
