import Dusty.Transport

/-! # Streaming bodies over a transport that fails

A handler writes to a streaming body, flushes it and ends it, and goes on whatever these calls return; the
server's `write` comes last.  `Sound` is the invariant of such a run: the connection is given up, or the
body is a sequence of whole pieces, or it was ended and is what the header block promised.  A write that
fails breaks it when the transport took a part of a piece. -/

namespace Dusty

open Act

namespace Response

/-- The body is what the header block promised. -/
def WellFramed (res : Response) (body : Bytes) : Prop :=
  if res.head then body = []
  else if res.chunked then ∃ content, decodeChunked body = some (content, [])
  else res.contentLength = some body.length

/-! ### The start of a streaming body -/

/-- As long as the headers are open, nothing of a body was sent. -/
def Unbegun (r : Response) : Prop := r.headersWritten = false → r.written = false ∧ r.bodySent = 0

theorem kept_unbegun : Kept Unbegun := by
  have hconn : ∀ {α : Type} (x : Act Conn α), Keeps Unbegun (onConn x) := fun x =>
    keeps_zoom fun r hr _ _ => by cases x _ <;> exact hr
  refine Stable.kept ⟨?_, ?_, fun _ => (hconn _).and (keeps_onConn_streams _),
    (hconn _).and (keeps_onConn_streams _)⟩ (fun _ hr => hr) ?_
  · intro r r' hr hu hw
    have hopen : r.headersWritten = false := hu.headersWritten ▸ hw
    obtain ⟨hwritten, hsent⟩ := hr hopen
    exact ⟨hu.written.trans hwritten, (hu.fresh hopen).trans hsent⟩
  · exact keeps_writeHeader_of hconn (fun _ _ hr => hr) fun _ _ hw => by simp at hw
  · intro r _ hstreams hw
    have hsent : r.headersWritten = true := hstreams.1
    rw [show r.headersWritten = false from hw] at hsent
    cases hsent

/-- What a streaming body starts with, whatever the transport does. -/
structure Started (res : Response) : Prop where
  headersWritten : res.headersWritten = true
  opened : res.bodyWriterOpen = true
  unwritten : res.written = false
  unsent : res.bodySent = 0
  framing : res.chunked = true ∨ res.contentLength.isSome = true

theorem stream_opened {self res : Response} (h : stream self = .ok () res) :
    Delimited res ∧ res.bodyWriterOpen = true := by
  obtain ⟨-, hdelimited⟩ := (kept_of_forall fun _ => trivial).toStable.stream.ok trivial h
  refine ⟨hdelimited, ?_⟩
  unfold stream at h
  obtain ⟨_, s₁, h₁, h⟩ := bind_eq_ok.mp h
  obtain ⟨_, s₂, h₂, h₃⟩ := bind_eq_ok.mp h
  obtain ⟨-, rfl⟩ := startBody_ok h₁
  have hkeeps : Keeps (fun r : Response => r.bodyWriterOpen = true) writeHeader :=
    keeps_writeHeader_of (fun x => keeps_zoom fun _ hr _ _ => by cases x _ <;> exact hr)
      (fun _ _ hr => hr) fun _ hr => hr
  rcases decideFraming_ok h₂ with ⟨n, rfl⟩ | rfl
  · exact hkeeps.ok rfl h₃
  · exact hkeeps.ok rfl h₃

theorem stream_started {self res : Response} (hu : Unbegun self) (h : stream self = .ok () res) :
    Started res := by
  obtain ⟨hdelimited, hopen⟩ := stream_opened h
  unfold stream at h
  obtain ⟨_, s₁, h₁, h⟩ := bind_eq_ok.mp h
  obtain ⟨_, s₂, h₂, h₃⟩ := bind_eq_ok.mp h
  obtain ⟨hw, rfl⟩ := startBody_ok h₁
  have hkeeps : Keeps (fun r : Response => r.written = false ∧ r.bodySent = 0) writeHeader :=
    keeps_writeHeader_of (fun x => keeps_zoom fun _ hr _ _ => by cases x _ <;> exact hr)
      (fun _ _ hr => hr) fun _ hr => hr
  obtain ⟨hunwritten, hunsent⟩ := hkeeps.ok (s := s₂) (by
    rcases decideFraming_ok h₂ with ⟨n, rfl⟩ | rfl
    · exact hu hw
    · exact hu hw) h₃
  exact ⟨hdelimited.1, hopen, hunwritten, hunsent, hdelimited.2⟩

theorem keeps_write_lost : Keeps (fun r => r.keepalive = false) write := by
  have hconn : ∀ {α : Type} (x : Act Conn α), Keeps (fun r => r.keepalive = false) (onConn x) := fun x =>
    keeps_zoom fun r hr _ _ => by cases x _ <;> exact hr
  exact keeps_write_of (fun _ => hconn _) (hconn _)
    (keeps_writeHeader_of hconn (fun _ _ hr => hr) fun _ hr => hr) (fun _ hr => hr) (fun _ hr => hr)
    fun _ _ => rfl

end Response

namespace StreamingBodyWriter

open Attached Response

/-! ### What a handler does -/

/-- A call on a streaming body, its `end` included. -/
inductive Call where
  | write (op : WriteOp)
  | finish

def Call.exec : Call → Act Self Unit
  | .write op => op.exec
  | .finish => StreamingBodyWriter.finish

/-- A handler that goes on whatever its calls return. -/
def runCalls : List Call → Act Self (List (Except Error Unit))
  | [] => pure []
  | call :: rest => do
      let result ← attempt call.exec
      let results ← runCalls rest
      pure (result :: results)

/-- The drain does not spoil the body: it sends nothing for a HEAD, or the transport takes nothing of it, or
the body was not ended and the transport takes the whole of it; the last flush of a chunk may still fail. -/
def Fits (a : Self) (data : List Bytes) (pattern : Bytes) (splat : ℕ) : Prop :=
  a.res.head = true ∨
    drainBreaks a data pattern splat = true ∧ drainAccepted a data pattern splat = [] ∨
    a.res.bodyWriterOpen = true ∧ (drainBreaks a data pattern splat = false ∨
      a.res.chunked = true ∧
        drainAccepted a data pattern splat = encodeChunk (drained a data pattern splat))

instance (a : Self) (data : List Bytes) (pattern : Bytes) (splat : ℕ) :
    Decidable (Fits a data pattern splat) := by
  unfold Fits
  infer_instance

/-- Every drain that the calls make is one that does not spoil the body. -/
def AllFit : List Call → Self → Prop
  | [], _ => True
  | .finish :: rest, a => AllFit rest (final StreamingBodyWriter.finish a)
  | .write op :: rest, a =>
      (∀ d ∈ op.drains a, Fits a d.1 d.2.1 d.2.2) ∧ AllFit rest (final op.exec a)

instance decidableAllFit : (calls : List Call) → (a : Self) → Decidable (AllFit calls a)
  | [], _ => inferInstanceAs (Decidable True)
  | .finish :: rest, a => decidableAllFit rest (final StreamingBodyWriter.finish a)
  | .write op :: rest, a =>
      have := decidableAllFit rest (final op.exec a)
      inferInstanceAs (Decidable ((∀ d ∈ op.drains a, Fits a d.1 d.2.1 d.2.2) ∧ _))

/-! ### The invariant -/

/-- What was settled when the body started. -/
structure Promised (res r : Response) : Prop where
  headersWritten : r.headersWritten = true
  chunked : r.chunked = res.chunked
  head : r.head = res.head
  contentLength : r.contentLength = res.contentLength

/-- What is on the wire behind the header block is a sequence of whole pieces that are not empty, and
without chunks all of them are accounted for. -/
structure Pieces (res : Response) (a : Self) : Prop where
  promised : Promised res a.res
  body : ∃ chunks, (∀ c ∈ chunks, c ≠ []) ∧
    a.res.conn.out = res.conn.out ++ (if res.head then [] else wire res.chunked chunks) ∧
    (res.head = false → res.chunked = false → a.res.bodySent = chunks.flatten.length)

/-- The body is under way. -/
structure Underway (res : Response) (a : Self) : Prop extends Pieces res a where
  opened : a.res.bodyWriterOpen = true
  unwritten : a.res.written = false

/-- The body was ended, and it is what the header block promised. -/
structure Ended (res : Response) (a : Self) : Prop where
  closed : a.res.bodyWriterOpen = false
  written : a.res.written = true
  body : ∃ body, a.res.conn.out = res.conn.out ++ body ∧ WellFramed res body

/-- The connection is given up, or the body is under way, or it was ended as promised. -/
def Sound (res : Response) (a : Self) : Prop :=
  a.res.keepalive = false ∨ Underway res a ∨ Ended res a

section steps
variable {res : Response} {a a' : Self}

theorem Promised.progress {r : Response} (h : Promised res r) (conn : Conn) (sent : ℕ) :
    Promised res (r.progress conn sent) := ⟨h.headersWritten, h.chunked, h.head, h.contentLength⟩

/-- A drain touches the connection and the count of the response only. -/
theorem drain_progress (data : List Bytes) (pattern : Bytes) (splat : ℕ) (a : Self) :
    ∃ conn sent, (final (drain data pattern splat) a).res = a.res.progress conn sent := by
  unfold final
  rcases drain_cases data pattern splat a with
    ⟨-, hrun⟩ | ⟨-, -, hrun⟩ | ⟨-, -, -, conn, hrun, -⟩ | ⟨-, -, -, conn, cause, hrun, -⟩
  · rw [hrun]
    exact ⟨_, _, rfl⟩
  · rw [hrun]
    exact ⟨_, _, rfl⟩
  · rw [hrun]
    exact ⟨_, _, rfl⟩
  · rw [hrun]
    exact ⟨_, _, rfl⟩

theorem WriteOp.exec_progress (op : WriteOp) (a : Self) :
    ∃ conn sent, (final op.exec a).res = a.res.progress conn sent := by
  cases hdrains : op.drains a with
  | none =>
      obtain ⟨buffered, hrun⟩ := WriteOp.exec_keeps hdrains
      rw [final_of_ok hrun]
      exact ⟨_, _, rfl⟩
  | some d =>
      have hfinal : final op.exec a = final (drain d.1 d.2.1 d.2.2) a := by
        unfold final
        rw [WriteOp.exec_drains hdrains]
      rw [hfinal]
      exact drain_progress _ _ _ a

theorem Pieces.sent (h : Pieces res a) (hhead : a.res.head = false) (piece : Bytes) (hne : piece ≠ [])
    (hres : a'.res = a.res.progress a'.res.conn a'.res.bodySent)
    (hout : a'.res.conn.out = a.res.conn.out ++ wire a.res.chunked [piece])
    (hcount : a.res.chunked = false → a'.res.bodySent = a.res.bodySent + piece.length) : Pieces res a' := by
  obtain ⟨chunks, hchunks, hbody, hsent⟩ := h.body
  have hres₀ : res.head = false := h.promised.head ▸ hhead
  refine ⟨hres ▸ h.promised.progress _ _, chunks ++ [piece], ?_, ?_, ?_⟩
  · intro c hc
    rcases List.mem_append.mp hc with hc | hc
    · exact hchunks c hc
    · rwa [List.mem_singleton.mp hc]
  · rw [hout, hbody, hres₀, h.promised.chunked, wire_append, List.append_assoc]
    rfl
  · intro _ hc
    rw [hcount (h.promised.chunked.trans hc), hsent hres₀ hc]
    simp

/-- A piece that is accounted for without being sent, or nothing at all. -/
theorem Pieces.unsent (h : Pieces res a) (hres : a'.res = a.res.progress a'.res.conn a'.res.bodySent)
    (hout : a'.res.conn.out = a.res.conn.out)
    (hcount : a.res.head = false → a'.res.bodySent = a.res.bodySent) : Pieces res a' := by
  obtain ⟨chunks, hchunks, hbody, hsent⟩ := h.body
  refine ⟨hres ▸ h.promised.progress _ _, chunks, hchunks, hout.trans hbody, ?_⟩
  intro hhead hc
  rw [hcount (h.promised.head.trans hhead), hsent hhead hc]

theorem Pieces.drain_ok {data : List Bytes} {pattern : Bytes} {splat : ℕ} (h : Pieces res a)
    (hrun : drain data pattern splat a = .ok () a') : Pieces res a' := by
  rcases drain_cases data pattern splat a with
    ⟨-, hdrain⟩ | ⟨-, hhead, hdrain⟩ | ⟨hsome, hhead, -, conn, hdrain, hout⟩ | ⟨-, -, -, conn, cause, hdrain, -⟩
  · rw [hdrain] at hrun
    cases hrun
    exact h
  · rw [hdrain] at hrun
    cases hrun
    exact h.unsent rfl rfl fun hget => absurd hhead (by simp [hget])
  · rw [hdrain] at hrun
    cases hrun
    refine h.sent hhead _ (drained_ne_nil hsome) rfl hout fun _ => ?_
    rw [length_drained]
    rfl
  · rw [hdrain] at hrun
    cases hrun

/-- A drain that fails when the transport took nothing of it, or the whole of a chunk. -/
theorem Pieces.drain_error {data : List Bytes} {pattern : Bytes} {splat : ℕ} {e : Fault} (h : Pieces res a)
    (hrun : drain data pattern splat a = .error e a')
    (htook : drainAccepted a data pattern splat = [] ∨ a.res.chunked = true ∧
      drainAccepted a data pattern splat = encodeChunk (drained a data pattern splat)) : Pieces res a' := by
  rcases drain_cases data pattern splat a with
    ⟨-, hdrain⟩ | ⟨-, -, hdrain⟩ | ⟨-, -, -, conn, hdrain, -⟩ | ⟨hsome, hhead, -, conn, cause, hdrain, hout⟩
  · rw [hdrain] at hrun
    cases hrun
  · rw [hdrain] at hrun
    cases hrun
  · rw [hdrain] at hrun
    cases hrun
  · rw [hdrain] at hrun
    cases hrun
    rcases htook with hnone | ⟨hchunked, hwhole⟩
    · rw [hnone, List.append_nil] at hout
      exact h.unsent rfl hout fun _ => rfl
    · refine h.sent hhead _ (drained_ne_nil hsome) rfl ?_ fun hc => ?_
      · rw [hwhole] at hout
        rw [hchunked]
        show conn.out = _
        rw [hout, wire, if_pos rfl, List.flatMap_singleton]
      · rw [hchunked] at hc
        cases hc

theorem Pieces.exec_ok {op : WriteOp} (h : Pieces res a) (hrun : op.exec a = .ok () a') : Pieces res a' := by
  cases hdrains : op.drains a with
  | none =>
      obtain ⟨buffered, hkeeps⟩ := WriteOp.exec_keeps hdrains
      rw [hkeeps] at hrun
      cases hrun
      exact h.unsent rfl rfl fun _ => rfl
  | some d =>
      rw [WriteOp.exec_drains hdrains] at hrun
      exact h.drain_ok hrun

/-- A call whose drain does not spoil the body, before the end. -/
theorem Pieces.exec {op : WriteOp} (h : Pieces res a)
    (hfits : ∀ d ∈ op.drains a, Fits a d.1 d.2.1 d.2.2) : Pieces res (final op.exec a) := by
  unfold final
  cases hrun : op.exec a with
  | ok u a' => exact h.exec_ok hrun
  | error e a' =>
      cases hdrains : op.drains a with
      | none =>
          obtain ⟨buffered, hkeeps⟩ := WriteOp.exec_keeps hdrains
          rw [hkeeps] at hrun
          cases hrun
      | some d =>
          rw [WriteOp.exec_drains hdrains] at hrun
          refine h.drain_error hrun ?_
          -- a drain that fails was not for a HEAD, and the transport refused something
          rcases drain_cases d.1 d.2.1 d.2.2 a with
            ⟨-, hdrain⟩ | ⟨-, -, hdrain⟩ | ⟨-, -, -, conn, hdrain, -⟩ | ⟨-, hhead, hbreaks, conn, cause, hdrain, -⟩
          · rw [hdrain] at hrun
            cases hrun
          · rw [hdrain] at hrun
            cases hrun
          · rw [hdrain] at hrun
            cases hrun
          · rcases hfits d hdrains with hget | ⟨-, hnone⟩ | ⟨-, hall | hwhole⟩
            · rw [hhead] at hget
              cases hget
            · exact .inl hnone
            · rw [hbreaks] at hall
              cases hall
            · exact .inr hwhole

/-- A call whose drain is for a HEAD, or is not taken by the transport, sends nothing. -/
theorem exec_silent {op : WriteOp}
    (hquiet : ∀ d ∈ op.drains a, a.res.head = true ∨ drainAccepted a d.1 d.2.1 d.2.2 = []) :
    (final op.exec a).res.conn.out = a.res.conn.out := by
  cases hdrains : op.drains a with
  | none =>
      obtain ⟨buffered, hkeeps⟩ := WriteOp.exec_keeps hdrains
      rw [final_of_ok hkeeps]
  | some d =>
      have hexec := WriteOp.exec_drains hdrains
      have hnone : a.res.head = false → drainAccepted a d.1 d.2.1 d.2.2 = [] := fun hhead =>
        (hquiet d hdrains).resolve_left (by simp [hhead])
      unfold final
      rcases drain_cases d.1 d.2.1 d.2.2 a with ⟨-, hdrain⟩ | ⟨-, -, hdrain⟩ |
          ⟨-, hhead, hall, conn, hdrain, hout⟩ | ⟨-, hhead, -, conn, cause, hdrain, hout⟩
      · rw [hexec, hdrain]
      · rw [hexec, hdrain]
        rfl
      · rw [hexec, hdrain]
        show conn.out = _
        rw [hout, ← drainAccepted_of_unbroken hall, hnone hhead, List.append_nil]
      · rw [hexec, hdrain]
        show conn.out = _
        rw [hout, hnone hhead, List.append_nil]

/-! ### The steps keep the invariant -/

/-- **A call whose drain does not spoil the body** keeps the invariant. -/
theorem Sound.exec {op : WriteOp} (h : Sound res a)
    (hfits : ∀ d ∈ op.drains a, Fits a d.1 d.2.1 d.2.2) : Sound res (final op.exec a) := by
  obtain ⟨conn, sent, hres⟩ := op.exec_progress a
  rcases h with hlost | hunder | hended
  · refine .inl ?_
    rw [hres]
    exact hlost
  · refine .inr (.inl ⟨hunder.toPieces.exec hfits, ?_, ?_⟩)
    · rw [hres]
      exact hunder.opened
    · rw [hres]
      exact hunder.unwritten
  · refine .inr (.inr ⟨?_, ?_, ?_⟩)
    · rw [hres]
      exact hended.closed
    · rw [hres]
      exact hended.written
    · rw [exec_silent fun d hd => ?_]
      · exact hended.body
      · rcases hfits d hd with hget | ⟨-, hnone⟩ | ⟨hopen, -⟩
        · exact .inl hget
        · exact .inr hnone
        · rw [hended.closed] at hopen
          cases hopen

theorem finish_error {e : Fault} (hrun : StreamingBodyWriter.finish a = .error e a') :
    a'.res.keepalive = false := by
  unfold StreamingBodyWriter.finish at hrun
  rw [bind_ok (get_run a)] at hrun
  split at hrun
  · cases hrun
  · rw [bind_ok (modify_run ..)] at hrun
    unfold onError at hrun
    split at hrun
    · cases hrun
    · cases hrun
      rfl

/-- An `end` that succeeds sent what was pending and the last chunk, and what was declared. -/
theorem finish_ok (hopen : a.res.bodyWriterOpen = true) (hrun : StreamingBodyWriter.finish a = .ok () a') :
    ∃ a₁ conn, WriteOp.flush.exec (a.setRes a.res.closeBody.markWritten) = .ok () a₁ ∧
      a' = a₁.setConn conn ∧
      conn.out = a₁.res.conn.out ++ (if a₁.res.chunked && !a₁.res.head then lastChunk else []) ∧
      ∀ n, a₁.res.contentLength = some n → a₁.res.bodySent = n := by
  unfold StreamingBodyWriter.finish at hrun
  rw [bind_ok (get_run a), if_neg (by simp [hopen]), bind_ok (modify_run ..)] at hrun
  unfold onError at hrun
  split at hrun
  · next u s hrest =>
      cases hrun
      obtain ⟨_, a₁, hflush, hrest⟩ := bind_eq_ok.mp hrest
      obtain ⟨_, a₂, hlast, hrest⟩ := bind_eq_ok.mp hrest
      obtain ⟨_, a₃, hflushed, hrest⟩ := bind_eq_ok.mp hrest
      rw [bind_ok (get_run a₃)] at hrest
      obtain ⟨conn₃, rfl, hout₃⟩ := flushConn_ok (commit_eq_ok hflushed)
      have hlast' : ∃ conn₂, a₂ = a₁.setConn conn₂ ∧
          conn₂.out = a₁.res.conn.out ++ (if a₁.res.chunked && !a₁.res.head then lastChunk else []) := by
        have hchunked : a₁.res.chunked = a.res.chunked ∧ a₁.res.head = a.res.head := by
          have hrun : WriteOp.flush.exec (a.setRes a.res.closeBody.markWritten) = .ok () a₁ :=
            commit_eq_ok hflush
          obtain ⟨conn, sent, hres⟩ := WriteOp.flush.exec_progress (a.setRes a.res.closeBody.markWritten)
          rw [final_of_ok hrun] at hres
          rw [hres]
          exact ⟨rfl, rfl⟩
        rw [hchunked.1, hchunked.2]
        cases hterm : a.res.chunked && !a.res.head with
        | true =>
            rw [hterm, when_true] at hlast
            exact emit_ok (commit_eq_ok hlast)
        | false =>
            rw [hterm, when_false] at hlast
            cases hlast
            exact ⟨_, rfl, (List.append_nil _).symm⟩
      obtain ⟨conn₂, rfl, hout₂⟩ := hlast'
      have hsame : ((a₁.setConn conn₂).setConn conn₃).res.contentLength = a₁.res.contentLength := rfl
      have hsent : ((a₁.setConn conn₂).setConn conn₃).res.bodySent = a₁.res.bodySent := rfl
      rw [hsame, hsent] at hrest
      cases hlength : a₁.res.contentLength with
      | none =>
          simp only [hlength] at hrest
          cases hrest
          exact ⟨a₁, conn₃, commit_eq_ok hflush, rfl, hout₃.trans hout₂, fun n hn => absurd hn (by simp [hlength])⟩
      | some declared =>
          simp only [hlength] at hrest
          by_cases hcount : a₁.res.bodySent = declared
          · have hbne : (a₁.res.bodySent != declared) = false := by simpa using hcount
            rw [hbne, when_false] at hrest
            cases hrest
            refine ⟨a₁, conn₃, commit_eq_ok hflush, rfl, hout₃.trans hout₂, fun n hn => ?_⟩
            exact hcount.trans (Option.some.inj (hlength.symm.trans hn))
          · have hbne : (a₁.res.bodySent != declared) = true := by simpa using hcount
            rw [hbne, when_true] at hrest
            cases hrest
  · cases hrun

/-- Whole pieces, and the last chunk behind them where there are chunks, are what was promised. -/
theorem Pieces.wellFramed (h : Pieces res a) {conn : Conn} (hframing : res.chunked = true ∨ res.contentLength.isSome = true)
    (hout : conn.out = a.res.conn.out ++ (if a.res.chunked && !a.res.head then lastChunk else []))
    (hcount : ∀ n, a.res.contentLength = some n → a.res.chunked = false → a.res.bodySent = n) :
    ∃ body, conn.out = res.conn.out ++ body ∧ WellFramed res body := by
  obtain ⟨chunks, hchunks, hbody, hsent⟩ := h.body
  rw [hbody, h.promised.chunked, h.promised.head, List.append_assoc] at hout
  refine ⟨_, hout, ?_⟩
  unfold WellFramed
  cases hhead : res.head with
  | true => simp
  | false =>
      cases hchunked : res.chunked with
      | true =>
          refine ⟨chunks.flatten, ?_⟩
          have hdecode := decodeChunked_encodeChunks hchunks []
          simpa [wire] using hdecode
      | false =>
          obtain ⟨n, hn⟩ := Option.isSome_iff_exists.mp (hframing.resolve_left (by simp [hchunked]))
          have hlength := hcount n (h.promised.contentLength.trans hn) (h.promised.chunked.trans hchunked)
          rw [hsent hhead hchunked] at hlength
          simp [wire, hn, ← hlength]

/-- **An `end`** keeps the invariant. -/
theorem Sound.finish (hframing : res.chunked = true ∨ res.contentLength.isSome = true) (h : Sound res a) :
    Sound res (final StreamingBodyWriter.finish a) := by
  cases hrun : StreamingBodyWriter.finish a with
  | error e a' =>
      refine .inl ?_
      unfold final
      rw [hrun]
      exact finish_error hrun
  | ok u a' =>
      rw [final_of_ok hrun]
      cases hopen : a.res.bodyWriterOpen with
      | false =>
          unfold StreamingBodyWriter.finish at hrun
          rw [bind_ok (get_run a), if_pos (by simp [hopen])] at hrun
          cases hrun
          exact h
      | true =>
          obtain ⟨a₁, conn, hflush, rfl, hout, hcount⟩ := finish_ok hopen hrun
          obtain ⟨conn₁, sent, hres⟩ := WriteOp.flush.exec_progress (a.setRes a.res.closeBody.markWritten)
          rw [final_of_ok hflush] at hres
          rcases h with hlost | hunder | hended
          · refine .inl ?_
            show a₁.res.keepalive = false
            rw [hres]
            exact hlost
          · have hpieces : Pieces res (a.setRes a.res.closeBody.markWritten) :=
              ⟨⟨hunder.promised.headersWritten, hunder.promised.chunked, hunder.promised.head,
                hunder.promised.contentLength⟩, hunder.body⟩
            refine .inr (.inr ⟨?_, ?_, (hpieces.exec_ok hflush).wellFramed hframing hout fun n hn _ => hcount n hn⟩)
            · show a₁.res.bodyWriterOpen = false
              rw [hres]
              rfl
            · show a₁.res.written = true
              rw [hres]
              rfl
          · rw [hended.closed] at hopen
            cases hopen

/-- **The server's `write`** leaves a body that is what was promised, or gives up the connection. -/
theorem Sound.write {r : Response} (hframing : res.chunked = true ∨ res.contentLength.isSome = true)
    (h : Sound res a) (hrun : Response.write a.res = .ok () r) :
    r.keepalive = false ∨ ∃ body, r.conn.out = res.conn.out ++ body ∧ WellFramed res body := by
  rcases h with hlost | hunder | hended
  · exact .inl (keeps_write_lost.ok hlost hrun)
  · unfold Response.write at hrun
    rw [bind_ok (get_run a.res), if_neg (by simp [hunder.unwritten]), if_pos hunder.opened,
      bind_ok (modify_run ..), if_pos hunder.promised.headersWritten] at hrun
    obtain ⟨hout, hlost | hcount⟩ := finishAbandoned_ok hrun
    · exact .inl hlost
    · exact .inr (hunder.toPieces.wellFramed hframing hout hcount)
  · unfold Response.write at hrun
    rw [bind_ok (get_run a.res), if_pos hended.written] at hrun
    cases hrun
    exact .inr hended.body

/-- A run whose drains do not spoil the body keeps the invariant. -/
theorem Sound.runCalls (hframing : res.chunked = true ∨ res.contentLength.isSome = true) (h : Sound res a)
    {calls : List Call} (hfit : AllFit calls a) {results : List (Except Error Unit)}
    (hrun : StreamingBodyWriter.runCalls calls a = .ok results a') : Sound res a' := by
  induction calls generalizing a results with
  | nil =>
      cases hrun
      exact h
  | cons call rest ih =>
      rw [StreamingBodyWriter.runCalls] at hrun
      obtain ⟨result, a₁, hcall, hrun⟩ := bind_eq_ok.mp hrun
      obtain ⟨more, a₂, hrest, hrun⟩ := bind_eq_ok.mp hrun
      cases hrun
      obtain rfl := final_of_attempt hcall
      cases call with
      | write op => exact ih (h.exec hfit.1) hfit.2 hrest
      | finish => exact ih (h.finish hframing) hfit hrest

end steps

open HandlerState Executor

/-- **A stream over a transport that fails.**  The transport fails where it likes, and the handler goes on
whatever its calls return.  If every drain that fails has put nothing on the wire, or the whole of a chunk,
and nothing is drained behind the end, then after the server's `write` the connection is given up or the
body is what the header block promised. -/
theorem failed_stream (conn : Conn) (maxHeaders : ℕ) (head keepalive : Bool) {before : List Op}
    {rs : List (Except Error Unit)} {st : HandlerState}
    (hbefore : runOps before (start conn maxHeaders head keepalive) = .ok rs st)
    {res : Response} (hstream : Response.stream st.res = .ok () res) (cap : ℕ) {calls : List Call}
    (hfit : AllFit calls ⟨res, { cap := cap }⟩) {results : List (Except Error Unit)} {a : Self}
    (hrun : runCalls calls ⟨res, { cap := cap }⟩ = .ok results a) {r : Response}
    (hwrite : Response.write a.res = .ok () r) :
    r.keepalive = false ∨ ∃ body, r.conn.out = res.conn.out ++ body ∧ WellFramed res body := by
  have hunbegun : Has Unbegun st :=
    (keeps_runOps kept_unbegun before).ok (has_start fun _ => ⟨rfl, rfl⟩) hbefore
  have hstarted := stream_started hunbegun.1 hstream
  have hunder : Underway res (⟨res, { cap := cap }⟩ : Self) := by
    refine ⟨⟨⟨hstarted.headersWritten, rfl, rfl, rfl⟩, [], by simp, ?_, fun _ _ => hstarted.unsent⟩,
      hstarted.opened, hstarted.unwritten⟩
    simp [wire]
  exact ((Sound.runCalls hstarted.framing (.inr (.inl hunder)) hfit hrun).write hstarted.framing hwrite)

/-- A transport that takes the header block and then so many bytes of a chunk. -/
def refusesAfter (taken : List (Option (ℕ × Error))) : HandlerState :=
  start { faults := [none, none, none] ++ taken } 8 false true

/-- The same write twice, the first time in vain, and the end. -/
def retried : List Call :=
  [.write (.write (ascii "abcdef")), .write (.write (ascii "abcdef")), .finish]

theorem failed_stream_sample :
    let res := (final Response.stream (refusesAfter [some (0, .brokenPipe)]).res)
    ∃ results a r, runCalls retried ⟨res, { cap := 0 }⟩ = .ok results a ∧ Response.write a.res = .ok () r ∧
      (r.keepalive = false ∨ ∃ body, r.conn.out = res.conn.out ++ body ∧ WellFramed res body) := by
  intro res
  have hbefore : runOps [] (refusesAfter [some (0, .brokenPipe)]) = .ok [] _ := rfl
  have hstream : Response.stream (refusesAfter [some (0, .brokenPipe)]).res = .ok () res := rfl
  obtain ⟨results, a, hrun⟩ : ∃ results a, runCalls retried ⟨res, { cap := 0 }⟩ = .ok results a :=
    returns_iff.mp (by decide +kernel)
  obtain ⟨_, r, hwrite⟩ : ∃ u r, Response.write a.res = .ok u r := by
    have ha := final_of_ok hrun
    rw [← ha]
    exact returns_iff.mp (by decide +kernel)
  have hfit : AllFit retried ⟨res, { cap := 0 }⟩ := by decide +kernel
  exact ⟨results, a, r, hrun, hwrite, failed_stream _ 8 false true hbefore hstream 0 hfit hrun hwrite⟩

/-- The transport takes the size of a chunk and two of its bytes.  The handler tries again, and the
connection is kept behind a body that no reader can make sense of. -/
theorem failed_stream_not :
    let res := (final Response.stream (refusesAfter [none, none, some (2, .brokenPipe)]).res)
    ∃ results a r, runCalls retried ⟨res, { cap := 0 }⟩ = .ok results a ∧ Response.write a.res = .ok () r ∧
      r.keepalive = true ∧ ∀ body, r.conn.out = res.conn.out ++ body → ¬WellFramed res body := by
  intro res
  obtain ⟨results, a, hrun⟩ : ∃ results a, runCalls retried ⟨res, { cap := 0 }⟩ = .ok results a :=
    returns_iff.mp (by decide +kernel)
  obtain rfl := final_of_ok hrun
  obtain ⟨_, r, hwrite⟩ : ∃ u r, Response.write
      (final (runCalls retried) (⟨res, { cap := 0 }⟩ : Self)).res = .ok u r :=
    returns_iff.mp (by decide +kernel)
  obtain rfl := final_of_ok hwrite
  refine ⟨results, _, _, hrun, hwrite, by decide +kernel, fun body hbody hframed => ?_⟩
  have hout : (final Response.write (final (runCalls retried) (⟨res, { cap := 0 }⟩ : Self)).res).conn.out =
      res.conn.out ++ ascii "6\r\nab6\r\nabcdef\r\n0\r\n\r\n" := by decide +kernel
  rw [hout, List.append_cancel_left_eq] at hbody
  have hhead : res.head = false := by decide +kernel
  have hchunked : res.chunked = true := by decide +kernel
  have hbroken : decodeChunked (ascii "6\r\nab6\r\nabcdef\r\n0\r\n\r\n") = none := by decide +kernel
  unfold WellFramed at hframed
  rw [if_neg (by simp [hhead]), if_pos hchunked, ← hbody, hbroken] at hframed
  obtain ⟨content, hcontent⟩ := hframed
  cases hcontent

end StreamingBodyWriter
end Dusty
