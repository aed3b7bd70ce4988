import Dusty.HandlerInv

/-! # The framing of a streamed body

A handler writes to a `StreamingBodyWriter` in any way it likes and then ends it, or leaves it
to `Response.write`.  `Framed` is the invariant of the writes: what is on the wire after the
header block is a sequence of non-empty chunks, or the plain bytes under a declared length,
and together with the buffer it is everything written so far.  `stream_framing` is the result:
the body on the wire decodes to what was written. -/

namespace Dusty

open Act

/-- The response with more of its body sent. -/
def Response.progress (self : Response) (conn : Conn) (sent : ℕ) : Response :=
  { self with conn := conn, bodySent := sent }

/-! ### Actions that only write -/

namespace Attached

variable {W : Type}

def setConn (a : Attached W) (conn : Conn) : Attached W := a.setRes (a.res.setConn conn)

/-- On a working transport the action writes exactly the given bytes and does nothing else. -/
def Puts (bytes : Bytes) (x : Act (Attached W) Unit) : Prop :=
  ∀ a, a.res.conn.faults = [] → ∃ conn, x a = .ok () (a.setConn conn) ∧
    conn.faults = [] ∧ conn.out = a.res.conn.out ++ bytes

theorem puts_pure : Puts [] (pure () : Act (Attached W) Unit) := by
  intro a ha
  exact ⟨a.res.conn, rfl, ha, by simp⟩

theorem Puts.bind {b₁ b₂ : Bytes} {x y : Act (Attached W) Unit} (hx : Puts b₁ x)
    (hy : Puts b₂ y) : Puts (b₁ ++ b₂) (x >>= fun _ => y) := by
  intro a ha
  obtain ⟨conn₁, hrun₁, hfaults₁, hout₁⟩ := hx a ha
  obtain ⟨conn₂, hrun₂, hfaults₂, hout₂⟩ := hy (a.setConn conn₁) hfaults₁
  refine ⟨conn₂, ?_, hfaults₂, ?_⟩
  · rw [bind_ok hrun₁, hrun₂]
    rfl
  · rw [hout₂, show (a.setConn conn₁).res.conn.out = conn₁.out from rfl, hout₁,
      List.append_assoc]

theorem Puts.when {bytes : Bytes} {x : Act (Attached W) Unit} (h : Puts bytes x) (b : Bool) :
    Puts (if b then bytes else []) (Act.when b x) := by
  cases b with
  | true => exact h
  | false => exact puts_pure

theorem puts_emit (bytes : Bytes) : Puts bytes (emit bytes : Act (Attached W) Unit) := by
  intro a ha
  refine ⟨a.res.conn.wrote .body bytes, ?_, ha, Conn.out_wrote _ _ _⟩
  simp only [emit, onRes, Response.onConn, zoom, Conn.writeAll_run ha]
  rfl

theorem puts_flushConn : Puts [] (flushConn : Act (Attached W) Unit) := by
  intro a ha
  refine ⟨a.res.conn.flushedAll, ?_, ha, by simp⟩
  simp only [flushConn, onRes, Response.onConn, zoom, Conn.flush_run ha]
  rfl

end Attached

namespace StreamingBodyWriter

open Attached

theorem record_ok {x : Act Self Unit} {a a' : Self} (h : x a = .ok () a') :
    record x a = .ok () a' := by
  have hattempt : attempt x a = .ok (.ok ()) a' := by rw [attempt, h]
  unfold record
  rw [bind_ok hattempt]
  rfl

theorem commit_ok {x : Act Self Unit} {a a' : Self} (h : x a = .ok () a') :
    commit x a = .ok () a' := by
  have hattempt : attempt (record x) a = .ok (.ok ()) a' := by rw [attempt, record_ok h]
  unfold commit
  rw [bind_ok hattempt]
  rfl

theorem puts_record {bytes : Bytes} {x : Act Self Unit} (h : Puts bytes x) :
    Puts bytes (record x) := by
  intro a ha
  obtain ⟨conn, hrun, hconn⟩ := h a ha
  exact ⟨conn, record_ok hrun, hconn⟩

theorem puts_commit {bytes : Bytes} {x : Act Self Unit} (h : Puts bytes x) :
    Puts bytes (commit x) := by
  intro a ha
  obtain ⟨conn, hrun, hconn⟩ := h a ha
  exact ⟨conn, commit_ok hrun, hconn⟩

theorem puts_writePieces : ∀ pieces : List Bytes, Puts pieces.flatten (writePieces pieces)
  | [] => puts_pure
  | piece :: rest => (puts_emit piece).bind (puts_writePieces rest)

/-- The bytes of a write: the slices and the repeated pattern. -/
def splatBytes (data : List Bytes) (pattern : Bytes) (splat : ℕ) : Bytes :=
  data.flatten ++ (List.replicate splat pattern).flatten

theorem length_splatBytes (data : List Bytes) (pattern : Bytes) (splat : ℕ) :
    (splatBytes data pattern splat).length = countSplat data pattern splat := by
  simp [splatBytes, countSplat, Nat.mul_comm]

theorem puts_writeParts (pending : Bytes) (data : List Bytes) (pattern : Bytes) (splat : ℕ) :
    Puts (pending ++ splatBytes data pattern splat) (writeParts pending data pattern splat) :=
  (puts_emit pending).bind ((puts_writePieces data).bind (puts_writePieces _))

/-- What a body made of these pieces looks like on the wire. -/
def wire (chunked : Bool) (chunks : List Bytes) : Bytes :=
  if chunked then chunks.flatMap encodeChunk else chunks.flatten

theorem wire_append (chunked : Bool) (chunks : List Bytes) (chunk : Bytes) :
    wire chunked (chunks ++ [chunk]) = wire chunked chunks ++ wire chunked [chunk] := by
  unfold wire
  cases chunked <;> simp

/-- **One drain is one chunk**, whatever it is made of. -/
theorem puts_writeFramed (self : Self) (data : List Bytes) (pattern : Bytes) (splat : ℕ) :
    Puts (wire self.res.chunked [self.w.buffered ++ splatBytes data pattern splat])
      (writeFramed self data pattern splat) := by
  have hparts := puts_writeParts self.w.buffered data pattern splat
  unfold writeFramed wire
  cases self.res.chunked with
  | false =>
      have h := hparts.bind puts_flushConn
      simpa [writeBody] using h
  | true =>
      have h := (puts_emit (fmtNat 16 (drainTotal self data pattern splat) ++ crlf)).bind
        (hparts.bind ((puts_emit crlf).bind puts_flushConn))
      have hlen : (self.w.buffered ++ splatBytes data pattern splat).length =
          drainTotal self data pattern splat := by
        rw [List.length_append, length_splatBytes, drainTotal]
      simpa [writeChunk, encodeChunk, hlen] using h

/-! ### The invariant of the writes -/

/-- What was written so far is on the wire, in pieces that are not empty, or still in the
buffer; nothing but the connection and the count of the response `res` has changed. -/
structure Framed (res : Response) (chunks : List Bytes) (content : Bytes) (a : Self) : Prop where
  faults : a.res.conn.faults = []
  nonempty : ∀ c ∈ chunks, c ≠ []
  out : a.res.conn.out = res.conn.out ++ wire res.chunked chunks
  sent : a.res.bodySent = chunks.flatten.length
  kept : content = chunks.flatten ++ a.w.buffered
  same : a.res = res.progress a.res.conn a.res.bodySent

section writes
variable {res : Response} {chunks : List Bytes} {content : Bytes} {a : Self}

theorem Framed.chunked (h : Framed res chunks content a) : a.res.chunked = res.chunked := by
  rw [h.same]
  rfl

theorem Framed.head (h : Framed res chunks content a) : a.res.head = res.head := by
  rw [h.same]
  rfl

theorem Framed.bodyWriterOpen (h : Framed res chunks content a) :
    a.res.bodyWriterOpen = res.bodyWriterOpen := by
  rw [h.same]
  rfl

theorem Framed.written (h : Framed res chunks content a) : a.res.written = res.written := by
  rw [h.same]
  rfl

theorem Framed.contentLength (h : Framed res chunks content a) :
    a.res.contentLength = res.contentLength := by
  rw [h.same]
  rfl

/-- A drain of something moves the buffer and the new bytes to the wire, as one piece. -/
theorem drain_framed (h : Framed res chunks content a) (hhead : res.head = false)
    (data : List Bytes) (pattern : Bytes) (splat : ℕ) (hsome : drainTotal a data pattern splat ≠ 0) :
    ∃ a', drain data pattern splat a = .ok () a' ∧ a'.w.buffered = [] ∧
      Framed res (chunks ++ [a.w.buffered ++ splatBytes data pattern splat])
        (content ++ splatBytes data pattern splat) a' := by
  obtain ⟨conn, hrun, hfaults, hout⟩ :=
    puts_record (puts_writeFramed a data pattern splat) a h.faults
  have hlen : (a.w.buffered ++ splatBytes data pattern splat).length =
      drainTotal a data pattern splat := by
    rw [List.length_append, length_splatBytes, drainTotal]
  refine ⟨consume (drainTotal a data pattern splat) (a.setConn conn), ?_, rfl, ?_⟩
  · unfold drain
    rw [bind_ok (get_run a), if_neg hsome, if_neg (by simp [h.head, hhead]), bind_ok hrun]
    rfl
  · refine ⟨hfaults, ?_, ?_, ?_, ?_, ?_⟩
    · intro c hc
      rcases List.mem_append.mp hc with hc | hc
      · exact h.nonempty c hc
      · obtain rfl := List.mem_singleton.mp hc
        intro hnil
        rw [hnil] at hlen
        exact hsome hlen.symm
    · show conn.out = _
      rw [hout, h.out, wire_append, h.chunked, List.append_assoc]
    · show a.res.bodySent + drainTotal a data pattern splat = _
      rw [h.sent, ← hlen]
      simp
    · show _ = _ ++ ([] : Bytes)
      rw [h.kept]
      simp
    · show a.res.progress conn (a.res.bodySent + drainTotal a data pattern splat) = _
      rw [h.same]
      rfl

theorem writeSplatAll_framed (h : Framed res chunks content a) (hhead : res.head = false)
    (data : List Bytes) (pattern : Bytes) (splat : ℕ) :
    ∃ chunks' a', writeSplatAll data pattern splat a = .ok () a' ∧
      Framed res chunks' (content ++ splatBytes data pattern splat) a' := by
  unfold writeSplatAll
  rw [bind_ok (get_run a)]
  by_cases hfull : drainTotal a data pattern splat > a.w.cap
  · obtain ⟨a', hrun, -, h'⟩ := drain_framed h hhead data pattern splat (by omega)
    rw [if_pos hfull]
    exact ⟨_, a', hrun, h'⟩
  · rw [if_neg hfull]
    refine ⟨chunks, _, rfl, h.faults, h.nonempty, h.out, h.sent, ?_, h.same⟩
    show _ = chunks.flatten ++ (a.w.buffered ++ splatBytes data pattern splat)
    rw [h.kept, List.append_assoc]

theorem writeAll_framed (h : Framed res chunks content a) (hhead : res.head = false)
    (bytes : Bytes) :
    ∃ chunks' a', writeAll bytes a = .ok () a' ∧ Framed res chunks' (content ++ bytes) a' := by
  unfold writeAll
  by_cases hempty : bytes.length = 0
  · rw [if_pos hempty, List.length_eq_zero_iff.mp hempty, List.append_nil]
    exact ⟨chunks, a, rfl, h⟩
  · rw [if_neg hempty]
    have hbytes : splatBytes [] bytes 1 = bytes := by simp [splatBytes]
    rw [← hbytes]
    simpa [hbytes] using writeSplatAll_framed h hhead [] bytes 1

theorem flush_framed (h : Framed res chunks content a) (hhead : res.head = false) :
    ∃ chunks' a', flush a = .ok () a' ∧ a'.w.buffered = [] ∧ Framed res chunks' content a' := by
  unfold flush
  rw [bind_ok (get_run a)]
  by_cases hempty : a.w.buffered = []
  · rw [hempty]
    exact ⟨chunks, a, rfl, hempty, h⟩
  · have hsome : drainTotal a [] [] 1 ≠ 0 := by
      simpa [drainTotal, countSplat] using hempty
    obtain ⟨a', hrun, hbuf, h'⟩ := drain_framed h hhead [] [] 1 hsome
    have hwhen : (a.w.buffered.length != 0) = true := by simpa using hempty
    rw [hwhen, when_true]
    exact ⟨_, a', hrun, hbuf, by simpa [splatBytes] using h'⟩

end writes

/-- What a handler does with a streaming body until it is done with it. -/
inductive WriteOp where
  | write (bytes : Bytes)
  | splat (data : List Bytes) (pattern : Bytes) (splat : ℕ)
  | flush

/-- The call. -/
def WriteOp.exec : WriteOp → Act Self Unit
  | .write bytes => writeAll bytes
  | .splat data pattern n => writeSplatAll data pattern n
  | .flush => StreamingBodyWriter.flush

/-- The bytes the call is about. -/
def WriteOp.bytes : WriteOp → Bytes
  | .write bytes => bytes
  | .splat data pattern n => splatBytes data pattern n
  | .flush => []

/-- A sequence of calls. -/
def runWrites : List WriteOp → Act Self Unit
  | [] => pure ()
  | op :: rest => do
      op.exec
      runWrites rest

theorem WriteOp.exec_framed {res : Response} {chunks : List Bytes} {content : Bytes} {a : Self}
    (op : WriteOp) (h : Framed res chunks content a) (hhead : res.head = false) :
    ∃ chunks' a', op.exec a = .ok () a' ∧ Framed res chunks' (content ++ op.bytes) a' := by
  cases op with
  | write bytes => exact writeAll_framed h hhead bytes
  | splat data pattern n => exact writeSplatAll_framed h hhead data pattern n
  | flush =>
      obtain ⟨chunks', a', hrun, -, h'⟩ := flush_framed h hhead
      exact ⟨chunks', a', hrun, by simpa [WriteOp.bytes] using h'⟩

theorem runWrites_framed {res : Response} (hhead : res.head = false) (ops : List WriteOp)
    {chunks : List Bytes} {content : Bytes} {a : Self} (h : Framed res chunks content a) :
    ∃ chunks' a', runWrites ops a = .ok () a' ∧
      Framed res chunks' (content ++ ops.flatMap WriteOp.bytes) a' := by
  induction ops generalizing chunks content a with
  | nil => exact ⟨chunks, a, rfl, by simpa using h⟩
  | cons op rest ih =>
      obtain ⟨chunks₁, a₁, hrun₁, h₁⟩ := op.exec_framed h hhead
      obtain ⟨chunks₂, a₂, hrun₂, h₂⟩ := ih h₁
      refine ⟨chunks₂, a₂, ?_, ?_⟩
      · rw [runWrites, bind_ok hrun₁, hrun₂]
      · rw [List.flatMap_cons, ← List.append_assoc]
        exact h₂

/-! ### Finishing -/

/-- The ways to finish a streaming body: its own `end`, and the server's `write`. -/
inductive Finish where
  | finish
  | write
deriving DecidableEq

def Finish.exec : Finish → Act Self Unit
  | .finish => StreamingBodyWriter.finish
  | .write => onRes Response.write

/-- Finish several times, whatever the results. -/
def runFinishes : List Finish → Act Self (List (Except Error Unit))
  | [] => pure []
  | f :: rest => do
      let result ← attempt f.exec
      let results ← runFinishes rest
      pure (result :: results)

/-- The body of `res` is done: `sent` is on the wire, framed as `res` promised, and the
connection is kept only if that was what was promised. -/
structure Finished (res : Response) (sent : Bytes) (a : Self) : Prop where
  closed : a.res.bodyWriterOpen = false
  written : a.res.written = true
  keepalive : res.chunked = false → ∀ n, res.contentLength = some n → sent.length ≠ n →
    a.res.keepalive = false
  body : ∃ body, a.res.conn.out = res.conn.out ++ body ∧
    (res.chunked = true → decodeChunked body = some (sent, [])) ∧
    (res.chunked = false → body = sent)

section finish
variable {res : Response} {chunks : List Bytes} {content : Bytes} {a : Self}

/-- The wire after the last chunk, if the framing has one. -/
theorem decodes_wire (hne : ∀ c ∈ chunks, c ≠ []) (chunked : Bool) :
    ∃ body, body = wire chunked chunks ++ (if chunked then lastChunk else []) ∧
      (chunked = true → decodeChunked body = some (chunks.flatten, [])) ∧
      (chunked = false → body = chunks.flatten) := by
  refine ⟨_, rfl, ?_, ?_⟩
  · rintro rfl
    have h := decodeChunked_encodeChunks hne []
    simpa [wire] using h
  · rintro rfl
    simp [wire]

theorem Framed.mark (h : Framed res chunks content a) :
    Framed res.closeBody.markWritten chunks content (a.setRes a.res.closeBody.markWritten) := by
  refine ⟨h.faults, h.nonempty, h.out, h.sent, h.kept, ?_⟩
  show a.res.closeBody.markWritten = _
  rw [h.same]
  rfl

/-- The states in which a body is done: all of it sent, and the framing completed. -/
theorem finished_of (hne : ∀ c ∈ chunks, c ≠ []) {a : Self}
    (hout : a.res.conn.out =
      res.conn.out ++ (wire res.chunked chunks ++ if res.chunked then lastChunk else []))
    (hclosed : a.res.bodyWriterOpen = false) (hwritten : a.res.written = true)
    (hkeep : res.chunked = false → ∀ n, res.contentLength = some n → chunks.flatten.length ≠ n →
      a.res.keepalive = false) : Finished res chunks.flatten a := by
  obtain ⟨body, rfl, hdec, hraw⟩ := decodes_wire hne res.chunked
  exact ⟨hclosed, hwritten, hkeep, _, hout, hdec, hraw⟩

/-- **What `end` does.** -/
theorem finish_framed (h : Framed res chunks content a) (hhead : res.head = false)
    (hopen : res.bodyWriterOpen = true) :
    ∃ result a', attempt finish a = .ok result a' ∧ Finished res content a' ∧
      ∀ n, res.contentLength = some n → content.length ≠ n →
        result = .error .contentLengthMismatch := by
  obtain ⟨chunks', a₂, hflush, hbuf, h₂⟩ := flush_framed h.mark hhead
  obtain rfl : content = chunks'.flatten := by simpa [hbuf] using h₂.kept
  obtain ⟨conn₃, hlast, hfaults₃, hout₃⟩ :=
    ((puts_commit (puts_emit (ascii "0\r\n\r\n"))).when (a.res.chunked && !a.res.head)) a₂
      h₂.faults
  obtain ⟨conn₄, hflushed, hfaults₄, hout₄⟩ := puts_commit puts_flushConn (a₂.setConn conn₃) hfaults₃
  let a₄ : Self := (a₂.setConn conn₃).setConn conn₄
  have hlength : a₄.res.contentLength = res.contentLength := h₂.contentLength
  have hsent : a₄.res.bodySent = chunks'.flatten.length := h₂.sent
  have hout : a₄.res.conn.out =
      res.conn.out ++ (wire res.chunked chunks' ++ if res.chunked then lastChunk else []) := by
    have hterm : (a.res.chunked && !a.res.head) = res.chunked := by
      rw [h.chunked, h.head, hhead, Bool.not_false, Bool.and_true]
    rw [hterm] at hout₃
    rw [show a₄.res.conn = conn₄ from rfl, hout₄, List.append_nil,
      show (a₂.setConn conn₃).res.conn = conn₃ from rfl, hout₃, h₂.out, List.append_assoc]
    rfl
  have hclosed : a₄.res.bodyWriterOpen = false := h₂.bodyWriterOpen
  have hwritten : a₄.res.written = true := h₂.written
  have hrest : finish a = onError (fun self => self.setRes self.res.noKeepalive)
      (fun _ => res.contentLength.elim (.ok () a₄) fun n =>
        Act.when (chunks'.flatten.length != n) (fail .contentLengthMismatch) a₄) a := by
    unfold finish
    rw [bind_ok (get_run a), if_neg (by simp [h.bodyWriterOpen, hopen]), bind_ok (modify_run ..)]
    unfold onError
    rw [bind_ok (commit_ok hflush), bind_ok hlast, bind_ok hflushed, bind_ok (get_run a₄), hlength,
      hsent]
    cases res.contentLength <;> rfl
  cases hcl : res.contentLength with
  | none =>
      have hrun : attempt finish a = .ok (.ok ()) a₄ := by rw [attempt, hrest, hcl]; rfl
      refine ⟨.ok (), a₄, hrun, finished_of h₂.nonempty hout hclosed hwritten ?_, by simp⟩
      simp [hcl]
  | some n =>
      by_cases hn : chunks'.flatten.length = n
      · have hrun : attempt finish a = .ok (.ok ()) a₄ := by
          rw [attempt, hrest, hcl]
          simp [onError, hn]
        refine ⟨.ok (), a₄, hrun, finished_of h₂.nonempty hout hclosed hwritten ?_, ?_⟩
        · intro _ m hm hne
          exact absurd (hn.trans (Option.some.inj (hcl.symm.trans hm))) hne
        · intro m hm hne
          exact absurd (hn.trans (Option.some.inj hm)) hne
      · have hrun : attempt finish a =
            .ok (.error .contentLengthMismatch) (a₄.setRes a₄.res.noKeepalive) := by
          have hbne : (chunks'.flatten.length != n) = true := by simpa using hn
          rw [attempt, hrest, hcl]
          simp only [onError, Option.elim_some, hbne, when_true, fail_run]
        refine ⟨_, _, hrun, finished_of h₂.nonempty hout hclosed hwritten ?_, fun _ _ _ => rfl⟩
        exact fun _ _ _ _ => rfl

/-- What `Response.write` does with a streaming body that was abandoned. -/
theorem write_abandoned {self : Response} (h : self.conn.faults = []) (hhead : self.head = false)
    (hwritten : self.written = false) (hopen : self.bodyWriterOpen = true)
    (hw : self.headersWritten = true) :
    ∃ r, Response.write self = .ok () r ∧
      r.conn.out = self.conn.out ++ (if self.chunked then lastChunk else []) ∧
      r.bodyWriterOpen = false ∧ r.written = true ∧
      (self.chunked = false → ∀ n, self.contentLength = some n → self.bodySent ≠ n →
        r.keepalive = false) := by
  unfold Response.write
  rw [bind_ok (get_run self), if_neg (by simp [hwritten]), if_pos hopen, bind_ok (modify_run ..),
    if_pos hw]
  have hrest : ∀ r : Response, r.conn.faults = [] →
      (do Response.onConn Conn.flush; modify Response.markWritten : Act Response Unit) r =
        .ok () (r.setConn r.conn.flushedAll).markWritten := by
    intro r hr
    rw [bind_ok (Response.onConn_flush_run hr)]
    rfl
  unfold Response.finishAbandoned Response.settleAbandoned
  cases hc : self.chunked with
  | true =>
      have hfaults : self.closeBody.conn.faults = [] := h
      have hterm : Response.writeTerminator self self.closeBody =
          .ok () (self.closeBody.setConn (self.conn.wrote .body lastChunk)) := by
        unfold Response.writeTerminator
        rw [hhead]
        exact Response.onConn_writeAll_run hfaults .body lastChunk
      rw [if_pos rfl, bind_ok hterm, hrest (self.closeBody.setConn (self.conn.wrote .body lastChunk)) h]
      exact ⟨_, rfl, Conn.out_wrote _ _ _, rfl, rfl, by simp⟩
  | false =>
      rw [if_neg Bool.false_ne_true]
      cases hcl : self.contentLength with
      | none =>
          rw [bind_ok (pure_run ..), hrest self.closeBody h]
          exact ⟨_, rfl, (List.append_nil _).symm, rfl, rfl, by simp⟩
      | some n =>
          by_cases hn : self.bodySent = n
          · have hbne : (self.bodySent != n) = false := by simpa using hn
            simp only [hbne, when_false]
            rw [bind_ok (pure_run ..), hrest self.closeBody h]
            refine ⟨_, rfl, (List.append_nil _).symm, rfl, rfl, ?_⟩
            intro _ m hm hne
            exact absurd (hn.trans (Option.some.inj hm)) hne
          · have hbne : (self.bodySent != n) = true := by simpa using hn
            simp only [hbne, when_true]
            rw [bind_ok (modify_run ..), hrest self.closeBody.noKeepalive h]
            exact ⟨_, rfl, (List.append_nil _).symm, rfl, rfl, fun _ _ _ _ => rfl⟩

theorem write_framed (h : Framed res chunks content a) (hhead : res.head = false)
    (hwritten : res.written = false) (hopen : res.bodyWriterOpen = true)
    (hw : res.headersWritten = true) :
    ∃ a', attempt (onRes Response.write) a = .ok (.ok ()) a' ∧
      Finished res chunks.flatten a' := by
  have hw' : a.res.headersWritten = true := by rw [h.same]; exact hw
  obtain ⟨r, hrun, hout, hclosed, hdone, hkeep⟩ := write_abandoned h.faults
    (h.head.trans hhead) (h.written.trans hwritten) (h.bodyWriterOpen.trans hopen) hw'
  refine ⟨a.setRes r, ?_, finished_of h.nonempty ?_ hclosed hdone ?_⟩
  · simp only [attempt, onRes, zoom, hrun]
  · show r.conn.out = _
    rw [hout, h.out, h.chunked, List.append_assoc]
  · intro hc n hn hne
    refine hkeep (h.chunked.trans hc) n (h.contentLength.trans hn) ?_
    rwa [h.sent]

theorem Finished.exec {sent : Bytes} (h : Finished res sent a) (f : Finish) :
    attempt f.exec a = .ok (.ok ()) a := by
  cases f with
  | finish =>
      have hrun : finish a = .ok () a := by
        unfold finish
        rw [bind_ok (get_run a), if_pos (by simp [h.closed])]
        rfl
      rw [Finish.exec, attempt, hrun]
  | write =>
      have hrun : Response.write a.res = .ok () a.res := by
        unfold Response.write
        rw [bind_ok (get_run a.res), if_pos h.written]
        rfl
      simp only [Finish.exec, attempt, onRes, zoom, hrun]
      rfl

theorem Finished.runFinishes {sent : Bytes} (h : Finished res sent a) (fs : List Finish) :
    runFinishes fs a = .ok (fs.map fun _ => .ok ()) a := by
  induction fs with
  | nil => rfl
  | cons f rest ih =>
      rw [StreamingBodyWriter.runFinishes, bind_ok (h.exec f), bind_ok ih]
      rfl

end finish

/-! ### The whole body -/

end StreamingBodyWriter

namespace Response

theorem startBody_ok {self s : Response} {u : Unit} (h : startBody self = .ok u s) :
    self.headersWritten = false ∧ s = self.openBody := by
  unfold startBody at h
  rw [bind_ok (get_run self)] at h
  obtain ⟨_, s₁, h₁, h⟩ := bind_eq_ok.mp h
  obtain ⟨_, s₂, h₂, h⟩ := bind_eq_ok.mp h
  obtain ⟨_, s₃, h₃, h⟩ := bind_eq_ok.mp h
  rw [assert_run] at h₁ h₂ h₃
  split at h₁ <;> cases h₁
  split at h₂ <;> cases h₂
  · case isTrue hopen hw =>
      split at h₃ <;> cases h₃
      cases h
      exact ⟨by simpa using hw, rfl⟩

/-- The framing `stream` decides on: a declared length, or chunks. -/
theorem decideFraming_ok {self s : Response} {u : Unit} (h : decideFraming self = .ok u s) :
    (∃ n, s = self.declareLength n) ∨ s = self.useChunks := by
  unfold decideFraming at h
  rw [bind_ok (get_run self)] at h
  cases hcl : self.headers.get (ascii "Content-Length") with
  | none =>
      simp only [hcl, modify_run] at h
      cases h
      exact .inr rfl
  | some value =>
      simp only [hcl] at h
      cases hn : parseInt usizeBound 10 value with
      | none => simp [hn] at h
      | some n =>
          simp only [hn, modify_run] at h
          cases h
          exact .inl ⟨n, rfl⟩

/-- What `stream` leaves behind: the header block is on the wire, nothing of the body is, and
a body without chunked framing has the length that was declared. -/
theorem stream_ok {self res : Response} (hfaults : self.conn.faults = [])
    (hvalid : HeadersValid self.headers) (hstream : stream self = .ok () res) :
    self.headersWritten = false ∧
    ∃ lines, (∀ line ∈ lines, IsLine line) ∧ (∃ status fields, lines = statusLine status :: fields) ∧
      res.conn.out = self.conn.out ++ headBlock lines ∧ res.conn.faults = [] ∧ res.headersWritten = true ∧ res.bodyWriterOpen = true ∧
      res.written = self.written ∧ res.head = self.head ∧ res.bodySent = self.bodySent ∧
      (res.chunked = false → ∃ n, res.contentLength = some n) := by
  unfold stream at hstream
  obtain ⟨_, s₁, h₁, hstream⟩ := bind_eq_ok.mp hstream
  obtain ⟨_, s₂, h₂, h₃⟩ := bind_eq_ok.mp hstream
  obtain ⟨hw, rfl⟩ := startBody_ok h₁
  have hpost : ∀ s : Response, writeHeader s = .ok () res → s.conn = self.conn →
      s.headers = self.headers → s.headersWritten = false →
      ∃ headers, HeadersValid headers ∧ res = (s.setHeaders headers).sentHead := by
    intro s hrun hconn hheaders hsw
    rw [writeHeader_run (by rw [hconn, hfaults]) hsw] at hrun
    cases hset : s.settledHeaders with
    | error e => simp [hset] at hrun
    | ok headers =>
        simp only [hset] at hrun
        cases hrun
        exact ⟨headers, settledHeaders_valid (by rwa [hheaders]) hset, rfl⟩
  have hblock : ∀ s : Response, s.conn = self.conn →
      s.sentHead.conn.out = self.conn.out ++ headBlock s.headLines := by
    intro s hs
    rw [← hs]
    exact Conn.out_wroteLines_block _ _
  refine ⟨hw, ?_⟩
  rcases decideFraming_ok h₂ with ⟨n, rfl⟩ | rfl
  · obtain ⟨headers, hv, rfl⟩ := hpost _ h₃ rfl rfl hw
    exact ⟨_, isLine_headLines hv, ⟨_, _, rfl⟩, hblock _ rfl, (Conn.faults_wroteLines _ _).trans hfaults,
      rfl, rfl, rfl, rfl, rfl, fun _ => ⟨n, rfl⟩⟩
  · obtain ⟨headers, hv, rfl⟩ := hpost _ h₃ rfl rfl hw
    exact ⟨_, isLine_headLines hv, ⟨_, _, rfl⟩, hblock _ rfl, (Conn.faults_wroteLines _ _).trans hfaults,
      rfl, rfl, rfl, rfl, rfl, fun hc => absurd (show true = false from hc) (by simp)⟩

end Response

namespace StreamingBodyWriter

open HandlerState Executor

/-- **The framing of a streamed body.**  A handler that got a writer from `stream` writes,
splats and flushes as it likes and then finishes the body in any way, any number of times.
All its writes succeed.  What is on the wire since `stream` is a header block and a body.  A
chunked body decodes to everything that was written if it was ended, and to everything that
was drained if it was abandoned, with nothing after its last chunk.  A body of declared length
is these bytes themselves; if their number is not the declared one, the connection is not
kept, and `end` says so. -/
theorem stream_framing {conn : Conn} (hconn : conn.faults = []) (maxHeaders : ℕ)
    (keepalive : Bool) {before : List Op} {rs : List (Except Error Unit)} {st : HandlerState}
    (hbefore : runOps before (start conn maxHeaders false keepalive) = .ok rs st)
    {res : Response} (hstream : Response.stream st.res = .ok () res) (cap : ℕ)
    (writes : List WriteOp) (last : Finish) (more : List Finish) :
    ∃ w result a drained, runWrites writes ⟨res, { cap := cap }⟩ = .ok () w ∧
      runFinishes (last :: more) w = .ok (result :: more.map fun _ => .ok ()) a ∧
      writes.flatMap WriteOp.bytes = drained ++ w.w.buffered ∧
      ∃ lines body sent, a.res.conn.out = st.res.conn.out ++ headBlock lines ++ body ∧
        cutHead (headBlock lines ++ body) = some (lines, body) ∧
        sent = (if last = .finish then writes.flatMap WriteOp.bytes else drained) ∧
        (res.chunked = true → decodeChunked body = some (sent, [])) ∧
        (res.chunked = false → body = sent ∧ ∃ n, res.contentLength = some n ∧
          (a.res.keepalive = true → sent.length = n) ∧
          (sent.length ≠ n → last = .finish → result = .error .contentLengthMismatch)) := by
  have hreach := reach_of_runOps hconn hbefore
  obtain ⟨hw, lines, hlines, -, hout, hfaults, hsent, hopen, hwritten, hhead, hcount, hdeclared⟩ :=
    Response.stream_ok hreach.faults hreach.valid hstream
  obtain ⟨hunwritten, -, hzero, -⟩ := hreach.fresh hw
  replace hhead : res.head = false := hhead.trans hreach.head
  have hstart : Framed res [] [] (⟨res, { cap := cap }⟩ : Self) :=
    ⟨hfaults, by simp, by simp [wire], hcount.trans hzero, rfl, rfl⟩
  obtain ⟨chunks, w, hwrites, hframed⟩ := runWrites_framed hhead writes hstart
  rw [List.nil_append] at hframed
  have hfinish : ∃ result a, attempt last.exec w = .ok result a ∧
      Finished res (if last = .finish then writes.flatMap WriteOp.bytes else chunks.flatten) a ∧
      ∀ n, res.contentLength = some n → (writes.flatMap WriteOp.bytes).length ≠ n →
        last = .finish → result = .error .contentLengthMismatch := by
    cases last with
    | finish =>
        obtain ⟨result, a, hrun, hdone, hresult⟩ := finish_framed hframed hhead hopen
        exact ⟨result, a, hrun, hdone, fun n hn hne _ => hresult n hn hne⟩
    | write =>
        obtain ⟨a, hrun, hdone⟩ := write_framed hframed hhead (hwritten.trans hunwritten) hopen hsent
        exact ⟨_, a, hrun, hdone, by simp⟩
  obtain ⟨result, a, hrun, hdone, hresult⟩ := hfinish
  obtain ⟨body, hbody, hchunked, hplain⟩ := hdone.body
  refine ⟨w, result, a, chunks.flatten, hwrites, ?_, hframed.kept, lines, body, _, ?_,
    cutHead_headBlock hlines body, rfl, hchunked, ?_⟩
  · rw [runFinishes, bind_ok hrun, bind_ok (hdone.runFinishes more)]
    rfl
  · rw [hbody, hout]
  · intro hc
    obtain ⟨n, hn⟩ := hdeclared hc
    refine ⟨hplain hc, n, hn, ?_, ?_⟩
    · intro hkeep
      by_contra hne
      rw [hdone.keepalive hc n hn hne] at hkeep
      exact absurd hkeep (by simp)
    · intro hne hlast
      rw [if_pos hlast] at hne
      exact hresult n hn hne hlast

theorem stream_framing_sample :
    ∃ w result a body, runWrites [.write (ascii "hello"), .flush, .splat [] (ascii "ab") 3]
        ⟨Act.final Response.stream (start {} 8 false true).res, { cap := 4 }⟩ = .ok () w ∧
      runFinishes [.finish, .write] w = .ok [result, .ok ()] a ∧
      decodeChunked body = some (ascii "helloababab", []) := by
  have hbefore : runOps [] (start {} 8 false true) = .ok [] (start {} 8 false true) := rfl
  have hstream : Response.stream (start {} 8 false true).res =
      .ok () (Act.final Response.stream (start {} 8 false true).res) := rfl
  have hchunked : (Act.final Response.stream (start {} 8 false true).res).chunked = true := by
    decide +kernel
  obtain ⟨w, result, a, drained, hwrites, hfinishes, -, lines, body, sent, -, -, hsent, hbody, -⟩ :=
    stream_framing rfl 8 true hbefore hstream 4
      [.write (ascii "hello"), .flush, .splat [] (ascii "ab") 3] .finish [.write]
  refine ⟨w, result, a, body, hwrites, hfinishes, ?_⟩
  rw [hbody hchunked, hsent, if_pos rfl]
  decide +kernel

end StreamingBodyWriter
end Dusty
