import Dusty.StreamFraming

/-! # Writes that a transport may refuse

A piece of output is a list of requests to the transport: some bytes, or a flush.  What becomes of it on any
schedule of faults is known beforehand (`serve_cases`): which bytes are accepted, and whether all of them are.
A drain of a streaming writer is such a list (`drain_cases`). -/

namespace Dusty

open Act

namespace Conn

/-! ### Requests -/

/-- The requests, one after the other: some bytes, or a flush. -/
def serve (part : Part) : List (Option Bytes) → Act Conn Unit
  | [] => pure ()
  | some bytes :: rest => do
      writeAll part bytes
      serve part rest
  | none :: rest => do
      flush
      serve part rest

/-- The bytes that are accepted of the requests. -/
def accepted : List (Option (ℕ × Error)) → List (Option Bytes) → Bytes
  | _, [] => []
  | [], request :: rest => request.getD [] ++ accepted [] rest
  | none :: faults, request :: rest => request.getD [] ++ accepted faults rest
  | some (n, _) :: _, request :: _ => (request.getD []).take n

/-- One of the requests is refused. -/
def breaks (faults : List (Option (ℕ × Error))) (requests : List (Option Bytes)) : Bool :=
  (faults.take requests.length).any Option.isSome

/-- All the bytes of the requests. -/
def allBytes (requests : List (Option Bytes)) : Bytes := requests.flatMap (·.getD [])

theorem allBytes_append (requests more : List (Option Bytes)) :
    allBytes (requests ++ more) = allBytes requests ++ allBytes more := List.flatMap_append

theorem allBytes_map (pieces : List Bytes) : allBytes (pieces.map some) = pieces.flatten := by
  induction pieces with
  | nil => rfl
  | cons piece rest ih =>
      rw [List.map_cons, allBytes, List.flatMap_cons, List.flatten_cons, ← ih]
      rfl

/-- **What becomes of the requests.** -/
theorem serve_cases (part : Part) (requests : List (Option Bytes)) (c : Conn) :
    (breaks c.faults requests = false ∧
      ∃ c', serve part requests c = .ok () c' ∧ c'.out = c.out ++ allBytes requests) ∨
    (breaks c.faults requests = true ∧
      ∃ c', serve part requests c = .error (.err .writeFailed) c' ∧
        c'.out = c.out ++ accepted c.faults requests) := by
  induction requests generalizing c with
  | nil => exact .inl ⟨by simp [breaks], c, rfl, (List.append_nil _).symm⟩
  | cons request rest ih =>
      -- one request that is accepted, and what becomes of the others
      have hnext : ∀ c₁ : Conn, c₁.out = c.out ++ request.getD [] →
          serve part (request :: rest) c = serve part rest c₁ →
          breaks c.faults (request :: rest) = breaks c₁.faults rest →
          accepted c.faults (request :: rest) = request.getD [] ++ accepted c₁.faults rest →
          (breaks c.faults (request :: rest) = false ∧
            ∃ c', serve part (request :: rest) c = .ok () c' ∧
              c'.out = c.out ++ allBytes (request :: rest)) ∨
          (breaks c.faults (request :: rest) = true ∧
            ∃ c', serve part (request :: rest) c = .error (.err .writeFailed) c' ∧
              c'.out = c.out ++ accepted c.faults (request :: rest)) := by
        intro c₁ hout hserve hbreaks haccepted
        rw [hbreaks, hserve, haccepted]
        rcases ih c₁ with ⟨hall, c', hrun, hout'⟩ | ⟨hnot, c', hrun, hout'⟩
        · refine .inl ⟨hall, c', hrun, ?_⟩
          rw [hout', hout, List.append_assoc]
          rfl
        · refine .inr ⟨hnot, c', hrun, ?_⟩
          rw [hout', hout, List.append_assoc]
      obtain ⟨log, flushed, faults, writeErr⟩ := c
      cases faults with
      | nil =>
          cases request with
          | none => exact hnext (Conn.flushedAll _) (List.append_nil _).symm rfl (by simp [breaks]) rfl
          | some bytes =>
              exact hnext (Conn.wrote _ part bytes) (out_wrote _ _ _) rfl (by simp [breaks]) rfl
      | cons fault faults =>
          cases fault with
          | none =>
              cases request with
              | none =>
                  refine hnext { Conn.flushedAll _ with faults := faults } (List.append_nil _).symm rfl ?_ rfl
                  simp [breaks]
              | some bytes =>
                  refine hnext { Conn.wrote _ part bytes with faults := faults } (out_wrote _ _ _) rfl ?_ rfl
                  simp [breaks]
          | some cause =>
              refine .inr ⟨by simp [breaks], ?_⟩
              cases request with
              | none => exact ⟨_, rfl, by simp [accepted, out]⟩
              | some bytes => exact ⟨_, rfl, out_wrote _ _ _⟩

/-- Requests none of which is refused are accepted. -/
theorem accepted_of_unbroken {faults : List (Option (ℕ × Error))} {requests : List (Option Bytes)}
    (h : breaks faults requests = false) : accepted faults requests = allBytes requests := by
  induction requests generalizing faults with
  | nil => cases faults <;> rfl
  | cons request rest ih =>
      have hrest : ∀ faults', breaks faults' rest = false →
          request.getD [] ++ accepted faults' rest = allBytes (request :: rest) := by
        intro faults' hall
        rw [ih hall]
        rfl
      cases faults with
      | nil => exact hrest [] (by simp [breaks])
      | cons fault faults =>
          cases fault with
          | none => exact hrest faults (by simpa [breaks] using h)
          | some cause => simp [breaks] at h

theorem serve_append (part : Part) (requests more : List (Option Bytes)) :
    serve part (requests ++ more) = (serve part requests >>= fun _ => serve part more) := by
  induction requests with
  | nil => rw [List.nil_append, serve, pure_bind]
  | cons request rest ih =>
      cases request with
      | none => rw [List.cons_append, serve, serve, ih, bind_assoc]
      | some bytes => rw [List.cons_append, serve, serve, ih, bind_assoc]

theorem serve_some (part : Part) (bytes : Bytes) : serve part [some bytes] = writeAll part bytes := by
  rw [serve, serve, bind_pure_unit]

theorem serve_none (part : Part) : serve part [none] = flush := by
  rw [serve, serve, bind_pure_unit]

end Conn

/-- Two actions on a part, one after the other, are one action on it. -/
theorem zoom_bind {σ τ α β : Type} {g : τ → σ} {put : σ → τ → τ} (hget : ∀ s t, g (put s t) = s)
    (hput : ∀ s s' t, put s (put s' t) = put s t) (x : Act σ α) (f : α → Act σ β) :
    zoom g put (x >>= f) = (zoom g put x >>= fun a => zoom g put (f a)) := by
  funext t
  rw [bind_run]
  unfold zoom
  rw [bind_run]
  cases hx : x (g t) with
  | error e s => rfl
  | ok a s =>
      simp only [hget]
      cases f a s with
      | ok b s' => simp only [hput]
      | error e s' => simp only [hput]

theorem Response.onConn_bind {α β : Type} (x : Act Conn α) (f : α → Act Conn β) :
    Response.onConn (x >>= f) = (Response.onConn x >>= fun a => Response.onConn (f a)) :=
  @zoom_bind Conn Response α β (·.conn) (fun conn self => self.setConn conn) (fun _ _ => rfl)
    (fun _ _ _ => rfl) x f

theorem Response.serve_run {part : Part} {requests : List (Option Bytes)} {self : Response}
    (h : Conn.breaks self.conn.faults requests = false) :
    ∃ conn, Response.onConn (Conn.serve part requests) self = .ok () (self.setConn conn) := by
  unfold Response.onConn zoom
  rcases Conn.serve_cases part requests self.conn with ⟨-, c, hrun, -⟩ | ⟨hnot, -⟩
  · rw [hrun]
    exact ⟨c, rfl⟩
  · rw [h] at hnot
    cases hnot

theorem Response.serve_ok {part : Part} {requests : List (Option Bytes)} {self r : Response}
    (h : Response.onConn (Conn.serve part requests) self = .ok () r) :
    ∃ conn, r = self.setConn conn ∧ conn.out = self.conn.out ++ Conn.allBytes requests := by
  unfold Response.onConn zoom at h
  rcases Conn.serve_cases part requests self.conn with ⟨-, c, hrun, hout⟩ | ⟨-, c, hrun, hout⟩
  · rw [hrun] at h
    cases h
    exact ⟨c, rfl, hout⟩
  · rw [hrun] at h
    cases h

theorem Response.writeAll_ok {part : Part} {bytes : Bytes} {self r : Response}
    (h : Response.onConn (Conn.writeAll part bytes) self = .ok () r) :
    ∃ conn, r = self.setConn conn ∧ conn.out = self.conn.out ++ bytes := by
  rw [← Conn.serve_some] at h
  obtain ⟨conn, hr, hout⟩ := Response.serve_ok h
  exact ⟨conn, hr, by rw [hout, Conn.allBytes, List.flatMap_singleton]; rfl⟩

theorem Response.flush_ok {self r : Response} (h : Response.onConn Conn.flush self = .ok () r) :
    ∃ conn, r = self.setConn conn ∧ conn.out = self.conn.out := by
  rw [← Conn.serve_none .body] at h
  obtain ⟨conn, hr, hout⟩ := Response.serve_ok h
  exact ⟨conn, hr, hout.trans (List.append_nil _)⟩

/-- What a `write` sends for a streaming body that was abandoned; the count that was declared was reached, or
the connection is given up. -/
theorem Response.finishAbandoned_ok {self s r : Response} (h : Response.finishAbandoned self s = .ok () r) :
    r.conn.out = s.conn.out ++ (if self.chunked && !self.head then lastChunk else []) ∧
    (r.keepalive = false ∨ ∀ n, self.contentLength = some n → self.chunked = false → self.bodySent = n) := by
  unfold Response.finishAbandoned at h
  obtain ⟨_, r₁, hsettle, h⟩ := bind_eq_ok.mp h
  obtain ⟨_, r₂, hflush, h⟩ := bind_eq_ok.mp h
  cases h
  obtain ⟨conn₂, rfl, hout₂⟩ := Response.flush_ok hflush
  have hout : ∀ bytes, r₁.conn.out = s.conn.out ++ bytes → conn₂.out = s.conn.out ++ bytes :=
    fun _ hr => hout₂.trans hr
  unfold Response.settleAbandoned Response.writeTerminator at hsettle
  cases hchunked : self.chunked with
  | true =>
      rw [if_pos hchunked] at hsettle
      refine ⟨hout _ ?_, .inr fun n _ hc => by cases hc⟩
      rw [Bool.true_and]
      cases hhead : self.head with
      | true =>
          rw [hhead] at hsettle
          cases hsettle
          exact (List.append_nil _).symm
      | false =>
          rw [hhead] at hsettle
          obtain ⟨conn₁, rfl, hout₁⟩ := Response.writeAll_ok hsettle
          exact hout₁
  | false =>
      rw [if_neg (by simp [hchunked])] at hsettle
      cases hlength : self.contentLength with
      | none =>
          simp only [hlength] at hsettle
          cases hsettle
          exact ⟨hout _ (List.append_nil _).symm, .inr fun n hn => by cases hn⟩
      | some declared =>
          simp only [hlength] at hsettle
          by_cases hcount : self.bodySent = declared
          · rw [bne_eq_false_iff_eq.mpr hcount, when_false] at hsettle
            cases hsettle
            exact ⟨hout _ (List.append_nil _).symm, .inr fun n hn _ => hcount.trans (Option.some.inj hn)⟩
          · rw [bne_iff_ne.mpr hcount, when_true] at hsettle
            cases hsettle
            exact ⟨hout _ (List.append_nil _).symm, .inl rfl⟩

namespace Attached

variable {W : Type}

theorem onRes_bind {α β : Type} (x : Act Response α) (f : α → Act Response β) :
    (onRes (x >>= f) : Act (Attached W) β) = (onRes x >>= fun a => onRes (f a)) :=
  @zoom_bind Response (Attached W) α β (·.res) (fun res a => { a with res := res }) (fun _ _ => rfl)
    (fun _ _ _ => rfl) x f

/-- Requests of a writer. -/
def serve (requests : List (Option Bytes)) : Act (Attached W) Unit :=
  onRes (Response.onConn (Conn.serve .body requests))

theorem serve_append (requests more : List (Option Bytes)) :
    (serve (requests ++ more) : Act (Attached W) Unit) = (serve requests >>= fun _ => serve more) := by
  unfold serve
  rw [Conn.serve_append, Response.onConn_bind, onRes_bind]

theorem serve_some (bytes : Bytes) : (serve [some bytes] : Act (Attached W) Unit) = emit bytes := by
  unfold serve emit
  rw [Conn.serve_some]

theorem serve_none : (serve [none] : Act (Attached W) Unit) = flushConn := by
  unfold serve flushConn
  rw [Conn.serve_none]

theorem serve_cases (requests : List (Option Bytes)) (a : Attached W) :
    (Conn.breaks a.res.conn.faults requests = false ∧ ∃ conn, serve requests a = .ok () (a.setConn conn) ∧
      conn.out = a.res.conn.out ++ Conn.allBytes requests) ∨
    (Conn.breaks a.res.conn.faults requests = true ∧
      ∃ conn, serve requests a = .error (.err .writeFailed) (a.setConn conn) ∧
        conn.out = a.res.conn.out ++ Conn.accepted a.res.conn.faults requests) := by
  unfold serve onRes Response.onConn zoom
  rcases Conn.serve_cases .body requests a.res.conn with ⟨hall, c, hrun, hout⟩ | ⟨hnot, c, hrun, hout⟩
  · exact .inl ⟨hall, c, by rw [hrun]; rfl, hout⟩
  · exact .inr ⟨hnot, c, by rw [hrun]; rfl, hout⟩

theorem serve_ok {requests : List (Option Bytes)} {a a' : Attached W} (h : serve requests a = .ok () a') :
    ∃ conn, a' = a.setConn conn ∧ conn.out = a.res.conn.out ++ Conn.allBytes requests := by
  rcases serve_cases requests a with ⟨-, conn, hrun, hout⟩ | ⟨-, conn, hrun, -⟩
  · rw [hrun] at h
    cases h
    exact ⟨conn, rfl, hout⟩
  · rw [hrun] at h
    cases h

theorem emit_ok {bytes : Bytes} {a a' : Attached W} (h : emit bytes a = .ok () a') :
    ∃ conn, a' = a.setConn conn ∧ conn.out = a.res.conn.out ++ bytes := by
  rw [← serve_some] at h
  obtain ⟨conn, ha, hout⟩ := serve_ok h
  exact ⟨conn, ha, by rw [hout, Conn.allBytes, List.flatMap_singleton]; rfl⟩

theorem flushConn_ok {a a' : Attached W} (h : flushConn a = .ok () a') :
    ∃ conn, a' = a.setConn conn ∧ conn.out = a.res.conn.out := by
  rw [← serve_none] at h
  obtain ⟨conn, ha, hout⟩ := serve_ok h
  exact ⟨conn, ha, hout.trans (List.append_nil _)⟩

end Attached

namespace StreamingBodyWriter

open Attached

/-! ### A drain -/

/-- The requests of a drain: the pieces, between the lines of a chunk if there are any, and a flush. -/
def drainRequests (a : Self) (data : List Bytes) (pattern : Bytes) (splat : ℕ) : List (Option Bytes) :=
  let parts := (a.w.buffered :: (data ++ List.replicate splat pattern)).map some
  if a.res.chunked then
    some (fmtNat 16 (drainTotal a data pattern splat) ++ crlf) :: (parts ++ [some crlf, none])
  else parts ++ [none]

theorem writePieces_eq (pieces : List Bytes) : writePieces pieces = serve (pieces.map some) := by
  induction pieces with
  | nil => rfl
  | cons piece rest ih =>
      rw [writePieces, ih, List.map_cons, ← List.singleton_append, serve_append, serve_some]

theorem writeParts_eq (pending : Bytes) (data : List Bytes) (pattern : Bytes) (splat : ℕ) :
    writeParts pending data pattern splat =
      serve ((pending :: (data ++ List.replicate splat pattern)).map some) := by
  unfold writeParts
  rw [writePieces_eq, writePieces_eq, ← serve_append, ← serve_some pending, ← serve_append,
    List.map_cons, List.map_append]
  rfl

theorem writeFramed_eq (a : Self) (data : List Bytes) (pattern : Bytes) (splat : ℕ) :
    writeFramed a data pattern splat = serve (drainRequests a data pattern splat) := by
  unfold writeFramed drainRequests
  cases a.res.chunked with
  | true =>
      simp only [if_true]
      unfold writeChunk
      rw [writeParts_eq, ← serve_some, ← serve_some crlf, ← serve_none, ← serve_append, ← serve_append,
        ← serve_append]
      rfl
  | false =>
      simp only [Bool.false_eq_true, if_false]
      unfold writeBody
      rw [writeParts_eq, ← serve_none, ← serve_append]

/-- The piece that a drain puts on the wire. -/
def drained (a : Self) (data : List Bytes) (pattern : Bytes) (splat : ℕ) : Bytes :=
  a.w.buffered ++ splatBytes data pattern splat

theorem length_drained (a : Self) (data : List Bytes) (pattern : Bytes) (splat : ℕ) :
    (drained a data pattern splat).length = drainTotal a data pattern splat := by
  unfold drained drainTotal
  rw [List.length_append, length_splatBytes]

theorem drained_ne_nil {a : Self} {data : List Bytes} {pattern : Bytes} {splat : ℕ}
    (h : drainTotal a data pattern splat ≠ 0) : drained a data pattern splat ≠ [] := by
  intro hnil
  rw [← length_drained, hnil] at h
  exact h rfl

theorem allBytes_drainRequests (a : Self) (data : List Bytes) (pattern : Bytes) (splat : ℕ) :
    Conn.allBytes (drainRequests a data pattern splat) =
      wire a.res.chunked [drained a data pattern splat] := by
  have hparts : Conn.allBytes ((a.w.buffered :: (data ++ List.replicate splat pattern)).map some) =
      drained a data pattern splat := by
    rw [Conn.allBytes_map, List.flatten_cons, List.flatten_append]
    rfl
  unfold drainRequests wire
  cases a.res.chunked with
  | true =>
      simp only [if_true]
      rw [← List.singleton_append, Conn.allBytes_append, Conn.allBytes_append, hparts,
        List.flatMap_singleton, encodeChunk, length_drained, List.append_assoc]
      show (_ ++ []) ++ (_ ++ (crlf ++ ([] ++ []))) = _
      simp
  | false =>
      simp only [Bool.false_eq_true, if_false]
      rw [Conn.allBytes_append, hparts, List.flatten_singleton]
      exact List.append_nil _

/-- The bytes that are accepted of a drain. -/
def drainAccepted (a : Self) (data : List Bytes) (pattern : Bytes) (splat : ℕ) : Bytes :=
  Conn.accepted a.res.conn.faults (drainRequests a data pattern splat)

/-- The drain is refused somewhere. -/
def drainBreaks (a : Self) (data : List Bytes) (pattern : Bytes) (splat : ℕ) : Bool :=
  Conn.breaks a.res.conn.faults (drainRequests a data pattern splat)

theorem drainAccepted_of_unbroken {a : Self} {data : List Bytes} {pattern : Bytes} {splat : ℕ}
    (h : drainBreaks a data pattern splat = false) :
    drainAccepted a data pattern splat = wire a.res.chunked [drained a data pattern splat] :=
  (Conn.accepted_of_unbroken h).trans (allBytes_drainRequests a data pattern splat)

theorem record_eq_ok {x : Act Self Unit} {a a' : Self} (h : record x a = .ok () a') : x a = .ok () a' := by
  unfold record at h
  obtain ⟨result, a₁, hattempt, h⟩ := bind_eq_ok.mp h
  cases result with
  | ok u =>
      cases h
      exact attempt_eq_ok.mp hattempt
  | error e => cases h

theorem commit_eq_ok {x : Act Self Unit} {a a' : Self} (h : commit x a = .ok () a') : x a = .ok () a' := by
  unfold commit at h
  obtain ⟨result, a₁, hattempt, h⟩ := bind_eq_ok.mp h
  cases result with
  | ok u =>
      cases h
      exact record_eq_ok (attempt_eq_ok.mp hattempt)
  | error e => cases h

theorem record_error {x : Act Self Unit} {a a' : Self} (h : x a = .error (.err .writeFailed) a') :
    ∃ cause, record x a = .error (.err .writeFailed) { a' with w := { a'.w with err := some cause } } := by
  unfold record
  rw [bind_ok (attempt_error h)]
  simp only
  rw [bind_ok (get_run _)]
  exact ⟨_, rfl⟩

/-- **Every way a drain ends**: there is nothing to drain, or nothing is sent for a HEAD, or one piece is sent
and accounted for, or a part of it is accepted and nothing is accounted for. -/
theorem drain_cases (data : List Bytes) (pattern : Bytes) (splat : ℕ) (a : Self) :
    (drainTotal a data pattern splat = 0 ∧ drain data pattern splat a = .ok () a) ∨
    (drainTotal a data pattern splat ≠ 0 ∧ a.res.head = true ∧
      drain data pattern splat a = .ok () (consume (drainTotal a data pattern splat) a)) ∨
    (drainTotal a data pattern splat ≠ 0 ∧ a.res.head = false ∧ drainBreaks a data pattern splat = false ∧
      ∃ conn, drain data pattern splat a =
          .ok () (consume (drainTotal a data pattern splat) (a.setConn conn)) ∧
        conn.out = a.res.conn.out ++ wire a.res.chunked [drained a data pattern splat]) ∨
    (drainTotal a data pattern splat ≠ 0 ∧ a.res.head = false ∧ drainBreaks a data pattern splat = true ∧
      ∃ conn cause, drain data pattern splat a = .error (.err .writeFailed)
          ⟨a.res.setConn conn, { a.w with err := some cause }⟩ ∧
        conn.out = a.res.conn.out ++ drainAccepted a data pattern splat) := by
  unfold drain
  rw [bind_ok (get_run a)]
  by_cases hzero : drainTotal a data pattern splat = 0
  · rw [if_pos hzero]
    exact .inl ⟨hzero, rfl⟩
  rw [if_neg hzero]
  cases hhead : a.res.head with
  | true => exact .inr (.inl ⟨hzero, rfl, rfl⟩)
  | false =>
      rw [if_neg Bool.false_ne_true, writeFramed_eq]
      rcases serve_cases (drainRequests a data pattern splat) a with
        ⟨hall, conn, hrun, hout⟩ | ⟨hnot, conn, hrun, hout⟩
      · rw [allBytes_drainRequests] at hout
        refine .inr (.inr (.inl ⟨hzero, rfl, hall, conn, ?_, hout⟩))
        rw [bind_ok (record_ok hrun)]
        rfl
      · obtain ⟨cause, hrecord⟩ := record_error hrun
        exact .inr (.inr (.inr ⟨hzero, rfl, hnot, conn, cause, bind_error hrecord, hout⟩))

/-- The drain that a call makes, if it makes one. -/
def WriteOp.drains (op : WriteOp) (a : Self) : Option (List Bytes × Bytes × ℕ) :=
  match op with
  | .write bytes =>
      if bytes.length ≠ 0 ∧ drainTotal a [] bytes 1 > a.w.cap then some ([], bytes, 1) else none
  | .splat data pattern n =>
      if drainTotal a data pattern n > a.w.cap then some (data, pattern, n) else none
  | .flush => if a.w.buffered.length ≠ 0 then some ([], [], 1) else none

/-- A call that drains nothing changes nothing but the buffer. -/
theorem WriteOp.exec_keeps {op : WriteOp} {a : Self} (h : op.drains a = none) :
    ∃ buffered, op.exec a = .ok () ⟨a.res, { a.w with buffered := buffered }⟩ := by
  cases op with
  | write bytes =>
      unfold WriteOp.drains at h
      simp only [ite_eq_right_iff, reduceCtorEq, imp_false, not_and, not_lt] at h
      show ∃ buffered, StreamingBodyWriter.writeAll bytes a = _
      unfold StreamingBodyWriter.writeAll
      by_cases hempty : bytes.length = 0
      · rw [if_pos hempty]
        exact ⟨a.w.buffered, rfl⟩
      · rw [if_neg hempty]
        unfold writeSplatAll
        rw [bind_ok (get_run a), if_neg (Nat.not_lt.mpr (h hempty))]
        exact ⟨_, rfl⟩
  | splat data pattern n =>
      unfold WriteOp.drains at h
      simp only [ite_eq_right_iff, reduceCtorEq, imp_false, not_lt] at h
      show ∃ buffered, writeSplatAll data pattern n a = _
      unfold writeSplatAll
      rw [bind_ok (get_run a), if_neg (Nat.not_lt.mpr h)]
      exact ⟨_, rfl⟩
  | flush =>
      unfold WriteOp.drains at h
      simp only [ite_eq_right_iff, reduceCtorEq, imp_false, not_not] at h
      show ∃ buffered, StreamingBodyWriter.flush a = _
      unfold StreamingBodyWriter.flush
      rw [bind_ok (get_run a), h]
      exact ⟨a.w.buffered, rfl⟩

theorem WriteOp.exec_drains {op : WriteOp} {a : Self} {data : List Bytes} {pattern : Bytes} {splat : ℕ}
    (h : op.drains a = some (data, pattern, splat)) : op.exec a = drain data pattern splat a := by
  cases op with
  | write given =>
      unfold WriteOp.drains at h
      simp only at h
      split at h
      · next hfull =>
          cases h
          show StreamingBodyWriter.writeAll _ a = _
          unfold StreamingBodyWriter.writeAll StreamingBodyWriter.writeSplatAll
          rw [if_neg hfull.1, bind_ok (get_run a), if_pos hfull.2]
      · cases h
  | splat data' pattern' n =>
      unfold WriteOp.drains at h
      simp only at h
      split at h
      · next hfull =>
          cases h
          show writeSplatAll _ _ _ a = _
          unfold writeSplatAll
          rw [bind_ok (get_run a), if_pos hfull]
      · cases h
  | flush =>
      unfold WriteOp.drains at h
      simp only at h
      split at h
      · next hsome =>
          cases h
          show StreamingBodyWriter.flush a = _
          unfold StreamingBodyWriter.flush
          rw [bind_ok (get_run a), bne_iff_ne.mpr hsome, when_true]
      · cases h

end StreamingBodyWriter
end Dusty
