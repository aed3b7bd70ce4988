import Dusty.RequestsAnswered
import Dusty.StatusLines

/-! # What a round writes

On any transport, a round begins at most one header block and sends at most one interim response, whatever the
handler does (`round_writes_once`).  On a transport that works, the interim response stands in front of the header
block exactly if the handler never reads the body behind the headers while the client still waits
(`interim_in_order_iff`). -/

namespace Dusty

open Act

namespace Conn

/-- The piece is an interim response. -/
def isInterim (piece : Part × Bytes) : Bool := decide (piece.1 = .interim)

/-- Nothing but interim responses stands in front of an interim response. -/
def OrderedPieces (pieces : List (Part × Bytes)) : Prop :=
  pieces.Pairwise fun p q => isInterim q = true → isInterim p = true

/-- At most `n` interim responses were sent behind `before`. -/
def Interims (before : List (Part × Bytes)) (n : ℕ) (log : List (Part × Bytes)) : Prop :=
  ∃ pieces, log = before ++ pieces ∧ pieces.countP isInterim ≤ n

/-- What was sent behind `before` begins with the interim responses. -/
def InOrder (before log : List (Part × Bytes)) : Prop := ∃ pieces, log = before ++ pieces ∧ OrderedPieces pieces

/-- An interim response was sent behind something else. -/
def Late (before log : List (Part × Bytes)) : Prop := ∃ pieces, log = before ++ pieces ∧ ¬OrderedPieces pieces

variable {before log : List (Part × Bytes)}

theorem Late.not_inOrder (h : Late before log) : ¬InOrder before log := by
  rintro ⟨pieces', hlog', hordered⟩
  obtain ⟨pieces, rfl, hnot⟩ := h
  exact hnot (List.append_cancel_left hlog' ▸ hordered)

/-! ### More pieces -/

/-- The property of a log survives a piece of the part. -/
def Survives (P : List (Part × Bytes) → Prop) (part : Part) : Prop := ∀ log bytes, P log → P (log ++ [(part, bytes)])

theorem Survives.writeAll {P : List (Part × Bytes) → Prop} {part : Part} (h : Survives P part) (bytes : Bytes) :
    Keeps (fun c => P c.log) (writeAll part bytes) := by
  refine keeps_iff_final.mpr fun c hc => ?_
  obtain ⟨taken, hlog⟩ := log_writeAll part bytes c
  rw [hlog]
  exact h _ _ hc

theorem keeps_flush_log {P : List (Part × Bytes) → Prop} : Keeps (fun c => P c.log) flush := by
  refine keeps_iff_final.mpr fun c hc => ?_
  rw [log_flush]
  exact hc

theorem interims_survives {n : ℕ} {part : Part} (h : part ≠ .interim) : Survives (Interims before n) part := by
  rintro log bytes ⟨pieces, rfl, hcount⟩
  refine ⟨pieces ++ [(part, bytes)], List.append_assoc .., ?_⟩
  rw [List.countP_append, List.countP_singleton, isInterim, decide_eq_false h]
  exact hcount

theorem Interims.interim {n : ℕ} (h : Interims before n log) (bytes : Bytes) :
    Interims before (n + 1) (log ++ [(.interim, bytes)]) := by
  obtain ⟨pieces, rfl, hcount⟩ := h
  refine ⟨pieces ++ [(.interim, bytes)], List.append_assoc .., ?_⟩
  rw [List.countP_append, List.countP_singleton]
  exact Nat.add_le_add hcount (by split <;> omega)

theorem late_survives (part : Part) : Survives (Late before) part := by
  rintro log bytes ⟨pieces, rfl, hnot⟩
  refine ⟨pieces ++ [(part, bytes)], List.append_assoc .., fun hordered => hnot ?_⟩
  exact (List.pairwise_append.mp hordered).1

end Conn

namespace Response

open Conn

/-- **A property of the log** that survives every piece but an interim response. -/
theorem rides_of_log {P : List (Part × Bytes) → Prop} (h : ∀ part, part ≠ .interim → Survives P part) :
    Rides fun r => P r.conn.log :=
  rides_of_conn (fun part hpart bytes => (h part hpart).writeAll bytes) keeps_flush_log

theorem keeps_write_log {P : List (Part × Bytes) → Prop} (h : ∀ part, part ≠ .interim → Survives P part) :
    Keeps (fun r => P r.conn.log) write :=
  keeps_write_conn (fun part hpart bytes => (h part hpart).writeAll bytes) keeps_flush_log

theorem rides_oneHead (n : ℕ) : Rides (OneHead n) where
  toKept := kept_oneHead n
  streams _ hr := hr
  frame bytes := (keeps_onConn_oneHead fun c => Conn.statusLines_writeAll_le .frame bytes c).and
    (keeps_onConn_streams _)

/-- What is sent to a client that waits leaves one interim response more. -/
theorem tell_log {P Q : List (Part × Bytes) → Prop} (h : ∀ log bytes, P log → Q (log ++ [(.interim, bytes)])) :
    Triple (fun r => P r.conn.log) Exchange.tell (fun _ r => Q r.conn.log) (fun _ r => Q r.conn.log) := by
  have hwrite : Triple (fun r => P r.conn.log) (onConn (Conn.writeAll .interim Exchange.interim))
      (fun _ r => Q r.conn.log) (fun _ r => Q r.conn.log) := by
    refine triple_of_final fun r hr => ?_
    rw [final_onConn, setConn_conn]
    obtain ⟨taken, hlog⟩ := log_writeAll .interim Exchange.interim r.conn
    rw [hlog]
    exact h _ _ hr
  exact hwrite.bind fun _ => keeps_onConn keeps_flush_log

/-! ### Order -/

/-- What was sent is in order, and nothing but interim responses unless the headers were written. -/
def Announced (before : List (Part × Bytes)) (r : Response) : Prop :=
  ∃ pieces, r.conn.log = before ++ pieces ∧ OrderedPieces pieces ∧
    (r.headersWritten = false → ∀ piece ∈ pieces, isInterim piece = true)

theorem Announced.inOrder {before : List (Part × Bytes)} {r : Response} (h : Announced before r) :
    InOrder before r.conn.log := by
  obtain ⟨pieces, hlog, hordered, -⟩ := h
  exact ⟨pieces, hlog, hordered⟩

end Response

namespace Conn

variable {before : List (Part × Bytes)}

/-- A piece of the response behind what is in order. -/
theorem OrderedPieces.snoc {pieces : List (Part × Bytes)} (h : OrderedPieces pieces) {part : Part}
    (hpart : part ≠ .interim) (bytes : Bytes) : OrderedPieces (pieces ++ [(part, bytes)]) := by
  refine List.pairwise_append.mpr ⟨h, List.pairwise_singleton .., fun p _ q hq hinterim => ?_⟩
  rw [List.mem_singleton.mp hq, isInterim, decide_eq_false hpart] at hinterim
  cases hinterim

theorem inOrder_survives {part : Part} (h : part ≠ .interim) : Survives (InOrder before) part := by
  rintro log bytes ⟨pieces, rfl, hordered⟩
  exact ⟨pieces ++ [(part, bytes)], List.append_assoc .., hordered.snoc h bytes⟩

end Conn

namespace Response

open Conn

variable {before : List (Part × Bytes)}

theorem announced_write {part : Part} (h : part ≠ .interim) (bytes : Bytes) :
    Keeps (fun r => Announced before r ∧ r.headersWritten = true) (onConn (Conn.writeAll part bytes)) := by
  refine keeps_iff_final.mpr fun r hr => ?_
  obtain ⟨⟨pieces, hlog, hordered, -⟩, hw⟩ := hr
  rw [final_onConn]
  obtain ⟨taken, hmore⟩ := log_writeAll part bytes r.conn
  refine ⟨⟨pieces ++ [(part, bytes.take taken)], ?_, hordered.snoc h _, fun hopen => ?_⟩, hw⟩
  · rw [setConn_conn, hmore, hlog, List.append_assoc]
  · cases hw.symm.trans hopen

theorem announced_flush : Keeps (Announced before) (onConn Conn.flush) := by
  refine keeps_iff_final.mpr fun r hr => ?_
  obtain ⟨pieces, hlog, hrest⟩ := hr
  rw [final_onConn]
  exact ⟨pieces, by rw [setConn_conn, log_flush, hlog], hrest⟩

/-- **No operation** sends anything in front of the headers. -/
theorem rides_announced (before : List (Part × Bytes)) : Rides (Announced before) where
  toKept := by
    have hemit : ∀ bytes, Keeps (fun r => Announced before r ∧ Streams r) (onConn (Conn.writeAll .body bytes)) :=
      fun bytes => ((announced_write (by decide) bytes).and (keeps_onConn_streams _)).weaken
        (fun _ hr => ⟨⟨hr.1, hr.2.1⟩, hr.2⟩) (fun _ _ hr => ⟨hr.1.1, hr.2⟩) fun _ _ hr => ⟨hr.1.1, hr.2⟩
    refine Stable.kept ⟨?_, ?_, hemit, announced_flush.and (keeps_onConn_streams _)⟩ (fun _ hr => hr) fun _ hr _ => hr
    · rintro r r' ⟨pieces, hlog, hordered, hopen⟩ hu
      refine ⟨pieces, by rw [hu.conn]; exact hlog, hordered, fun hw => hopen ?_⟩
      exact hu.headersWritten.symm.trans hw
    · refine keeps_writeHeader_lines (fun _ _ hr => hr) ?_ fun _ => announced_write (by decide) _
      rintro r ⟨pieces, hlog, hordered, -⟩
      exact ⟨pieces, hlog, hordered, fun hw => by cases hw⟩
  streams _ hr := hr
  frame bytes := ((announced_write (by decide) bytes).and (keeps_onConn_streams _)).weaken
    (fun _ hr => ⟨⟨hr.1, hr.2.1⟩, hr.2⟩) (fun _ _ hr => ⟨hr.1.1, hr.2⟩) fun _ _ hr => ⟨hr.1.1, hr.2⟩

theorem announced_tell : Triple (fun r => Announced before r ∧ r.headersWritten = false) Exchange.tell
    (fun _ => Announced before) (fun _ => Announced before) := by
  have hwrite : Triple (fun r => Announced before r ∧ r.headersWritten = false)
      (onConn (Conn.writeAll .interim Exchange.interim)) (fun _ => Announced before) (fun _ => Announced before) := by
    refine triple_of_final ?_
    rintro r ⟨⟨pieces, hlog, hordered, hopen⟩, hw⟩
    rw [final_onConn]
    obtain ⟨taken, hmore⟩ := log_writeAll .interim Exchange.interim r.conn
    refine ⟨pieces ++ [(.interim, Exchange.interim.take taken)], ?_, ?_, fun _ piece hpiece => ?_⟩
    · rw [setConn_conn, hmore, hlog, List.append_assoc]
    · exact List.pairwise_append.mpr ⟨hordered, List.pairwise_singleton .., fun p hp _ _ _ => hopen hw p hp⟩
    · rcases List.mem_append.mp hpiece with hpiece | hpiece
      · exact hopen hw piece hpiece
      · rw [List.mem_singleton.mp hpiece]
        rfl
  exact hwrite.bind fun _ => announced_flush

end Response

namespace Exchange

open Response Conn

variable {L : Llhttp} {H M : Type} {server : Server H M} {requestCount : ℕ} {app : Option H → List M → Visit}
  {before : List (Part × Bytes)}

/-! ### Once in a round -/

theorem carried_once (n : ℕ) : Carried (fun _ => True) fun waiting r =>
    OneHead n r ∧ Interims before (!waiting).toNat r.conn.log where
  rides _ := (rides_oneHead n).and (rides_of_log fun _ hpart => interims_survives hpart)
  tell := by
    have hhead : Keeps (OneHead n) tell :=
      (keeps_onConn_oneHead fun c => statusLines_writeAll_le .interim interim c).bind fun _ => keeps_flush_oneHead n
    have hinterims := tell_log (P := Interims before 0) (Q := Interims before 1) fun _ bytes h => h.interim bytes
    exact (hhead.both hinterims).weaken (fun _ hr => hr.1) (fun _ _ hr => hr) fun _ _ hr => hr

/-- **One header block, one interim response.**  Whatever the handler does, in whatever state the connection is and
whatever the transport does, a round begins at most one header block and sends at most one interim response. -/
theorem round_writes_once (server : Server H M) (requestCount : ℕ) (app : Option H → List M → Visit)
    (self : Exchange L) :
    (final (serve server requestCount app) self).res.conn.statusLines ≤ self.res.conn.statusLines + 1 ∧
      Interims self.res.conn.log 1 (final (serve server requestCount app) self).res.conn.log := by
  have hrelax : ∀ {n : ℕ} {log : List (Part × Bytes)}, n ≤ 1 → Interims self.res.conn.log n log →
      Interims self.res.conn.log 1 log := by
    rintro n log hn ⟨pieces, hlog, hcount⟩
    exact ⟨pieces, hlog, hcount.trans hn⟩
  have hcarried : Carried (fun _ => True) fun waiting r => OneHead self.res.conn.statusLines r ∧
      Interims self.res.conn.log (!waiting).toNat r.conn.log := carried_once _
  have hround : (fun r => OneHead self.res.conn.statusLines r ∧ Interims self.res.conn.log 1 r.conn.log)
      (final (serve server requestCount app) self).res := serve_holds hcarried
    (Q := fun r => OneHead self.res.conn.statusLines r ∧ Interims self.res.conn.log 1 r.conn.log)
    (fun waiting r hr => ⟨hr.1, hrelax (Bool.toNat_le _) hr.2⟩)
    ((keeps_write_oneHead _).and (keeps_write_log fun _ hpart => interims_survives hpart))
    (fun waiting => ⟨⟨.init _, Nat.le_refl _⟩, [], (List.append_nil _).symm, Nat.zero_le _⟩)
    fun _ _ _ => allReady_of_forall (fun _ => trivial) _ _
  refine ⟨hround.1.2.trans (Nat.add_le_add_left (Bool.toNat_le _) _), hround.2⟩

/-! ### The interim response in front -/

theorem carried_announced : Carried (fun r => r.headersWritten = false) fun _ => Announced before where
  rides _ := rides_announced before
  tell := announced_tell

/-- Something of the response was sent. -/
def Begun (before log : List (Part × Bytes)) : Prop :=
  ∃ pieces, log = before ++ pieces ∧ ∃ piece ∈ pieces, isInterim piece = false

theorem begun_survives (part : Part) : Survives (Begun before) part := by
  rintro log bytes ⟨pieces, rfl, piece, hpiece, hnot⟩
  exact ⟨pieces ++ [(part, bytes)], List.append_assoc .., piece, List.mem_append_left _ hpiece, hnot⟩

theorem Begun.late {log : List (Part × Bytes)} (h : Begun before log) (bytes : Bytes) :
    Late before (log ++ [(.interim, bytes)]) := by
  obtain ⟨pieces, rfl, piece, hpiece, hnot⟩ := h
  refine ⟨pieces ++ [(.interim, bytes)], List.append_assoc .., fun hordered => ?_⟩
  have hinterim := (List.pairwise_append.mp hordered).2.2 piece hpiece _ (List.mem_singleton_self _) rfl
  cases hnot.symm.trans hinterim

theorem begun_of_tracked {r : Response} (h : Tracked before r) (hw : r.headersWritten = true) :
    Begun before r.conn.log := by
  obtain ⟨pieces, hlog, -, hsent⟩ := h.shows
  obtain ⟨status, fields, body, -, hbytes, -⟩ := hsent hw
  refine ⟨pieces, hlog, ?_⟩
  by_contra hnone
  have hfilter : pieces.filter (fun piece => piece.1 ≠ .interim) = [] := by
    refine List.filter_eq_nil_iff.mpr fun piece hpiece hkeep => hnone ⟨piece, hpiece, ?_⟩
    exact decide_eq_false (by simpa using hkeep)
  have hempty : finalOf pieces = [] := by
    unfold finalOf
    rw [hfilter]
    rfl
  rw [hempty] at hbytes
  have hstatus : statusLine status = 72 :: (statusLine status).tail := rfl
  rw [headBlock, List.flatMap_cons, hstatus] at hbytes
  cases hbytes

theorem carried_late : Carried (fun _ => True) fun _ r => Late before r.conn.log where
  rides _ := rides_of_log fun part _ => late_survives part
  tell := (tell_log fun log bytes h => late_survives .interim log bytes h).weaken (fun _ hr => hr.1) (fun _ _ hr => hr)
    fun _ _ hr => hr

/-- A client that waits is told to go on behind the headers. -/
theorem carried_overtaken : Carried (fun _ => True) fun waiting r =>
    if waiting then Begun before r.conn.log else Late before r.conn.log where
  rides waiting := by
    cases waiting with
    | true => exact rides_of_log fun part _ => begun_survives part
    | false => exact rides_of_log fun part _ => late_survives part
  tell := (tell_log fun log bytes (h : Begun before log) => h.late bytes).weaken (fun _ hr => hr.1) (fun _ _ hr => hr)
    fun _ _ hr => hr

/-- **What a read behind the headers leaves**, if the client waits for the interim response. -/
theorem late_of_not_ready {steps : List Step} {self : Exchange L} (hself : Holds (fun _ => Tracked before) self)
    (hnot : ¬AllReady (fun r => r.headersWritten = false) steps self) :
    Holds (fun _ r => Late before r.conn.log) (final (performAll steps) self) := by
  induction steps generalizing self with
  | nil => exact absurd trivial hnot
  | cons step rest ih =>
      unfold performAll
      by_cases hstep : self.readsBody step = true → Ready (fun r => r.headersWritten = false) self
      · have hlater : ∃ result next, attempt (perform step) self = .ok result next ∧
            ¬AllReady (fun r => r.headersWritten = false) rest next := by
          by_contra hnone
          refine hnot ⟨hstep, fun result next hattempt => ?_⟩
          by_contra hnext
          exact hnone ⟨result, next, hattempt, hnext⟩
        obtain ⟨result, next, hattempt, hnext⟩ := hlater
        have htracked : Holds (fun _ => Tracked before) next := by
          rw [final_of_attempt hattempt]
          exact perform_holds (carried_tracked before) hself fun _ _ => trivial
        rw [final_bind_ok hattempt]
        exact final_bind_of (ih htracked hnext) fun _ => keeps_pure _
      · obtain ⟨hreads, hready⟩ := Classical.not_imp.mp hstep
        obtain ⟨hwaits, hsent⟩ := Classical.not_imp.mp hready
        have hbegun : Holds (fun waiting r => if waiting then Begun before r.conn.log else Late before r.conn.log) self := by
          refine ⟨⟨?_, hself.1.2⟩, hself.2⟩
          rw [hwaits]
          exact begun_of_tracked hself.1.1 (Bool.eq_true_of_not_eq_false hsent)
        have htold := (perform_tells carried_overtaken step).final ⟨hbegun, hreads, fun _ => trivial⟩
        have hlate : Holds (fun _ r => Late before r.conn.log) (final (perform step) self) := by
          obtain ⟨hholds, hwaits⟩ := htold
          have hres := hholds.1.1
          rw [hwaits] at hres
          exact ⟨⟨hres, hholds.1.2⟩, hholds.2⟩
        refine final_bind_of ?_ fun result => ?_
        · rw [final_attempt]
          exact hlate
        · refine Keeps.bind (keeps_iff_final.mpr fun s hs => ?_) fun _ => keeps_pure _
          exact final_performAll carried_late hs (allReady_of_forall (fun _ => trivial) _ _)

/-- **When the interim response stands in front.**  In every round of a connection whose transport works, nothing
of the response stands in front of the interim response exactly if the expectation is unknown or the handler never
reads the body behind the headers while the client still waits. -/
theorem interim_in_order_iff {start self parsed : Exchange L} {apps : List (Option H → List M → Visit)}
    (app : Option H → List M → Visit) (h : Reached server start apps self) (hstart : start.res.conn.Works)
    (hparsed : awaitRequest self = .ok true parsed) :
    InOrder parsed.res.conn.log (final (serve server (apps.length + 1) app) parsed).res.conn.log ↔
      expectsUnknown parsed.request = true ∨ ∀ found routed,
        chooseRoute server (apps.length + 1) (opening server.config parsed) = .ok found routed →
          AllReady (fun r => r.headersWritten = false) (visit server app found).steps routed := by
  have hworks := h.parsed_works hstart hparsed
  have hfresh : InOrder parsed.res.conn.log parsed.res.conn.log := ⟨[], (List.append_nil _).symm, .nil⟩
  have hwrite : ∀ {P : List (Part × Bytes) → Prop}, (∀ part, part ≠ .interim → Survives P part) →
      Keeps (fun s : Exchange L => P s.res.conn.log) (onRes Response.write) := fun hP => keeps_onRes_res (keeps_write_log hP)
  cases hknown : expectsUnknown parsed.request with
  | true =>
      refine iff_of_true ?_ (.inl rfl)
      have hrefuse : Keeps (fun s : Exchange L => InOrder parsed.res.conn.log s.res.conn.log)
          (refuse >>= fun _ => pure Next.close) :=
        Keeps.bind (Keeps.bind (keeps_onRes_res (P := fun r => InOrder parsed.res.conn.log r.conn.log)
          (keeps_modify fun _ hr => hr)) fun _ => hwrite fun _ hpart => inOrder_survives hpart) fun _ => keeps_pure _
      rw [final_serve, if_pos hknown]
      exact hrefuse.final hfresh
  | false =>
      constructor
      · intro hordered
        refine .inr fun found routed hchoose => ?_
        by_contra hnot
        have htracked : Holds (fun _ => Tracked parsed.res.conn.log) routed :=
          (chooseRoute_holds (fun _ => rides_tracked _) server _).ok
            (holds_opening server.config parsed (begin_tracked server.config hworks)) hchoose
        have hhandled : Holds (fun _ r => Late parsed.res.conn.log r.conn.log) (final (handle server app found) routed) :=
          handle_holds carried_late.rides (late_of_not_ready htracked hnot)
        have hlate : Late parsed.res.conn.log (final (serve server (apps.length + 1) app) parsed).res.conn.log := by
          rw [final_serve, if_neg (by simp [hknown])]
          refine final_bind_of (P := fun s : Exchange L => Late parsed.res.conn.log s.res.conn.log) ?_ fun _ =>
            (hwrite fun part _ => late_survives part).bind fun _ => goRound_st fun st => Late parsed.res.conn.log st.res.conn.log
          unfold prepare
          rw [final_bind_ok hchoose]
          exact hhandled.1.1
        exact hlate.not_inOrder hordered
      · rintro (hunknown | hready)
        · cases hunknown
        · exact serve_holds carried_announced (Q := fun r => InOrder parsed.res.conn.log r.conn.log)
            (fun _ _ hr => hr.inOrder) (keeps_write_log fun _ hpart => inOrder_survives hpart)
            (fun _ => ⟨[], (List.append_nil _).symm, .nil, fun _ _ hpiece => by cases hpiece⟩) hready

/-- A request whose client waits before it sends the body. -/
def expecting : Exchange (Http1.llhttp false) :=
  accept {} { chunks := [ascii "POST / HTTP/1.1\r\nExpect: 100-continue\r\nContent-Length: 5\r\n\r\n", ascii "hello"] } {}

/-- The application reads the body at once. -/
def reading : Option Unit → List Unit → Visit := fun _ _ => { steps := [.body fun _ => 5] }

theorem interim_in_order_sample : ∃ parsed, awaitRequest expecting = .ok true parsed ∧
    InOrder parsed.res.conn.log (final (serve bare 1 reading) parsed).res.conn.log := by
  have hrun : yields (fun more parsed => more && yields (fun _ routed => !routed.res.headersWritten) (chooseRoute bare 1)
      (opening {} parsed)) awaitRequest expecting = true := by
    decide +kernel
  obtain ⟨more, parsed, hparsed, hrun⟩ := yields_iff.mp hrun
  obtain ⟨rfl, hrun⟩ := Bool.and_eq_true_iff.mp hrun
  obtain ⟨found, routed, hchoose, hopen⟩ := yields_iff.mp hrun
  refine ⟨parsed, hparsed, (interim_in_order_iff reading .start ⟨rfl, Nat.le_refl _⟩ hparsed).mpr (.inr ?_)⟩
  intro found' routed' hchoose'
  cases hchoose.symm.trans hchoose'
  have hsteps : (visit bare reading found).steps = [.body fun _ => 5] := by cases found <;> rfl
  rw [hsteps]
  exact ⟨fun _ _ => by simpa using hopen, fun _ _ _ => trivial⟩

end Exchange
end Dusty
