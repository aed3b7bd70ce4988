import Dusty.Answered
import Dusty.DrainLimit
import Dusty.Rounds

/-! # Requests and their answers

On a transport that works, every request whose head was parsed is answered exactly if its response can be
completed by the last `write` (`request_answered_iff`), and the responses of a connection stand one behind the other,
in the order of the requests (`responses_in_order`).  `round_error` lists the ways a request can end the connection
without an answer. -/

namespace Dusty

open Act

namespace Conn

/-- The transport works, and was not handed more than was written. -/
structure Works (c : Conn) : Prop where
  faults : c.faults = []
  flushed : c.flushed ≤ c.out.length

/-- Something was added, on a transport that works. -/
structure Grown (before : List (Part × Bytes)) (c : Conn) : Prop extends Works c where
  log : before <+: c.log

theorem grown_writeAll (before : List (Part × Bytes)) (part : Part) (bytes : Bytes) :
    Keeps (Grown before) (writeAll part bytes) := by
  intro c hc
  rw [writeAll_run hc.faults]
  have hg := Response.grows_wrote hc.faults hc.flushed part bytes
  exact ⟨⟨hg.faults, hg.bound⟩, hc.log.trans (List.prefix_append _ _)⟩

theorem grown_flush (before : List (Part × Bytes)) : Keeps (Grown before) flush := by
  intro c hc
  rw [flush_run hc.faults]
  exact ⟨⟨hc.faults, Nat.le_refl _⟩, hc.log⟩

end Conn

namespace Response

theorem rides_tracked (before : List (Part × Bytes)) : Rides (Tracked before) where
  toKept := kept_tracked before
  streams r hr := hr.streaming r.keepalive
  frame bytes := tracked_emit .frame bytes

theorem Underway.works {before : List (Part × Bytes)} {r : Response} (h : Underway before r) : r.conn.Works :=
  ⟨h.faults, h.flushed⟩

/-- Nothing was sent of a response that was not begun. -/
theorem tracked_fresh {r : Response} (h : r.conn.Works) (hvalid : HeadersValid r.headers)
    (hopen : r.headersWritten = false) (hwritten : r.written = false) : Tracked r.conn.log r := by
  refine ⟨⟨h.faults, hvalid, h.flushed, [], (List.append_nil _).symm, fun _ => rfl, fun hw => ?_⟩, fun hw => ?_⟩
  · cases hopen.symm.trans hw
  · cases hwritten.symm.trans hw

/-- The last `write` adds to what was written, and leaves a transport that works. -/
theorem keeps_write_grown (before : List (Part × Bytes)) : Keeps (fun r => r.conn.Grown before) write :=
  keeps_write_conn (fun part _ bytes => Conn.grown_writeAll before part bytes) (Conn.grown_flush before)

theorem keeps_write_works : Keeps (fun r => r.conn.Works) write :=
  (keeps_write_grown []).weaken (fun _ hr => ⟨hr, List.nil_prefix⟩) (fun _ _ hr => hr.toWorks) fun _ _ hr => hr.toWorks

end Response

namespace Exchange

open Response HandlerState

variable {L : Llhttp} {H M : Type} {server : Server H M} {requestCount : ℕ} {app : Option H → List M → Visit}

theorem carried_tracked (before : List (Part × Bytes)) : Carried (fun _ => True) fun _ => Tracked before where
  rides _ := rides_tracked before
  tell := ((tracked_interim interim).bind fun _ => tracked_flush).weaken (fun _ hr => hr.1) (fun _ _ hr => hr)
    fun _ _ hr => hr

theorem begin_tracked (config : ServerConfig) {self : Exchange L} (h : self.res.conn.Works) :
    Tracked self.res.conn.log (begin config self).res :=
  @tracked_fresh (begin config self).res h (.init _) rfl rfl

/-- **Whatever a handler did**, what was sent of the response is well formed when the last `write` is called. -/
theorem prepare_tracked {self : Exchange L} (h : self.res.conn.Works) : Tracked self.res.conn.log
    (final (prepare server requestCount app) (opening server.config self)).res :=
  (prepare_holds (carried_tracked self.res.conn.log)
    (holds_opening server.config self (begin_tracked server.config h))
    fun _ _ _ => allReady_of_forall (fun _ => trivial) _ _).1.1

/-- The reply to an unknown expectation is complete. -/
theorem refuse_answered (config : ServerConfig) {self : Exchange L} (h : self.res.conn.Works) :
    ∃ refused, refuse (begin config self) = .ok () refused ∧ Answered self.res.conn.log refused.res := by
  let res : Response := { (begin config self).res with status := .expectationFailed, keepalive := false }
  have htracked : Tracked self.res.conn.log res := @tracked_fresh res h (.init _) rfl rfl
  have hbody : (if res.head then [] else res.bodyBytes) = [] := by
    rw [show res.bodyBytes = [] from rfl, ite_self]
  have hmeasured : Measured (res.setHeaders res.headers).fieldLines 0 := by
    rw [show (res.setHeaders res.headers).fieldLines = [ascii "Connection: close", ascii "Content-Length: 0"] from rfl]
    decide
  obtain ⟨r', hrun, hsends, hhanded⟩ := @write_opens _ res htracked rfl rfl res.headers rfl
  rw [hbody] at hsends
  have hanswered := (hsends.answered_iff hhanded).mpr (whole_empty hmeasured)
  let told : Exchange L := (begin config self).setState ((begin config self).st.setRes res)
  refine ⟨told.setState (told.st.setRes r'), ?_, hanswered⟩
  unfold refuse
  rw [bind_ok (onRes_ok (modify_run _ _))]
  show onRes Response.write told = _
  exact onRes_ok hrun

/-- One round: the response is complete if the last `write` could complete it, or if the handler failed behind a
response that was complete before. -/
theorem serve_answered_iff {self : Exchange L} (h : self.res.conn.Works) :
    Answered self.res.conn.log (final (serve server requestCount app) self).res ↔
      expectsUnknown self.request = true ∨
      (∃ ready, prepare server requestCount app (opening server.config self) = .ok () ready ∧
        Completable self.res.conn.log ready.res) ∨
      ∃ f failed, prepare server requestCount app (opening server.config self) = .error f failed ∧
        Answered self.res.conn.log failed.res := by
  rw [final_serve]
  cases hknown : expectsUnknown self.request with
  | true =>
      obtain ⟨refused, hrefuse, hanswered⟩ := refuse_answered server.config h
      rw [if_pos rfl, final_bind_ok hrefuse]
      exact iff_of_true hanswered (.inl rfl)
  | false =>
      rw [if_neg (by decide)]
      have htracked : Tracked _ (final (prepare server requestCount app) _).res := prepare_tracked h
      cases hprepare : prepare server requestCount app (opening server.config self) with
      | ok u ready =>
          rw [final_of_ok hprepare] at htracked
          rw [final_bind_ok hprepare, final_write_goRound, write_answers_iff htracked]
          constructor
          · exact fun hc => .inr (.inl ⟨ready, rfl, hc⟩)
          · rintro (hunknown | ⟨ready', hready, hc⟩ | ⟨f, failed, hfailed, -⟩)
            · cases hunknown
            · cases hready
              exact hc
            · cases hfailed
      | error f failed =>
          rw [final_of_error (bind_error hprepare)]
          constructor
          · exact fun hanswered => .inr (.inr ⟨f, failed, rfl, hanswered⟩)
          · rintro (hunknown | ⟨ready', hready, -⟩ | ⟨f', failed', hfailed, hanswered⟩)
            · cases hunknown
            · cases hready
            · cases hfailed
              exact hanswered

/-! ### In every round -/

theorem serve_works : Keeps (fun self : Exchange L => self.res.conn.Works) (serve server requestCount app) :=
  keeps_iff_final.mpr fun self h =>
    serve_holds (carried_tracked self.res.conn.log) (fun _ _ hr => hr.toUnderway.works) keeps_write_works
      (fun _ => begin_tracked server.config h) fun _ _ _ => allReady_of_forall (fun _ => trivial) _ _

theorem Reached.works {start self : Exchange L} {apps : List (Option H → List M → Visit)}
    (h : Reached server start apps self) (hstart : start.res.conn.Works) : self.res.conn.Works :=
  h.invariant hstart (awaitRequest_st fun st => st.res.conn.Works) (fun _ _ => serve_works)
    (awaitNext_st (fun st => st.res.conn.Works) _)

theorem Reached.parsed_works {start self parsed : Exchange L} {apps : List (Option H → List M → Visit)}
    (h : Reached server start apps self) (hstart : start.res.conn.Works)
    (hparsed : awaitRequest self = .ok true parsed) : parsed.res.conn.Works :=
  (awaitRequest_st fun st => st.res.conn.Works).ok (h.works hstart) hparsed

/-- **When a request is answered.**  In every round of a connection whose transport works, a request whose head was
parsed gets a complete response exactly if its expectation is unknown, if the last `write` is reached and can complete
the response, or if what failed before failed behind a complete response. -/
theorem request_answered_iff {start self parsed : Exchange L} {apps : List (Option H → List M → Visit)}
    (app : Option H → List M → Visit) (h : Reached server start apps self) (hstart : start.res.conn.Works)
    (hparsed : awaitRequest self = .ok true parsed) :
    Answered parsed.res.conn.log (final (serve server (apps.length + 1) app) parsed).res ↔
      expectsUnknown parsed.request = true ∨
      (∃ ready, prepare server (apps.length + 1) app (opening server.config parsed) = .ok () ready ∧
        Completable parsed.res.conn.log ready.res) ∨
      ∃ f failed, prepare server (apps.length + 1) app (opening server.config parsed) = .error f failed ∧
        Answered parsed.res.conn.log failed.res :=
  serve_answered_iff (h.parsed_works hstart hparsed)

/-- A connection with two requests; the query of the second one cannot be decoded. -/
def twoRequests : Exchange (Http1.llhttp false) :=
  accept {} { chunks := [ascii "GET / HTTP/1.1\r\n\r\n", ascii "GET /?q=%zz HTTP/1.1\r\n\r\n"] } {}

/-- A server without routes. -/
def bare : Server Unit Unit := ⟨{}, Router.init, []⟩

/-- The application does nothing. -/
def idle : Option Unit → List Unit → Visit := fun _ _ => { steps := [] }

theorem twoRequests_works : twoRequests.res.conn.Works := ⟨rfl, Nat.le_refl _⟩

theorem request_answered_sample : ∃ parsed, awaitRequest twoRequests = .ok true parsed ∧
    Answered parsed.res.conn.log (final (serve bare 1 idle) parsed).res := by
  have hrun : yields (fun more parsed => more && yields (fun _ ready => !ready.res.headersWritten &&
      !ready.res.written && !ready.res.chunked && ready.res.contentType.isNone &&
      decide (ready.res.Whole ready.res.status (ready.res.setHeaders ready.res.headers).fieldLines
        (if ready.res.head then [] else ready.res.bodyBytes)))
      (prepare bare 1 idle) (opening {} parsed)) awaitRequest twoRequests = true := by
    decide +kernel
  obtain ⟨more, parsed, hparsed, hrun⟩ := yields_iff.mp hrun
  rw [Bool.and_eq_true] at hrun
  obtain ⟨rfl, hrun⟩ := hrun
  obtain ⟨_, ready, hready, hopen⟩ := yields_iff.mp hrun
  simp only [Bool.and_eq_true, Bool.not_eq_true', Option.isNone_iff_eq_none, decide_eq_true_eq] at hopen
  obtain ⟨⟨⟨⟨hw, hwritten⟩, hchunked⟩, htype⟩, hwhole⟩ := hopen
  have hsettled : ready.res.settledHeaders = .ok ready.res.headers := by
    unfold settledHeaders
    rw [htype]
  have hcompletable : Completable parsed.res.conn.log ready.res :=
    ⟨fun _ => ⟨hchunked, ready.res.headers, hsettled, hwhole⟩, fun hsent => absurd hsent (by simp [hw]),
      fun hsent => absurd hsent (by simp [hwritten])⟩
  refine ⟨parsed, hparsed, (request_answered_iff idle .start twoRequests_works hparsed).mpr (.inr (.inl ?_))⟩
  exact ⟨ready, hready, hcompletable⟩

/-! ### Without an answer -/

/-- The error that takes the place of a handler's: the cause of a failed transport. -/
def named (self : Exchange L) : Error → Error
  | .readFailed => self.inbound.getReadError.getD .readFailed
  | .writeFailed => self.res.conn.getWriteError.getD .writeFailed
  | e => e

/-- Why a request is given up, with which error, and what is left then. -/
inductive GivesUp (server : Server H M) (requestCount : ℕ) (app : Option H → List M → Visit) (self : Exchange L) :
    Error → Exchange L → Prop
  /-- The route was not found out, and nothing was sent. -/
  | unrouted {e : Error} {failed : Exchange L} (route : chooseRoute server requestCount (opening server.config self) =
      .error (.err e) failed) (silent : failed.res.conn.log = self.res.conn.log) :
      GivesUp server requestCount app self e failed
  /-- The handler returned an error behind which nothing can be sent, or behind the headers. -/
  | handler {outcome : Error} {routed ended : Exchange L} {found : Option (Route H M)}
      {results : List (Except Error Unit)} (route : chooseRoute server requestCount (opening server.config self) =
      .ok found routed) (steps : performAll (visit server app found).steps routed = .ok results ended)
      (returns : (visit server app found).outcome = some outcome)
      (late : Executor.isTransport outcome = true ∨ ended.res.headersWritten = true) :
      GivesUp server requestCount app self (ended.named outcome) ended
  /-- The handler left some of the body, and reading it away was canceled. -/
  | canceled {failed routed executed : Exchange L} {found : Option (Route H M)} {limit : ℕ} {cause : Error}
      (route : chooseRoute server requestCount (opening server.config self) = .ok found routed)
      (executes : execute (visit server app found).steps (visit server app found).outcome routed = .ok () executed)
      (unread : executed.inbound.parser.isBodyComplete = false)
      (plan : drainPlan server.config.request executed.request = .read limit)
      (reads : onInbound (Inbound.discardShort .request 4096 limit) executed = .error (.err cause) failed)
      (canceled : failed.inbound.getReadError = some .canceled) :
      GivesUp server requestCount app self .canceled failed
  /-- The header block cannot be put together, and nothing more was sent. -/
  | unwritable {e : Error} {failed ready : Exchange L}
      (prepared : prepare server requestCount app (opening server.config self) = .ok () ready)
      (headers : ready.res.headersWritten = false) (refused : ready.res.settledHeaders = .error e)
      (silent : failed.res.conn = ready.res.conn) :
      GivesUp server requestCount app self e failed

theorem nameCause_ok {α : Type} {x : Act (Exchange L) α} {self self' : Exchange L} {a : α}
    (h : nameCause x self = .ok a self') : x self = .ok a self' := by
  obtain ⟨result, s, hattempt, hrest⟩ := bind_eq_ok.mp h
  cases result with
  | ok b =>
      cases hrest
      exact attempt_eq_ok.mp hattempt
  | error cause =>
      dsimp only at hrest
      rw [bind_ok (get_run s)] at hrest
      cases hrest

theorem nameCause_error {α : Type} {x : Act (Exchange L) α} {self failed : Exchange L} {e : Error}
    (h : nameCause x self = .error (.err e) failed) :
    ∃ cause, x self = .error (.err cause) failed ∧ e = failed.named cause := by
  unfold nameCause at h
  rcases bind_eq_error.mp h with h | ⟨result, s, hattempt, h⟩
  · exact absurd h (spares_attempt x e self failed)
  · cases result with
    | ok a => cases h
    | error cause =>
        dsimp only at h
        rw [bind_ok (get_run s)] at h
        cases h
        refine ⟨cause, attempt_eq_error.mp hattempt, ?_⟩
        cases cause <;> rfl

theorem spares_performAll (e : Error) : ∀ steps : List Step, Spares (.err e) (performAll (L := L) steps)
  | [] => spares_pure _
  | _ :: rest => (spares_attempt _ e).bind fun _ => (spares_performAll e rest).bind fun _ => spares_pure _

/-- A handler's outcome is passed on as it is where nothing else can be sent. -/
theorem conclude_error {outcome : Option Error} {self failed : Exchange L} {e : Error}
    (h : onState (Executor.conclude outcome) self = .error (.err e) failed) :
    outcome = some e ∧ failed = self ∧ (Executor.isTransport e = true ∨ self.res.headersWritten = true) := by
  have hreset : Spares (.err e) Executor.handleError := by
    refine Spares.bind (Spares.bind spares_get fun r => ?_) fun _ => spares_modify _
    exact (spares_assert (fun h => by cases h) _).bind fun _ => (spares_modify _).bind fun _ => spares_modify _
  cases outcome with
  | none => cases h
  | some err =>
      unfold onState zoom Executor.conclude at h
      dsimp only at h
      cases htransport : Executor.isTransport err with
      | true =>
          rw [htransport, if_pos rfl] at h
          cases h
          exact ⟨rfl, rfl, .inl htransport⟩
      | false =>
          rw [htransport, if_neg Bool.false_ne_true, bind_ok (get_run _)] at h
          cases hwritten : self.res.headersWritten with
          | true =>
              rw [if_pos (show self.st.res.headersWritten = true from hwritten)] at h
              cases h
              exact ⟨rfl, rfl, .inr rfl⟩
          | false =>
              have hopen : ¬self.st.res.headersWritten = true :=
                fun hsent => absurd (hwritten.symm.trans hsent) Bool.false_ne_true
              rw [if_neg hopen] at h
              unfold HandlerState.onRes zoom at h
              cases hhandle : Executor.handleError self.st.res with
              | ok a r =>
                  rw [hhandle] at h
                  cases h
              | error f r =>
                  rw [hhandle] at h
                  cases h
                  exact absurd hhandle (hreset _ _)

theorem keeps_onRequest_st {α : Type} (P : HandlerState → Prop) (x : Act Request α) :
    Keeps (fun self : Exchange L => P self.st) (onRequest x) :=
  keeps_zoom fun self hself request _ => by
    cases x request <;> exact hself

theorem chooseRoute_log (log : List (Part × Bytes)) :
    Keeps (fun self : Exchange L => self.res.conn.log = log) (chooseRoute server requestCount) := by
  have hlost : Keeps (fun self : Exchange L => self.res.conn.log = log) noKeepalive :=
    keeps_onRes_res (P := fun r => r.conn.log = log) (keeps_modify fun _ hr => hr)
  exact Keeps.bind (keeps_get_bind fun _ _ => hlost.when _) fun _ => keeps_onRequest_st (fun st => st.res.conn.log = log) _

theorem spares_noKeepalive (e : Error) : Spares (.err e) (noKeepalive (L := L)) := by
  intro self s h
  obtain ⟨self', hrun, -⟩ := noKeepalive_lost self
  cases hrun.symm.trans h

theorem drain_error {config : RequestConfig} {self failed : Exchange L} {e : Error}
    (h : drain config self = .error (.err e) failed) :
    e = .canceled ∧ self.inbound.parser.isBodyComplete = false ∧ ∃ limit cause,
      drainPlan config self.request = .read limit ∧
      onInbound (Inbound.discardShort .request 4096 limit) self = .error (.err cause) failed ∧
      failed.inbound.getReadError = some .canceled := by
  cases hcomplete : self.inbound.parser.isBodyComplete with
  | true =>
      unfold drain at h
      rw [bind_ok (get_run self), if_pos hcomplete] at h
      cases h
  | false =>
      rw [drain_eq config hcomplete] at h
      cases hplan : drainPlan config self.request with
      | close =>
          rw [hplan] at h
          exact absurd h (spares_noKeepalive e self failed)
      | overflow =>
          rw [hplan] at h
          cases h
      | read limit =>
          rw [hplan] at h
          rcases bind_eq_error.mp h with h | ⟨result, s, hattempt, h⟩
          · exact absurd h (spares_attempt _ e self failed)
          · cases result with
            | ok consumed =>
                dsimp only at h
                exact absurd h ((spares_noKeepalive e).when _ s failed)
            | error cause =>
                dsimp only at h
                rw [bind_ok (get_run s)] at h
                split at h
                next hcanceled =>
                  cases h
                  exact ⟨rfl, rfl, limit, cause, rfl, attempt_eq_error.mp hattempt, hcanceled⟩
                next => exact absurd h (spares_noKeepalive e s failed)

theorem goRound_spares (e : Error) : Spares (.err e) (goRound (L := L)) := by
  intro self s h
  unfold goRound at h
  rw [bind_ok (get_run self)] at h
  split at h
  · cases h
  · rw [bind_ok (modify_run ..), bind_ok (get_run _)] at h
    cases h

/-- **Why a request gets no answer.**  In every round of a connection whose transport works, the request is given up
for one of four reasons: it cannot be routed, the handler's error comes too late for a reply, reading what is left of
the body is canceled, or the header block cannot be put together. -/
theorem round_error {start self parsed failed : Exchange L} {apps : List (Option H → List M → Visit)} {e : Error}
    (h : Reached server start apps self) (hstart : start.res.conn.Works) (hparsed : awaitRequest self = .ok true parsed)
    (hrun : serve server (apps.length + 1) app parsed = .error (.err e) failed) :
    GivesUp server (apps.length + 1) app parsed e failed ∧
      ∀ rest, handleRequests server 0 (apps ++ app :: rest) start = .error (.err e) failed := by
  have hends : ∀ rest, handleRequests server 0 (apps ++ app :: rest) start = .error (.err e) failed := by
    intro rest
    rw [h.loop, handleRequests, bind_ok hparsed, if_neg (by decide), bind_error hrun]
  refine ⟨?_, hends⟩
  have hworks := h.parsed_works hstart hparsed
  rw [serve_eq] at hrun
  cases hknown : expectsUnknown parsed.request with
  | true =>
      obtain ⟨refused, hrefuse, -⟩ := refuse_answered server.config hworks
      rw [hknown, if_pos rfl, bind_ok hrefuse] at hrun
      cases hrun
  | false =>
      have htracked : Tracked _ (final (prepare server (apps.length + 1) app) _).res := prepare_tracked hworks
      rw [hknown, if_neg (by decide)] at hrun
      rcases bind_eq_error.mp hrun with hprepare | ⟨_, ready, hprepare, hrest⟩
      · rcases bind_eq_error.mp hprepare with hroute | ⟨found, routed, hroute, hhandle⟩
        · refine .unrouted hroute ((chooseRoute_log parsed.res.conn.log).error ?_ hroute)
          show (opening server.config parsed).st.res.conn.log = _
          rw [opening_st]
          rfl
        · rcases bind_eq_error.mp hhandle with hexecute | ⟨_, executed, hexecute, hdrain⟩
          · obtain ⟨outcome, hfailed, rfl⟩ := nameCause_error hexecute
            rcases bind_eq_error.mp hfailed with hsteps | ⟨results, ended, hsteps, hconclude⟩
            · exact absurd hsteps (spares_performAll outcome _ _ _)
            · obtain ⟨houtcome, rfl, hlate⟩ := conclude_error hconclude
              exact .handler hroute hsteps houtcome hlate
          · rcases bind_eq_error.mp hdrain with hdrain | ⟨_, drained, -, hclose⟩
            · obtain ⟨rfl, hunread, limit, cause, hplan, hreads, hcanceled⟩ := drain_error hdrain
              exact .canceled hroute (nameCause_ok hexecute) hunread hplan hreads hcanceled
            · exact absurd hclose ((spares_noKeepalive e).when _ drained failed)
      · rw [final_of_ok hprepare] at htracked
        rcases bind_eq_error.mp hrest with hwrite | ⟨_, written, -, hround⟩
        · cases hres : write ready.res with
          | ok u r =>
              rw [onRes_ok hres] at hwrite
              cases hwrite
          | error f r =>
              rw [onRes_error hres] at hwrite
              cases hwrite
              obtain ⟨hopen, hconn, cause, hcause, hrefused⟩ := write_error htracked hres
              cases hcause
              exact .unwritable hprepare hopen hrefused hconn
        · exact absurd hround (goRound_spares e written failed)

/-- Behind the first request the loop parses the second one, which fails. -/
theorem twoRequests_reached : ∃ self parsed failed e, Reached bare twoRequests [idle] self ∧
    awaitRequest self = .ok true parsed ∧ serve bare 2 idle parsed = .error (.err e) failed := by
  have hrun : yields (fun more first => more && yields (fun next served => decide (next = .again) &&
      yields (fun more self => more && yields (fun more parsed => more &&
        yields (fun result _ => result.toOption.isNone) (attempt (serve bare 2 idle)) parsed)
      awaitRequest self) (awaitNext {}) served) (serve bare 1 idle) first) awaitRequest twoRequests = true := by
    decide +kernel
  obtain ⟨more, first, hfirst, hrun⟩ := yields_iff.mp hrun
  obtain ⟨rfl, hrun⟩ := Bool.and_eq_true_iff.mp hrun
  obtain ⟨next, served, hserved, hrun⟩ := yields_iff.mp hrun
  obtain ⟨hagain, hrun⟩ := Bool.and_eq_true_iff.mp hrun
  rw [of_decide_eq_true hagain] at hserved
  obtain ⟨more, self, hwait, hrun⟩ := yields_iff.mp hrun
  obtain ⟨rfl, hrun⟩ := Bool.and_eq_true_iff.mp hrun
  obtain ⟨more, parsed, hparsed, hrun⟩ := yields_iff.mp hrun
  obtain ⟨rfl, hrun⟩ := Bool.and_eq_true_iff.mp hrun
  obtain ⟨result, failed, hattempt, hnone⟩ := yields_iff.mp hrun
  cases result with
  | ok next => cases hnone
  | error e => exact ⟨self, parsed, failed, e, .round .start hfirst hserved hwait, hparsed, attempt_eq_error.mp hattempt⟩

theorem round_error_sample : ∃ self parsed failed e, Reached bare twoRequests [idle] self ∧
    awaitRequest self = .ok true parsed ∧ GivesUp bare 2 idle parsed e failed ∧
      ∀ rest, handleRequests bare 0 ([idle] ++ idle :: rest) twoRequests = .error (.err e) failed := by
  obtain ⟨self, parsed, failed, e, hreached, hparsed, hrun⟩ := twoRequests_reached
  exact ⟨self, parsed, failed, e, hreached, hparsed, round_error hreached twoRequests_works hparsed hrun⟩

/-! ### One response behind the other -/

/-- The responses of so many rounds, as they are when the last `write` is called. -/
def responses (server : Server H M) : ℕ → List (Option H → List M → Visit) → Exchange L → List Response
  | _, [], _ => []
  | requestCount, app :: apps, self =>
      let parsed := final awaitRequest self
      (final (prepare server (requestCount + 1) app) (opening server.config parsed)).res ::
        responses server (requestCount + 1) apps
          (final (awaitNext server.config.request) (final (serve server (requestCount + 1) app) parsed))

/-- Behind `log` stands what was sent of each response, one behind the other.  It is complete exactly if the last
`write` could complete it. -/
def Consecutive (log : List (Part × Bytes)) : List Response → List (Part × Bytes) → Prop
  | [], log' => log' = log
  | ready :: rest, log' =>
      (Tracked log ready ∧ log <+: (final write ready).conn.log) ∧
        (Answered log (final write ready) ↔ Completable log ready) ∧ Consecutive (final write ready).conn.log rest log'

theorem Consecutive.snoc {ready : Response} {rest : List Response} {log log' : List (Part × Bytes)}
    (h : Consecutive log rest log') (htracked : Tracked log' ready) :
    Consecutive log (rest ++ [ready]) (final write ready).conn.log := by
  induction rest generalizing log with
  | nil =>
      obtain rfl : log' = log := h
      have hgrown : (final write ready).conn.Grown log' := by
        obtain ⟨pieces, hlog, -⟩ := htracked.shows
        exact keeps_iff_final.mp (keeps_write_grown log') ready ⟨htracked.toUnderway.works, hlog ▸ List.prefix_append _ _⟩
      exact ⟨⟨htracked, hgrown.log⟩, write_answers_iff htracked, rfl⟩
  | cons first rest ih => exact ⟨h.1, h.2.1, ih h.2.2⟩

/-- The responses of more rounds are those of the rounds that follow. -/
theorem Reached.responses {start self : Exchange L} {apps : List (Option H → List M → Visit)}
    (h : Reached server start apps self) (rest : List (Option H → List M → Visit)) :
    responses server 0 (apps ++ rest) start = responses server 0 apps start ++ responses server apps.length rest self := by
  induction h generalizing rest with
  | start => rfl
  | @round apps app self parsed served next _ hparse hserve hwait ih =>
      rw [List.append_assoc, ih, ih, List.length_append, List.append_assoc]
      congr 1
      show Exchange.responses server apps.length (app :: rest) self = _
      rw [Exchange.responses, Exchange.responses, final_of_ok hparse, final_of_ok hserve, final_of_ok hwait]
      rfl

theorem again_res {self served : Exchange L} (h : serve server requestCount app self = .ok .again served) :
    served.res = final write (final (prepare server requestCount app) (opening server.config self)).res := by
  rw [serve_eq] at h
  cases hknown : expectsUnknown self.request with
  | true =>
      rw [hknown, if_pos rfl] at h
      obtain ⟨_, refused, -, hclose⟩ := bind_eq_ok.mp h
      cases hclose
  | false =>
      rw [hknown, if_neg (by decide)] at h
      obtain ⟨_, ready, hprepare, hrest⟩ := bind_eq_ok.mp h
      rw [final_of_ok hprepare, ← final_write_goRound, final_of_ok hrest]

/-- **The responses stand in the order of the requests**: on a transport that works, what was written is a part for
each request, one behind the other, and the part is a complete response exactly if it could be completed. -/
theorem responses_in_order {start self : Exchange L} {apps : List (Option H → List M → Visit)}
    (h : Reached server start apps self) (hstart : start.res.conn.Works) :
    Consecutive start.res.conn.log (responses server 0 apps start) self.res.conn.log := by
  induction h with
  | start => rfl
  | @round apps app self parsed served next hbefore hparse hserve hwait ih =>
      have hworks := hbefore.parsed_works hstart hparse
      have hsame : parsed.res.conn.log = self.res.conn.log :=
        (awaitRequest_st fun st => st.res.conn.log = self.res.conn.log).ok rfl hparse
      have htracked : Tracked _ (final (prepare server (apps.length + 1) app) _).res := prepare_tracked hworks
      rw [hsame] at htracked
      have hlog : next.res.conn.log = served.res.conn.log :=
        (awaitNext_st (fun st => st.res.conn.log = served.res.conn.log) _).ok rfl hwait
      rw [hbefore.responses, hlog, again_res hserve]
      have hlast : responses server apps.length [app] self =
          [(final (prepare server (apps.length + 1) app) (opening server.config parsed)).res] := by
        rw [responses, responses, final_of_ok hparse]
      rw [hlast]
      exact ih.snoc htracked

theorem responses_in_order_sample : ∃ self, Reached bare twoRequests [idle] self ∧
    Consecutive twoRequests.res.conn.log (responses bare 0 [idle] twoRequests) self.res.conn.log := by
  obtain ⟨self, -, -, -, hreached, -⟩ := twoRequests_reached
  exact ⟨self, hreached, responses_in_order hreached twoRequests_works⟩

end Exchange
end Dusty
