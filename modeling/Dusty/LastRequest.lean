import Dusty.Lasting
import Dusty.RequestsAnswered

/-! # The last request of a connection

A connection is closed behind the request that is the last one it may carry: because the client says so, because the
configured number of requests is reached, or because the server is being shut down.  The loop decides the first two in
front of the handler and the third behind it, so what the handler does in between must not put `keepalive` back on:
`followed_allows` says so for every round behind which another one begins. -/

namespace Dusty

open Act

namespace Exchange

open Response

variable {L : Llhttp} {H M : Type} {server : Server H M} {requestCount : ℕ} {app : Option H → List M → Visit}

/-! ### A connection that was given up stays so -/

theorem fieldwise_lost : Fieldwise fun r => r.keepalive = false where
  aside hr _ hkeep := hkeep hr
  settable _ _ _ _ _ hr _ _ := hr
  addCookie hr _ := hr
  remove hr := hr

theorem lasting_lost : Lasting fun r => r.keepalive = false := fieldwise_lost.lasting

theorem spared_lost {step : Step} (h : step ≠ .setKeepalive true) : Spared (fun r => r.keepalive = false) step := by
  cases step with
  | res op =>
      cases op with
      | header name value => exact fun _ _ _ hr _ _ => hr
      | _ => trivial
  | setKeepalive keepalive =>
      cases keepalive with
      | true => exact absurd rfl h
      | false => exact fun _ _ => rfl
  | _ => trivial

theorem keeps_nameCause {α : Type} {P : Exchange L → Prop} {x : Act (Exchange L) α} (h : Keeps P x) :
    Keeps P (nameCause x) := by
  refine h.attempt.bind fun result => ?_
  cases result with
  | ok a => exact keeps_pure _
  | error e => exact keeps_get_bind fun _ _ => keeps_fail _

/-! ### What lasts through a round -/

section lasting
variable {P : Response → Prop}

theorem lasting_route (router : Router H M) :
    Keeps (fun self : Exchange L => P self.res) (onRequest router.findHandler) :=
  keeps_zoom fun _ hself req _ => by cases router.findHandler req <;> exact hself

/-- The handler and what is done about the body it left. -/
theorem lasting_handle (h : Lasting P) {found : Option (Route H M)}
    (hsteps : ∀ step ∈ (visit server app found).steps, Spared P step) :
    Keeps (fun self : Exchange L => P self.res) (handle server app found) :=
  (keeps_nameCause (lasting_execute h _ hsteps)).bind fun _ => (lasting_drain h _).bind fun _ =>
    (lasting_noKeepalive h).when _

/-- The last `write` and the end of the loop's body. -/
theorem lasting_written (h : Lasting P) :
    Keeps (fun self : Exchange L => P self.res) (onRes Response.write >>= fun _ => goRound) :=
  (lasting_onState (HandlerState.lasting_onRes h.write)).bind fun _ => goRound_st fun st => P st.res

/-- A step that spares the property spares the line that goes with it. -/
theorem Spared.bears {before : List (Part × Bytes)} {line : Bytes} {step : Step} (h : Spared P step) :
    Spared (Bears P before line) step := by
  cases step with
  | res op =>
      cases op with
      | header name value =>
          exact fun r value headers hr hopen hput => ⟨hr.faults, h r value headers hr.holds hopen hput, hr.announces⟩
      | _ => trivial
  | setKeepalive keepalive => exact fun r hr => ⟨hr.faults, h r hr.holds, hr.announces⟩
  | _ => trivial

end lasting

/-- The request is routed with `keepalive` off, if it is the last one. -/
theorem limitKeepalive_last {self : Exchange L} (hlast : self.isLast server.config requestCount = true) :
    limitKeepalive server.config requestCount self =
      .ok () (self.setState (self.st.setRes self.res.noKeepalive)) := by
  unfold limitKeepalive
  rw [bind_ok (get_run self), hlast, when_true]
  exact onRes_ok rfl

theorem chooseRoute_last {self routed : Exchange L} {found : Option (Route H M)}
    (hlast : self.isLast server.config requestCount = true)
    (h : chooseRoute server requestCount self = .ok found routed) : routed.res.keepalive = false := by
  unfold chooseRoute at h
  rw [bind_ok (limitKeepalive_last hlast)] at h
  exact (lasting_route (P := fun r => r.keepalive = false) server.router).ok rfl h

/-- Behind the handler `keepalive` is off if it was off before, or if the server is being shut down. -/
theorem handle_lost {self handled : Exchange L} {found : Option (Route H M)}
    (hoff : self.res.keepalive = false ∧ .setKeepalive true ∉ (visit server app found).steps ∨
      (visit server app found).shuttingDown = true)
    (h : handle server app found self = .ok () handled) : handled.res.keepalive = false := by
  rcases hoff with ⟨hoff, hnone⟩ | hdowns
  · exact (lasting_handle lasting_lost fun step hstep => spared_lost fun heq => hnone (heq ▸ hstep)).ok hoff h
  · obtain ⟨_, executed, -, h⟩ := bind_eq_ok.mp h
    obtain ⟨_, drained, -, hdown⟩ := bind_eq_ok.mp h
    rw [hdowns, when_true] at hdown
    have hset : (onRes (modify Response.noKeepalive) : Act (Exchange L) Unit) drained = .ok ()
        (drained.setState (drained.st.setRes drained.res.noKeepalive)) := onRes_ok rfl
    cases hset.symm.trans hdown
    rfl

/-! ### One round -/

theorem opening_isLast (config : ServerConfig) (requestCount : ℕ) (self : Exchange L) :
    (opening config self).isLast config requestCount = self.isLast config requestCount := by
  unfold opening noteExpect
  split <;> rfl

/-- A round that goes round has routed and handled its request, and has written with `keepalive` on. -/
theorem again_inv {self served : Exchange L} (h : serve server requestCount app self = .ok .again served) :
    ∃ found routed handled, chooseRoute server requestCount (opening server.config self) = .ok found routed ∧
      handle server app found routed = .ok () handled ∧ handled.res.keepalive = true := by
  rw [serve_eq] at h
  split at h
  · obtain ⟨_, refused, -, hclose⟩ := bind_eq_ok.mp h
    cases hclose
  · obtain ⟨_, handled, hprepare, h⟩ := bind_eq_ok.mp h
    obtain ⟨found, routed, hchoose, hhandle⟩ := bind_eq_ok.mp hprepare
    obtain ⟨_, written, hwrite, hround⟩ := bind_eq_ok.mp h
    refine ⟨found, routed, handled, hchoose, hhandle, ?_⟩
    by_contra hoff
    have hwritten : written.res.keepalive = false :=
      (lasting_onState (HandlerState.lasting_onRes lasting_lost.write)).ok (Bool.eq_false_iff.mpr hoff) hwrite
    unfold goRound at hround
    rw [bind_ok (get_run _), hwritten] at hround
    cases hround

/-- **A round is followed by another** only if the server is not being shut down, and if the request was not the last
one, unless the handler assigns `keepalive`. -/
theorem again_allows {self served : Exchange L} (h : serve server requestCount app self = .ok .again served) :
    ∃ found routed, chooseRoute server requestCount (opening server.config self) = .ok found routed ∧
      (visit server app found).shuttingDown = false ∧
      (.setKeepalive true ∉ (visit server app found).steps → self.isLast server.config requestCount = false) := by
  obtain ⟨found, routed, handled, hchoose, hhandle, hon⟩ := again_inv h
  refine ⟨found, routed, hchoose, ?_, fun hnone => ?_⟩
  · by_contra hdown
    cases hon.symm.trans (handle_lost (.inr (Bool.not_eq_false _ ▸ hdown)) hhandle)
  · by_contra hlast
    have hopened : (opening server.config self).isLast server.config requestCount = true := by
      rw [opening_isLast]
      exact Bool.not_eq_false _ ▸ hlast
    cases hon.symm.trans (handle_lost (.inl ⟨chooseRoute_last hopened hchoose, hnone⟩) hhandle)

/-! ### Many rounds -/

variable {start last self parsed : Exchange L} {before after : List (Option H → List M → Visit)}

/-- A round that was gone through, behind those in front of it. -/
theorem Reached.round_of (h : Reached server start (before ++ app :: after) last) :
    ∃ self parsed served, Reached server start before self ∧ awaitRequest self = .ok true parsed ∧
      serve server (before.length + 1) app parsed = .ok .again served := by
  generalize hrounds : before ++ app :: after = apps at h
  induction h generalizing after with
  | start => simp at hrounds
  | @round apps app' self parsed served next hbefore hparse hserve hwait ih =>
      rcases List.eq_nil_or_concat after with rfl | ⟨after', app'', rfl⟩
      · obtain ⟨rfl, heq⟩ := List.append_inj' hrounds rfl
        cases heq
        exact ⟨self, parsed, served, hbefore, hparse, hserve⟩
      · rw [List.concat_eq_append, ← List.cons_append, ← List.append_assoc] at hrounds
        exact ih (List.append_inj' hrounds rfl).1

/-- **The last request is the last.**  A round behind which the loop waits for another request has seen no shutdown,
and if its handler did not assign `keepalive`, then the client lets the connection live and the configured number of
requests is not reached. -/
theorem followed_allows (h : Reached server start (before ++ app :: after) last) :
    ∃ self parsed found routed, Reached server start before self ∧ awaitRequest self = .ok true parsed ∧
      chooseRoute server (before.length + 1) (opening server.config parsed) = .ok found routed ∧
      (visit server app found).shuttingDown = false ∧
      (.setKeepalive true ∉ (visit server app found).steps → parsed.inbound.parser.shouldKeepAlive = true ∧
        ∀ maxCount, server.config.requestCount = some maxCount → before.length + 1 < maxCount) := by
  obtain ⟨self, parsed, served, hbefore, hparse, hserve⟩ := h.round_of
  obtain ⟨found, routed, hchoose, hdown, hlast⟩ := again_allows hserve
  refine ⟨self, parsed, found, routed, hbefore, hparse, hchoose, hdown, fun hnone => ?_⟩
  have hnot := hlast hnone
  unfold isLast at hnot
  rw [Bool.or_eq_false_iff, Bool.not_eq_false'] at hnot
  refine ⟨hnot.1, fun maxCount hmax => ?_⟩
  have hlimit := hnot.2
  rw [hmax] at hlimit
  exact Nat.lt_of_not_le (of_decide_eq_false hlimit)

/-- A server that answers three requests on a connection. -/
def bounded : Server Unit Unit := ⟨{ requestCount := some 3 }, Router.init, []⟩

theorem bounded_reached : ∃ last, Reached bounded twoRequests [idle] last := by
  have hrun : yields (fun more first => more && yields (fun next served => decide (next = .again) &&
      yields (fun more _ => more) (awaitNext {}) served) (serve bounded 1 idle) first) awaitRequest twoRequests = true := by
    decide +kernel
  obtain ⟨more, first, hfirst, hrun⟩ := yields_iff.mp hrun
  obtain ⟨rfl, hrun⟩ := Bool.and_eq_true_iff.mp hrun
  obtain ⟨next, served, hserved, hrun⟩ := yields_iff.mp hrun
  obtain ⟨hagain, hrun⟩ := Bool.and_eq_true_iff.mp hrun
  rw [of_decide_eq_true hagain] at hserved
  obtain ⟨more, last, hwait, rfl⟩ := yields_iff.mp hrun
  exact ⟨last, .round .start hfirst hserved hwait⟩

theorem followed_allows_sample : ∃ self parsed, Reached bounded twoRequests [] self ∧
    awaitRequest self = .ok true parsed ∧ parsed.inbound.parser.shouldKeepAlive = true ∧ 1 < 3 := by
  obtain ⟨last, hreached⟩ := bounded_reached
  obtain ⟨self, parsed, found, routed, hself, hparsed, -, -, hallows⟩ :=
    @followed_allows _ _ _ bounded idle twoRequests last [] [] hreached
  have hnone : .setKeepalive true ∉ (visit bounded idle found).steps := by
    cases found <;> exact List.not_mem_nil
  exact ⟨self, parsed, hself, hparsed, (hallows hnone).1, (hallows hnone).2 3 rfl⟩

/-! ### The client is told -/

/-- What the server says of a connection it will close. -/
def closeLine : Bytes := ascii "Connection: close"

theorem lasting_told (before : List (Part × Bytes)) :
    Lasting (Bears (fun r => r.keepalive = false) before closeLine) := by
  refine fieldwise_lost.bears before fun r hr => ?_
  unfold headLines
  rw [hr, if_neg (by decide)]
  exact List.mem_append_left _ (List.mem_append_right _ List.mem_cons_self)

/-- **The client is told**: on a transport that works, the header block of the last response of a connection, if it is
sent, says that the connection will be closed, also when the handler sends it long before the end. -/
theorem last_is_told (h : Reached server start before self) (hstart : start.res.conn.Works)
    (hparsed : awaitRequest self = .ok true parsed)
    (hlast : expectsUnknown parsed.request = true ∨ parsed.isLast server.config (before.length + 1) = true)
    (hassigns : ∀ found, .setKeepalive true ∉ (visit server app found).steps) :
    (final (serve server (before.length + 1) app) parsed).res.headersWritten = true →
      ∃ pieces, (final (serve server (before.length + 1) app) parsed).res.conn.log = parsed.res.conn.log ++ pieces ∧
        (Part.head, closeLine ++ crlf) ∈ pieces := by
  have hworks := h.parsed_works hstart hparsed
  have htold := lasting_told parsed.res.conn.log
  suffices hbears : Bears (fun r => r.keepalive = false) parsed.res.conn.log closeLine
      (final (serve server (before.length + 1) app) parsed).res by
    obtain ⟨pieces, hlog, hsent⟩ := hbears.announces
    exact fun hw => ⟨pieces, hlog, hsent hw⟩
  have hfresh : ∀ r : Response, r.conn = parsed.res.conn → r.headersWritten = false → r.keepalive = false →
      Bears (fun r => r.keepalive = false) parsed.res.conn.log closeLine r := by
    intro r hconn hopen hoff
    refine ⟨hconn ▸ hworks.faults, hoff, [], hconn ▸ (List.append_nil _).symm, fun hw => ?_⟩
    cases hopen.symm.trans hw
  rw [final_serve]
  cases hknown : expectsUnknown parsed.request with
  | true =>
      rw [if_pos rfl]
      unfold refuse
      rw [bind_assoc, final_bind_ok (onRes_ok (modify_run _ _))]
      exact ((keeps_onRes_res htold.write).bind fun _ => keeps_pure _).final (hfresh _ rfl rfl rfl)
  | false =>
      have hclose : (opening server.config parsed).isLast server.config (before.length + 1) = true := by
        rw [opening_isLast]
        exact hlast.resolve_left (by simp [hknown])
      rw [if_neg (by decide)]
      unfold prepare chooseRoute
      rw [bind_assoc, bind_assoc, final_bind_ok (limitKeepalive_last hclose)]
      have hsteps : ∀ found, ∀ step ∈ (visit server app found).steps,
          Spared (Bears (fun r => r.keepalive = false) parsed.res.conn.log closeLine) step :=
        fun found step hstep => (spared_lost fun heq => hassigns found (heq ▸ hstep)).bears
      have hrest : Keeps (fun self : Exchange L => Bears (fun r => r.keepalive = false) parsed.res.conn.log closeLine
          self.res) (onRequest server.router.findHandler >>= fun found => handle server app found >>= fun _ =>
            onRes Response.write >>= fun _ => goRound) :=
        (lasting_route server.router).bind fun found => (lasting_handle htold (hsteps found)).bind fun _ =>
          lasting_written htold
      refine hrest.final (hfresh _ ?_ ?_ rfl)
      · show (opening server.config parsed).st.res.conn = _
        rw [opening_st]
        rfl
      · show (opening server.config parsed).st.res.headersWritten = false
        rw [opening_st]
        rfl

/-- A server that answers one request on a connection. -/
def single : Server Unit Unit := ⟨{ requestCount := some 1 }, Router.init, []⟩

theorem last_is_told_sample : ∃ parsed pieces, awaitRequest twoRequests = .ok true parsed ∧
    (final (serve single 1 idle) parsed).res.conn.log = parsed.res.conn.log ++ pieces ∧
      (Part.head, closeLine ++ crlf) ∈ pieces := by
  have hrun : yields (fun more parsed => more && parsed.isLast single.config 1 &&
      (final (serve single 1 idle) parsed).res.headersWritten) awaitRequest twoRequests = true := by
    decide +kernel
  obtain ⟨more, parsed, hparsed, hrun⟩ := yields_iff.mp hrun
  simp only [Bool.and_eq_true] at hrun
  obtain ⟨⟨rfl, hlast⟩, hwritten⟩ := hrun
  have hnone : ∀ found, .setKeepalive true ∉ (visit single idle found).steps := by
    intro found
    cases found <;> exact List.not_mem_nil
  obtain ⟨pieces, hlog, hmem⟩ := last_is_told .start twoRequests_works hparsed (.inr hlast) hnone hwritten
  exact ⟨parsed, pieces, hparsed, hlog, hmem⟩

end Exchange
end Dusty
