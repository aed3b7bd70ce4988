import Dusty.RoundLog

/-! # Waiting for a body that was not asked for

A client that expects an interim response sends its body behind it, or behind the final response.  Whenever a
handler waits for the body, the client was told to go on.  The reader that drains what is left of a body tells
nobody, so that a round never waits in vain exactly if the drain does not (`continue_waits_iff`). -/

namespace Dusty

open Act

namespace Conn

/-- The client was told to go on: the interim response was written behind `before` and handed over. -/
def Heard (before : List (Part × Bytes)) (c : Conn) : Prop :=
  ∃ pieces later, c.log = before ++ pieces ++ [(.interim, Exchange.interim)] ++ later ∧
    (bytesOf (before ++ pieces ++ [(.interim, Exchange.interim)])).length ≤ c.flushed

variable {before : List (Part × Bytes)}

theorem flushed_writeAll (part : Part) (bytes : Bytes) (c : Conn) : (final (writeAll part bytes) c).flushed = c.flushed := by
  obtain ⟨log, flushed, faults, writeErr⟩ := c
  match faults with
  | [] => rfl
  | none :: _ => rfl
  | some (taken, cause) :: _ => rfl

theorem flushed_flush (c : Conn) :
    (final flush c).flushed = c.out.length ∨ (final flush c).flushed = c.flushed := by
  obtain ⟨log, flushed, faults, writeErr⟩ := c
  match faults with
  | [] => exact .inl rfl
  | none :: _ => exact .inl rfl
  | some (taken, cause) :: _ => exact .inr rfl

theorem heard_writeAll (part : Part) (bytes : Bytes) : Keeps (Heard before) (writeAll part bytes) := by
  refine keeps_iff_final.mpr ?_
  rintro c ⟨pieces, later, hlog, hflushed⟩
  obtain ⟨taken, hmore⟩ := log_writeAll part bytes c
  refine ⟨pieces, later ++ [(part, bytes.take taken)], ?_, ?_⟩
  · rw [hmore, hlog, List.append_assoc]
  · rw [flushed_writeAll]
    exact hflushed

theorem heard_flush : Keeps (Heard before) flush := by
  refine keeps_iff_final.mpr ?_
  rintro c ⟨pieces, later, hlog, hflushed⟩
  refine ⟨pieces, later, by rw [log_flush, hlog], ?_⟩
  rcases flushed_flush c with hall | hnone
  · have hout : c.out = bytesOf (before ++ pieces ++ [(.interim, Exchange.interim)]) ++ bytesOf later := by
      rw [← bytesOf_append, ← hlog]
      rfl
    rw [hall, hout, List.length_append]
    exact Nat.le_add_right _ _
  · rw [hnone]
    exact hflushed

end Conn

namespace Response

open Conn

variable {before : List (Part × Bytes)} {r : Response}

theorem rides_heard (before : List (Part × Bytes)) : Rides fun r => Heard before r.conn :=
  rides_of_conn (fun part _ bytes => heard_writeAll part bytes) heard_flush

/-- **What is sent to a client that waits** is handed over. -/
theorem tell_heard : Triple (Tracked before) Exchange.tell (fun _ r => Heard before r.conn) (fun _ r => Heard before r.conn) := by
  intro r h
  obtain ⟨pieces, hlog, -⟩ := h.shows
  obtain ⟨hwrite, hg⟩ := h.toUnderway.wrote_run .interim Exchange.interim
  have hflush := @onConn_flush_run (r.setConn (r.conn.wrote .interim Exchange.interim)) hg.faults
  unfold Exchange.tell
  rw [bind_ok hwrite, hflush]
  refine ⟨pieces, [], ?_, ?_⟩
  · show r.conn.log ++ _ = _
    rw [hlog, List.append_nil]
  · show _ ≤ ((r.conn.log ++ _).map Prod.snd).flatten.length
    rw [hlog]
    exact Nat.le_refl _

end Response

namespace Exchange

open Response Conn

variable {L : Llhttp} {H M : Type} {before : List (Part × Bytes)} {P : Bool → Response → Prop} {G : Response → Prop}

/-- Once the client does not wait any more, it was told to go on. -/
theorem carried_heard (before : List (Part × Bytes)) : Carried (fun _ => True) fun waiting r =>
    Tracked before r ∧ (waiting = false → Heard before r.conn) where
  rides waiting := (rides_tracked before).and ((rides_heard before).guard (waiting = false))
  tell := ((carried_tracked before).tell.both tell_heard).weaken (fun _ hr => ⟨⟨hr.1.1, trivial⟩, hr.1.1⟩)
    (fun _ _ hr => ⟨hr.1, fun _ => hr.2⟩) fun _ _ hr => ⟨hr.1, fun _ => hr.2⟩

/-! ### The waits of a handler -/

/-- The connection was waited for in such states only since `old`. -/
def Waited (Q : Response → Prop) (old : List Response) (self : Exchange L) : Prop :=
  ∃ more, self.waits = old ++ more ∧ ∀ res ∈ more, Q res

variable {Q : Response → Prop} {old : List Response}

theorem waited_onInbound {α : Type} (x : Act (Inbound L Request) α) :
    Triple (fun self => Waited Q old self ∧ Q self.res) (onInbound x) (fun _ => Waited Q old) (fun _ => Waited Q old) := by
  have hmore : ∀ (self : Exchange L) inbound, Waited Q old self → Q self.res → Waited Q old (self.waited inbound) := by
    rintro self inbound ⟨more, hwaits, hall⟩ hres
    refine ⟨more ++ List.replicate (inbound.waits - self.inbound.waits) self.res, ?_, fun res hmem => ?_⟩
    · show self.waits ++ _ = _
      rw [hwaits, List.append_assoc]
    · rcases List.mem_append.mp hmem with hmem | hmem
      · exact hall res hmem
      · rw [List.eq_of_mem_replicate hmem]
        exact hres
  exact triple_zoom fun self hself inbound _ => by
    cases x inbound <;> exact hmore self _ hself.1 hself.2

theorem keeps_onState_waits {α : Type} (W : List Response → Prop) (x : Act HandlerState α) :
    Keeps (fun self : Exchange L => W self.waits) (onState x) :=
  keeps_zoom fun self hself st _ => by
    cases x st <;> exact hself

theorem keeps_sendContinue_waits (W : List Response → Prop) : Keeps (fun self : Exchange L => W self.waits) sendContinue := by
  refine keeps_get_bind fun self _ => Keeps.when ?_ _
  exact Keeps.bind (keeps_modify fun _ hself => hself) fun _ =>
    (keeps_onState_waits W _).bind fun _ => keeps_onState_waits W _

/-- **A read from the connection** waits for a client that was told to go on. -/
theorem readBody_waited (h : Carried G P) (hQ : ∀ r, P false r → Q r) (dest : ℕ) :
    Triple (fun self : Exchange L => (Holds P self ∧ Ready G self) ∧ Waited Q old self) (readBody dest)
      (fun _ self => Told P self ∧ Waited Q old self) (fun _ self => Told P self ∧ Waited Q old self) := by
  have htwice : ∀ self : Exchange L, (Holds P self ∧ Ready G self) ∧ Waited Q old self →
      (Holds P self ∧ Ready G self) ∧ (Holds P self ∧ Ready G self) ∧ Waited Q old self :=
    fun self hself => ⟨hself.1, hself⟩
  refine ((readBody_holds h dest).both ?_).weaken htwice (fun _ _ hself => hself) fun _ _ hself => hself
  have htold : ∀ self : Exchange L, Told P self → Q self.res := by
    rintro self ⟨hself, hwaits⟩
    have hres := hself.1.1
    rw [hwaits] at hres
    exact hQ _ hres
  refine Triple.bind (Q := fun _ self => Told P self ∧ Waited Q old self)
    (((sendContinue_holds h).both (keeps_sendContinue_waits fun waits => ∃ more, waits = old ++ more ∧ ∀ res ∈ more, Q res)).weaken
      (fun _ hself => hself) (fun _ _ hself => hself) fun _ _ hself => hself.2) fun _ => ?_
  exact (waited_onInbound _).weaken (fun self hself => ⟨hself.2, htold self hself.1⟩) (fun _ _ hself => hself)
    fun _ _ hself => hself

theorem bodyLoop_waited (h : Carried G P) (hQ : ∀ r, P false r → Q r) (room : ℕ → ℕ) (fuel : ℕ) : ∀ remaining got,
    Keeps (fun self : Exchange L => Told P self ∧ Waited Q old self) (bodyLoop room fuel remaining got) := by
  induction fuel with
  | zero => exact fun _ _ => keeps_die _
  | succ fuel ih =>
      intro remaining got
      unfold bodyLoop
      split
      · exact keeps_fail _
      · have hread : Keeps (fun self : Exchange L => Told P self ∧ Waited Q old self)
            (readBody (min remaining (room got.length + 1))) :=
          (readBody_waited h hQ _).weaken (fun _ hs => ⟨hs.1.ready, hs.2⟩) (fun _ _ hs => hs) fun _ _ hs => hs
        refine hread.attempt.bind fun result => ?_
        split
        · exact keeps_pure _
        · exact keeps_fail _
        · exact keeps_fail _
        · exact ih _ _

theorem body_waited (h : Carried G P) (hQ : ∀ r, P false r → Q r) (room : ℕ → ℕ) :
    Triple (fun self : Exchange L => (Holds P self ∧ (self.readsBody (.body room) = true → Ready G self)) ∧
      Waited Q old self) (body room) (fun _ => Waited Q old) (fun _ => Waited Q old) := by
  intro self ⟨⟨hself, hready⟩, hwaited⟩
  have hstore : ∀ result, Keeps (Waited (L := L) Q old) (do
      modify (storeBody result)
      let self ← get
      pure self.request.cachedBody) :=
    fun result => Keeps.bind (keeps_modify fun _ hs => hs) fun _ => keeps_get_bind fun _ _ => keeps_pure _
  unfold body
  rw [bind_ok (get_run self)]
  cases hread : self.request.bodyRead with
  | true => exact hwaited
  | false =>
      rw [if_neg (by decide)]
      by_cases hmax : 0 < self.request.config.maxBodySize
      · have hreads : self.readsBody (.body room) = true := by
          show (!self.request.bodyRead && decide (0 < self.request.config.maxBodySize)) = true
          rw [hread, decide_eq_true hmax]
          rfl
        have hloop : Triple (fun s : Exchange L => (Holds P s ∧ Ready G s) ∧ Waited Q old s)
            (bodyLoop room (self.request.config.maxBodySize + self.inbound.net.weight + 1) self.request.config.maxBodySize [])
            (fun _ => Waited Q old) (fun _ => Waited Q old) := by
          unfold bodyLoop
          rw [if_neg (Nat.ne_of_gt hmax)]
          refine triple_attempt_bind (readBody_waited h hQ _) (fun part => ?_) (fun e => ?_) fun _ _ hs => hs.2
          · exact (bodyLoop_waited h hQ room _ _ _).weaken (fun _ hs => hs) (fun _ _ hs => hs.2) fun _ _ hs => hs.2
          · split
            · exact triple_pure fun _ hs => hs.2
            · exact triple_fail fun _ hs => hs.2
            · exact triple_fail fun _ hs => hs.2
            · next heq => cases heq
        exact (hloop.bind hstore) self ⟨⟨hself, hready hreads⟩, hwaited⟩
      · dsimp only
        rw [bodyLoop, if_pos (Nat.eq_zero_of_not_pos hmax)]
        exact hwaited

theorem read_waited (h : Carried G P) (hQ : ∀ r, P false r → Q r) (dest : ℕ) :
    Triple (fun self : Exchange L => (Holds P self ∧ (self.readsBody (.read dest) = true → Ready G self)) ∧
      Waited Q old self) (read dest) (fun _ => Waited Q old) (fun _ => Waited Q old) := by
  intro self ⟨⟨hself, hready⟩, hwaited⟩
  have hread : Triple (fun s : Exchange L => (Holds P s ∧ Ready G s) ∧ Waited Q old s) (do
      let _ ← readBody dest) (fun _ => Waited Q old) (fun _ => Waited Q old) :=
    Triple.bind ((readBody_waited h hQ dest).weaken (fun _ hs => hs) (fun _ _ hs => hs.2) fun _ _ hs => hs.2)
      fun _ => keeps_pure _
  unfold read
  rw [bind_ok (get_run self)]
  cases hreader : self.reader with
  | false => exact hwaited
  | true => exact hread self ⟨⟨hself, hready hreader⟩, hwaited⟩

theorem perform_waited (h : Carried G P) (hQ : ∀ r, P false r → Q r) (step : Step) :
    Triple (fun self : Exchange L => (Holds P self ∧ (self.readsBody step = true → Ready G self)) ∧ Waited Q old self)
      (perform step) (fun _ => Waited Q old) (fun _ => Waited Q old) := by
  let W : List Response → Prop := fun waits => ∃ more, waits = old ++ more ∧ ∀ res ∈ more, Q res
  have hfree : ∀ {x : Act (Exchange L) Unit}, Keeps (fun self => W self.waits) x →
      Triple (fun self : Exchange L => (Holds P self ∧ (self.readsBody step = true → Ready G self)) ∧ Waited Q old self)
        x (fun _ => Waited Q old) (fun _ => Waited Q old) :=
    fun hx => hx.weaken (fun _ hs => hs.2) (fun _ _ hs => hs) fun _ _ hs => hs
  cases step with
  | res op => exact hfree (keeps_onState_waits W _)
  | setKeepalive keepalive =>
      exact hfree (keeps_onState_waits W (HandlerState.onRes (modify fun res : Response => { res with keepalive := keepalive })))
  | reader => exact hfree (keeps_modify fun _ hs => hs)
  | read dest => exact read_waited h hQ dest
  | body room => exact (body_waited h hQ room).bind fun _ => keeps_pure _
  | upgradeWebSocket =>
      refine hfree (Keeps.bind (keeps_get_bind fun self _ => ?_) fun _ => keeps_pure _)
      split
      · exact keeps_pure _
      · exact (keeps_onState_waits W _).bind fun _ => Keeps.bind (keeps_modify fun _ hs => hs) fun _ => keeps_pure _
  | socket op =>
      refine hfree (keeps_get_bind fun self _ => ?_)
      split
      · exact keeps_pure _
      · next ws _ =>
          have hcall : Keeps (fun s : Exchange L => W s.waits)
              (zoom (fun self => self.attachSocket ws) detachSocket (socketCall op)) :=
            keeps_zoom fun s hs w _ => by
              cases socketCall op w <;> exact hs
          refine hcall.attempt.bind fun result => ?_
          split
          · exact keeps_pure _
          · refine Keeps.bind (keeps_modify fun s hs => ?_) fun _ => keeps_fail _
            split <;> exact hs

/-- **Whenever a handler waits**, the response is as it is behind the interim response. -/
theorem performAll_waited (h : Carried (fun _ => True) P) (hQ : ∀ r, P false r → Q r) {steps : List Step}
    {self : Exchange L} (hself : Holds P self) (hwaited : Waited Q old self) :
    Waited Q old (final (performAll steps) self) := by
  induction steps generalizing self with
  | nil => exact hwaited
  | cons step rest ih =>
      have hstep : Waited Q old (final (perform step) self) :=
        (perform_waited h hQ step).final ⟨⟨hself, fun _ _ => trivial⟩, hwaited⟩
      unfold performAll
      cases hattempt : attempt (perform step) self with
      | ok result next =>
          have hnext : Holds P (final (perform step) self) := perform_holds h hself fun _ _ => trivial
          rw [← final_of_attempt hattempt] at hstep hnext
          rw [final_bind_ok hattempt]
          exact final_bind_of (ih hnext hstep) fun _ => keeps_pure _
      | error e next =>
          rw [final_of_error (bind_error hattempt), ← final_of_error hattempt, final_attempt]
          exact hstep

/-! ### The waits of a round -/

theorem noKeepalive_waits (W : List Response → Prop) : Keeps (fun self : Exchange L => W self.waits) noKeepalive :=
  keeps_onState_waits W (HandlerState.onRes (modify Response.noKeepalive))

theorem execute_waited (h : Carried (fun _ => True) P) (hQ : ∀ r, P false r → Q r) (steps : List Step)
    (outcome : Option Error) {self : Exchange L} (hself : Holds P self) (hwaited : Waited Q old self) :
    Waited Q old (final (nameCause (execute steps outcome)) self) := by
  have hexecute : Waited Q old (final (execute steps outcome) self) :=
    final_bind_of (performAll_waited h hQ hself hwaited) fun _ =>
      keeps_onState_waits (fun waits => ∃ more, waits = old ++ more ∧ ∀ res ∈ more, Q res) _
  unfold nameCause
  rw [← final_attempt] at hexecute
  refine final_bind_of hexecute fun result => ?_
  cases result with
  | ok a => exact keeps_pure _
  | error e => exact keeps_get_bind fun _ _ => keeps_fail _

/-- **The drain** waits in the state the handler has left. -/
theorem drain_waited (config : RequestConfig) : Triple (fun self : Exchange L => Waited Q old self ∧ Q self.res)
    (drain config) (fun _ => Waited Q old) (fun _ => Waited Q old) := by
  have hlost : Keeps (Waited (L := L) Q old) noKeepalive :=
    noKeepalive_waits fun waits => ∃ more, waits = old ++ more ∧ ∀ res ∈ more, Q res
  refine triple_get_bind fun self => Triple.weaken (P := fun s => Waited Q old s ∧ Q s.res) ?_
    (fun _ hs => hs.1) (fun _ _ hs => hs) fun _ _ hs => hs
  split
  · exact triple_pure fun _ hs => hs.1
  split
  · refine Triple.bind (Q := fun _ s => Waited Q old s ∧ Q s.res)
      (triple_assert (fun _ hs _ => hs) fun _ hs => hs.1) fun _ => ?_
    refine triple_attempt_bind (waited_onInbound _) (fun consumed => ?_) (fun e => ?_) fun _ _ hs => hs
    · exact hlost.when _
    · refine keeps_get_bind fun s _ => ?_
      split
      · exact keeps_fail _
      · exact hlost
  · exact hlost.weaken (fun _ hs => hs.1) (fun _ _ hs => hs) fun _ _ hs => hs

variable {server : Server H M} {requestCount : ℕ} {app : Option H → List M → Visit}

theorem chooseRoute_waits (W : List Response → Prop) :
    Keeps (fun self : Exchange L => W self.waits) (chooseRoute server requestCount) :=
  Keeps.bind (keeps_get_bind fun _ _ => (noKeepalive_waits W).when _) fun _ =>
    keeps_zoom fun self hself request _ => by
      cases server.router.findHandler request <;> exact hself

theorem write_goRound_waits (W : List Response → Prop) : Keeps (fun self : Exchange L => W self.waits)
    (onRes Response.write >>= fun _ => goRound) := by
  refine (keeps_onState_waits W _).bind fun _ => keeps_get_bind fun self _ => ?_
  split
  · exact keeps_pure _
  · exact Keeps.bind (keeps_modify fun _ hself => hself) fun _ => keeps_get_bind fun _ _ => keeps_pure _

theorem opening_waits (config : ServerConfig) (self : Exchange L) : (opening config self).waits = self.waits := by
  unfold opening noteExpect
  split <;> rfl

/-- **When a round never waits in vain.**  In every round of a connection whose transport works, whose client expects
an interim response: whenever the server waits for the connection, the interim response or a complete response was
handed over, exactly if that is so where the drain waits for what the handler has left of the body. -/
theorem continue_waits_iff {start self parsed : Exchange L} {apps : List (Option H → List M → Visit)}
    (app : Option H → List M → Visit) (h : Reached server start apps self) (hstart : start.res.conn.Works)
    (hparsed : awaitRequest self = .ok true parsed) {expect : Bytes}
    (hexpect : parsed.request.headers.get (ascii "Expect") = some expect)
    (hknown : eqlIgnoreCase expect (ascii "100-continue") = true) :
    (∀ res ∈ (final (serve server (apps.length + 1) app) parsed).waits.drop parsed.waits.length,
        Heard parsed.res.conn.log res.conn ∨ Answered parsed.res.conn.log res) ↔
      ∀ found routed ended, chooseRoute server (apps.length + 1) (opening server.config parsed) = .ok found routed →
        nameCause (execute (visit server app found).steps (visit server app found).outcome) routed = .ok () ended →
        ended.waits.length < (final (serve server (apps.length + 1) app) parsed).waits.length →
          Heard parsed.res.conn.log ended.res.conn ∨ Answered parsed.res.conn.log ended.res := by
  have hworks := h.parsed_works hstart hparsed
  have hserve : final (serve server (apps.length + 1) app) parsed =
      final (prepare server (apps.length + 1) app >>= fun _ => onRes Response.write >>= fun _ => goRound)
        (opening server.config parsed) := by
    rw [final_serve, if_neg]
    unfold expectsUnknown
    rw [hexpect]
    simp [hknown]
  have hwaits : (opening server.config parsed).request.expectsContinue = true := by
    unfold opening noteExpect
    rw [show (begin server.config parsed).request.headers.get (ascii "Expect") = some expect from hexpect]
    rfl
  have hheld : Holds (fun waiting r => Tracked parsed.res.conn.log r ∧ (waiting = false → Heard parsed.res.conn.log r.conn))
      (opening server.config parsed) := by
    refine holds_opening server.config parsed ⟨begin_tracked server.config hworks, fun hnot => ?_⟩
    cases hwaits.symm.trans hnot
  cases hchoose : chooseRoute server (apps.length + 1) (opening server.config parsed) with
  | error f failed =>
      have hnone : failed.waits = parsed.waits :=
        (chooseRoute_waits (fun waits => waits = parsed.waits)).error (opening_waits server.config parsed) hchoose
      have hserved : final (serve server (apps.length + 1) app) parsed = failed := by
        rw [hserve]
        exact final_of_error (bind_error (bind_error hchoose))
      rw [hserved, hnone, List.drop_length]
      exact iff_of_true (fun _ hres => by cases hres) fun _ _ _ hok => by cases hok
  | ok found routed =>
      have hrouted := (chooseRoute_holds (carried_heard parsed.res.conn.log).rides server _).ok hheld hchoose
      have hnone : routed.waits = parsed.waits :=
        (chooseRoute_waits (fun waits => waits = parsed.waits)).ok (opening_waits server.config parsed) hchoose
      have hhandled : Waited (fun r => Heard parsed.res.conn.log r.conn) parsed.waits (final (nameCause
          (execute (visit server app found).steps (visit server app found).outcome)) routed) :=
        execute_waited (carried_heard parsed.res.conn.log) (fun r hr => hr.2 rfl) _ _ hrouted
          ⟨[], by rw [hnone, List.append_nil], fun _ hres => by cases hres⟩
      cases hexecute : nameCause (execute (visit server app found).steps (visit server app found).outcome) routed with
      | error f failed =>
          rw [final_of_error hexecute] at hhandled
          obtain ⟨more, hmore, hall⟩ := hhandled
          have hprepare : prepare server (apps.length + 1) app (opening server.config parsed) = .error f failed := by
            unfold prepare
            rw [bind_ok hchoose]
            exact bind_error hexecute
          have hserved : final (serve server (apps.length + 1) app) parsed = failed := by
            rw [hserve]
            exact final_of_error (bind_error hprepare)
          rw [hserved, hmore, List.drop_left]
          refine iff_of_true (fun res hres => .inl (hall res hres)) fun found' routed' ended hchoose' hended => ?_
          cases hchoose'
          cases hexecute.symm.trans hended
      | ok _ ended =>
          rw [final_of_ok hexecute] at hhandled
          obtain ⟨more, hmore, hall⟩ := hhandled
          have hserved : Waited (fun r => r = ended.res) ended.waits (final (serve server (apps.length + 1) app) parsed) := by
            let W : List Response → Prop := fun waits => ∃ last, waits = ended.waits ++ last ∧ ∀ res ∈ last, res = ended.res
            rw [hserve]
            refine final_bind_of (P := fun s : Exchange L => W s.waits) ?_ fun _ => write_goRound_waits W
            unfold prepare
            rw [final_bind_ok hchoose]
            unfold handle
            rw [final_bind_ok hexecute]
            have hdrain : Waited (fun r => r = ended.res) ended.waits (final (drain server.config.request) ended) :=
              (drain_waited server.config.request).final
                ⟨⟨[], (List.append_nil _).symm, fun _ hres => by cases hres⟩, rfl⟩
            exact final_bind_of (P := fun s : Exchange L => W s.waits) hdrain fun _ => (noKeepalive_waits W).when _
          obtain ⟨last, hlast, hsame⟩ := hserved
          rw [hlast, hmore, List.append_assoc, List.drop_left]
          constructor
          · intro hheard found' routed' ended' hchoose' hended hlonger
            cases hchoose'
            cases hexecute.symm.trans hended
            rw [hmore] at hlonger
            simp only [List.length_append] at hlonger
            obtain ⟨res, hres⟩ := List.exists_mem_of_length_pos (l := last) (by omega)
            have hended := hheard res (List.mem_append_right _ hres)
            rwa [hsame res hres] at hended
          · intro hended res hres
            rcases List.mem_append.mp hres with hres | hres
            · exact .inl (hall res hres)
            · rw [hsame res hres]
              refine hended found routed ended rfl hexecute ?_
              have hpos := List.length_pos_of_mem hres
              rw [hmore]
              simp only [List.length_append]
              omega

/-- A handler that reads the body leaves nothing to wait for. -/
theorem continue_waits_sample : ∃ parsed, awaitRequest expecting = .ok true parsed ∧
    ∀ res ∈ (final (serve bare 1 reading) parsed).waits.drop parsed.waits.length,
      Heard parsed.res.conn.log res.conn ∨ Answered parsed.res.conn.log res := by
  have hrun : yields (fun more parsed => more &&
      (decide (parsed.request.headers.get (ascii "Expect") = some (ascii "100-continue")) &&
      yields (fun found routed => yields (fun _ ended =>
        decide (¬ended.waits.length < (final (serve bare 1 reading) parsed).waits.length))
        (nameCause (execute (visit bare reading found).steps (visit bare reading found).outcome)) routed)
        (chooseRoute bare 1) (opening {} parsed))) awaitRequest expecting = true := by
    decide +kernel
  obtain ⟨more, parsed, hparsed, hrun⟩ := yields_iff.mp hrun
  simp only [Bool.and_eq_true, decide_eq_true_eq] at hrun
  obtain ⟨rfl, hexpect, hrun⟩ := hrun
  obtain ⟨found, routed, hchoose, hrun⟩ := yields_iff.mp hrun
  obtain ⟨_, ended, hended, hquiet⟩ := yields_iff.mp hrun
  refine ⟨parsed, hparsed, (continue_waits_iff reading .start ⟨rfl, Nat.le_refl _⟩ hparsed hexpect (by decide)).mpr ?_⟩
  intro found' routed' ended' hchoose' hended' hlonger
  cases hchoose.symm.trans hchoose'
  cases hended.symm.trans hended'
  exact absurd hlonger (of_decide_eq_true hquiet)

end Exchange
end Dusty
