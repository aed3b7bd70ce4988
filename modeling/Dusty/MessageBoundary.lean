import Dusty.DrainLimit
import Dusty.MessageRead

/-! # Where a request ends

`handleRequests` goes round only behind a message that was read to its end, and with nothing in the buffer, so
that what it parses next is what the client has sent since (`boundary_kept`). -/

namespace Dusty

open Act

variable {L : Llhttp}

namespace Inbound

variable {M : Type} (T : Target M)

theorem discardLoop_short (bufferSize n : ℕ) : ∀ (fuel remaining : ℕ) {s s' : Inbound L M} {consumed : ℕ},
    discardLoop T bufferSize n fuel remaining s = .ok consumed s' → consumed < n →
    s'.parser.isBodyComplete = true := by
  intro fuel
  induction fuel with
  | zero =>
      intro remaining s s' consumed h
      cases h
  | succ fuel ih =>
      intro remaining s s' consumed h hlt
      rw [discardLoop] at h
      obtain ⟨result, s₁, hattempt, h⟩ := bind_eq_ok.mp h
      cases result with
      | ok part =>
          dsimp only at h
          by_cases hdone : remaining - part.length = 0
          · rw [if_pos hdone] at h
            cases h
            exact absurd hlt (Nat.lt_irrefl _)
          · rw [if_neg hdone] at h
            exact ih _ h hlt
      | error e =>
          have hrun := attempt_eq_error.mp hattempt
          cases e with
          | endOfStream =>
              cases h
              exact (stream_endsComplete T _).error trivial hrun rfl
          | _ => cases h

/-- **A drain that ends early** has found the end of the message. -/
theorem discardShort_short {bufferSize n consumed : ℕ} {s s' : Inbound L M}
    (h : discardShort T bufferSize n s = .ok consumed s') (hlt : consumed < n) :
    s'.parser.isBodyComplete = true := by
  unfold discardShort at h
  rw [if_neg (by omega), bind_ok (get_run s)] at h
  exact discardLoop_short T bufferSize n _ _ h hlt

end Inbound

namespace Exchange

/-! ### Behind the handler -/

/-- The message was read to its end, or the connection is to be closed. -/
def Concluded (self : Exchange L) : Prop := self.Lost ∨ self.inbound.parser.isBodyComplete = true

theorem keeps_concluded {x : Act Response Unit} (h : Keeps (fun r => r.keepalive = false) x) :
    Keeps (Concluded (L := L)) (onRes x) := by
  intro self hself
  have hinbound : Keeps (fun s : Exchange L => s.inbound = self.inbound) (onRes x) :=
    keeps_zoom fun s hs st _ => by
      cases HandlerState.onRes x st <;> exact hs
  rcases hself with hlost | hcomplete
  · cases hrun : onRes x self with
    | ok a s => exact .inl ((keeps_lost h).ok hlost hrun)
    | error e s => exact .inl ((keeps_lost h).error hlost hrun)
  · cases hrun : onRes x self with
    | ok a s =>
        refine .inr ?_
        rw [hinbound.ok rfl hrun]
        exact hcomplete
    | error e s =>
        refine .inr ?_
        rw [hinbound.error rfl hrun]
        exact hcomplete

/-- **The drain** reads the message to its end, or the connection is to be closed. -/
theorem drain_concluded {config : RequestConfig} {self self' : Exchange L}
    (h : drain config self = .ok () self') : self'.Concluded := by
  cases hcomplete : self.inbound.parser.isBodyComplete with
  | true =>
      unfold drain at h
      rw [bind_ok (get_run self), if_pos hcomplete] at h
      cases h
      exact .inr hcomplete
  | false =>
      rw [drain_eq config hcomplete] at h
      have hlost : ∀ s : Exchange L, noKeepalive s = .ok () self' → self'.Concluded := by
        intro s hrun
        obtain ⟨lost, hl, hclosed⟩ := noKeepalive_lost s
        cases hrun.symm.trans hl
        exact .inl hclosed
      cases hplan : drainPlan config self.request with
      | close =>
          rw [hplan] at h
          exact hlost self h
      | overflow =>
          rw [hplan] at h
          cases h
      | read limit =>
          have hlimit : limit = config.maxBodySize + 1 := by
            unfold drainPlan checkedSucc at hplan
            split at hplan
            · split at hplan
              · cases hplan
                rfl
              · cases hplan
            · cases hplan
          rw [hplan] at h
          unfold follow at h
          obtain ⟨result, s₁, hattempt, h⟩ := bind_eq_ok.mp h
          cases result with
          | ok consumed =>
              dsimp only at h
              by_cases hlong : consumed > config.maxBodySize
              · rw [decide_eq_true hlong, when_true] at h
                exact hlost s₁ h
              · rw [decide_eq_false hlong, when_false] at h
                cases h
                refine .inr ?_
                have hrun := attempt_eq_ok.mp hattempt
                unfold onInbound zoom at hrun
                cases hdiscard : Inbound.discardShort .request 4096 limit self.inbound with
                | error f inbound =>
                    rw [hdiscard] at hrun
                    cases hrun
                | ok n inbound =>
                    rw [hdiscard] at hrun
                    cases hrun
                    exact Inbound.discardShort_short .request hdiscard (by omega)
          | error e =>
              dsimp only at h
              rw [bind_ok (get_run s₁)] at h
              split at h
              · cases h
              · exact hlost s₁ h

/-- The loop's body behind the handler, up to where it goes round. -/
def settleBody (config : RequestConfig) (shuttingDown : Bool) : Act (Exchange L) Unit := do
  drain config
  Act.when shuttingDown noKeepalive
  onRes Response.write

theorem finish_eq (config : RequestConfig) (shuttingDown : Bool) :
    (finish config shuttingDown : Act (Exchange L) Next) = (settleBody config shuttingDown >>= fun _ => goRound) := by
  unfold finish settleBody
  simp only [bind_assoc]

theorem settleBody_concluded {config : RequestConfig} {shuttingDown : Bool} {self self' : Exchange L}
    (h : settleBody config shuttingDown self = .ok () self') : self'.Concluded := by
  obtain ⟨_, self₁, hdrain, h⟩ := bind_eq_ok.mp h
  obtain ⟨_, self₂, hwhen, hwrite⟩ := bind_eq_ok.mp h
  have hlost : Keeps (Concluded (L := L)) noKeepalive := keeps_concluded (keeps_modify fun _ _ => rfl)
  have h₂ : self₂.Concluded := (hlost.when shuttingDown).ok (drain_concluded hdrain) hwhen
  exact (keeps_concluded Response.keeps_write_lost).ok h₂ hwrite

/-- The loop goes round behind a whole message, with an empty buffer. -/
theorem goRound_again {self self' : Exchange L} (h : goRound self = .ok .again self') (hself : self.Concluded) :
    self.inbound.parser.isBodyComplete = true ∧ self.inbound.reader.data = [] ∧ self' = resetMessage self := by
  unfold goRound at h
  rw [bind_ok (get_run self)] at h
  cases hkeep : self.res.keepalive with
  | false =>
      rw [hkeep] at h
      cases h
  | true =>
      rw [hkeep, if_neg (by decide), bind_ok (modify_run _ _), bind_ok (get_run _)] at h
      have hempty : ¬(resetMessage self).inbound.reader.bufferedLen > 0 := by
        intro hmore
        rw [if_pos hmore] at h
        cases h
      rw [if_neg hempty] at h
      cases h
      refine ⟨?_, List.eq_nil_of_length_eq_zero (Nat.le_zero.mp (Nat.not_lt.mp hempty)), rfl⟩
      rcases hself with hlost | hcomplete
      · cases hkeep.symm.trans hlost
      · exact hcomplete

/-! ### The loop -/

variable {H M : Type}

/-- A request is handed to the application and answered, up to where the loop goes round. -/
def answer (server : Server H M) (requestCount : ℕ) (app : Option H → List M → Visit) :
    Act (Exchange L) Unit := do
  limitKeepalive server.config requestCount
  let found ← onRequest server.router.findHandler
  nameCause (execute (visit server app found).steps (visit server app found).outcome)
  settleBody server.config.request (visit server app found).shuttingDown

theorem respond_eq (server : Server H M) (requestCount : ℕ) (app : Option H → List M → Visit) :
    (respond server requestCount app : Act (Exchange L) Next) =
      (answer server requestCount app >>= fun _ => goRound) := by
  unfold respond answer
  simp only [bind_assoc, finish_eq]

theorem answer_concluded {server : Server H M} {requestCount : ℕ} {app : Option H → List M → Visit}
    {self self' : Exchange L} (h : answer server requestCount app self = .ok () self') : self'.Concluded := by
  obtain ⟨_, self₁, -, h⟩ := bind_eq_ok.mp h
  obtain ⟨found, self₂, -, h⟩ := bind_eq_ok.mp h
  obtain ⟨_, self₃, -, hsettle⟩ := bind_eq_ok.mp h
  exact settleBody_concluded hsettle

theorem serve_again {server : Server H M} {requestCount : ℕ} {app : Option H → List M → Visit}
    {self self' : Exchange L} (h : serve server requestCount app self = .ok .again self') :
    ∃ ended, answer server requestCount app (noteExpect (begin server.config self)) = .ok () ended ∧
      goRound ended = .ok .again self' := by
  unfold serve at h
  rw [bind_ok (modify_run _ _), bind_ok (get_run _)] at h
  split at h
  · obtain ⟨_, self₁, -, h⟩ := bind_eq_ok.mp h
    cases h
  · rw [bind_ok (modify_run _ _), respond_eq] at h
    obtain ⟨_, ended, hanswer, hround⟩ := bind_eq_ok.mp h
    exact ⟨ended, hanswer, hround⟩

/-- The wait for the next request takes in what the client sends then. -/
theorem awaitNext_incoming {config : RequestConfig} {self self' : Exchange L}
    (h : awaitNext config self = .ok true self') :
    self'.inbound.incoming = self.inbound.net.chunks.flatten := by
  unfold awaitNext at h
  rw [bind_ok (modify_run _ _)] at h
  obtain ⟨result, self₁, hattempt, h⟩ := bind_eq_ok.mp h
  split at h
  · cases h
    have hrun := attempt_eq_ok.mp hattempt
    unfold onInbound zoom at hrun
    cases hfill : Inbound.fillMore (freshBuffer config self).inbound with
    | error f inbound =>
        rw [hfill] at hrun
        cases hrun
    | ok v inbound =>
        rw [hfill] at hrun
        cases hrun
        show inbound.incoming = _
        unfold Inbound.fillMore at hfill
        rw [bind_ok (get_run _)] at hfill
        split at hfill
        · cases hfill
        · rw [bind_ok (modify_run _ _)] at hfill
          cases hnet : (freshBuffer config self).inbound.net.chunks with
          | nil =>
              rw [hnet] at hfill
              cases hfailure : (freshBuffer config self).inbound.net.failure with
              | none =>
                  rw [hfailure] at hfill
                  cases hfill
              | some e =>
                  rw [hfailure] at hfill
                  cases hfill
          | cons chunk rest =>
              rw [hnet] at hfill
              cases hfill
              have hstream := @Inbound.receive_stream L Request (freshBuffer config self).inbound.awaits chunk rest hnet
              unfold Inbound.incoming
              rw [hstream]
              exact congrArg (· ++ _) rfl
  · cases h
  · obtain ⟨r, self₂, -, h⟩ := bind_eq_ok.mp h
    split at h <;> cases h

/-- The loop waits behind a whole message, with nothing in the buffer, and goes on with what the client sends
then. -/
structure AtBoundary (config : RequestConfig) (ended self : Exchange L) : Prop where
  complete : ended.inbound.parser.isBodyComplete = true
  empty : ended.inbound.reader.data = []
  reset : self = resetMessage ended
  next : ∀ self', awaitNext config self = .ok true self' → self'.inbound.incoming = ended.inbound.net.chunks.flatten

/-- **Message boundaries.**  Whenever the loop goes round to wait for another request, the message of the last one
was read to its end and the buffer is empty. -/
theorem boundary_kept (server : Server H M) (requestCount : ℕ) (app : Option H → List M → Visit)
    (apps : List (Option H → List M → Visit)) {self self₁ self₂ : Exchange L}
    (hparsed : awaitRequest self = .ok true self₁)
    (hround : serve server (requestCount + 1) app self₁ = .ok .again self₂) :
    handleRequests server requestCount (app :: apps) self =
        (awaitNext server.config.request >>= fun more =>
          if !more then pure () else handleRequests server (requestCount + 1) apps) self₂ ∧
      ∃ ended, answer server (requestCount + 1) app (noteExpect (begin server.config self₁)) = .ok () ended ∧
        AtBoundary server.config.request ended self₂ := by
  constructor
  · rw [handleRequests, bind_ok hparsed]
    rw [if_neg (by decide), bind_ok hround, if_neg (by decide)]
  · obtain ⟨ended, hanswer, hgo⟩ := serve_again hround
    obtain ⟨hcomplete, hempty, hreset⟩ := goRound_again hgo (answer_concluded hanswer)
    refine ⟨ended, hanswer, hcomplete, hempty, hreset, fun self' hnext => ?_⟩
    rw [awaitNext_incoming hnext, hreset]
    rfl

/-- A request with a body, the end of which comes late. -/
def lateBody : Exchange (Http1.llhttp false) :=
  accept {} { chunks := [ascii "POST / HTTP/1.1\r\nContent-Length: 5\r\n\r\nhe", ascii "llo"] } {}

/-- The application does nothing, and leaves the body unread. -/
theorem boundary_kept_sample : ∃ (self₁ self₂ ended : Exchange (Http1.llhttp false)),
    awaitRequest lateBody = .ok true self₁ ∧
      serve (⟨{}, Router.init, []⟩ : Server Unit Unit) 1 (fun _ _ => { steps := [] }) self₁ = .ok .again self₂ ∧
      AtBoundary {} ended self₂ := by
  have hrun : yields (fun parsed self₁ => parsed && yields (fun next _ => decide (next = .again))
      (serve (⟨{}, Router.init, []⟩ : Server Unit Unit) 1 fun _ _ => { steps := [] }) self₁) awaitRequest
      lateBody = true := by
    decide +kernel
  obtain ⟨parsed, self₁, hparsed, hrun⟩ := yields_iff.mp hrun
  rw [Bool.and_eq_true] at hrun
  obtain ⟨rfl, hrun⟩ := hrun
  obtain ⟨next, self₂, hround, hagain⟩ := yields_iff.mp hrun
  rw [of_decide_eq_true hagain] at hround
  obtain ⟨-, ended, -, hboundary⟩ := boundary_kept _ 0 _ [] hparsed hround
  exact ⟨self₁, self₂, ended, hparsed, hround, hboundary⟩

end Exchange
end Dusty
