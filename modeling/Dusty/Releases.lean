import Dusty.ClientRuns

/-! # Releasing a connection

What `Connection.release` makes of a connection before the pool gets it, and what the pool has then
(`release_ok`). -/

namespace Dusty

open Act

namespace ClientConnection

variable {L : Llhttp}

theorem closeIf_keeps (conn : ClientConnection L) (b : Bool) :
    (conn.closeIf b).requestCount = conn.requestCount ∧ (conn.closeIf b).idleDeadline = conn.idleDeadline ∧
      (conn.closeIf b).keepAlive = conn.keepAlive ∧ (conn.closeIf b).id = conn.id ∧
      (conn.closeIf b).inbound = conn.inbound := by
  cases b <;> exact ⟨rfl, rfl, rfl, rfl, rfl⟩

/-- What `settle` does to a connection that can be kept. -/
theorem settle_eq {conn : ClientConnection L} (hkeep : conn.shouldKeepAlive = true) :
    Client.settle conn =
      { conn.closeIf (!conn.isBodyComplete) with
        requestCount := min (conn.requestCount + 1) 65535
        keepAlive :=
          if min (conn.requestCount + 1) 65535 = 1 then
            ((conn.parsedResponse.headers.get (ascii "Keep-Alive")).map parseKeepAliveHeader).getD conn.keepAlive
          else conn.keepAlive } := by
  obtain ⟨hcount, -, halive, -, hinbound⟩ := closeIf_keeps conn (!conn.isBodyComplete)
  have hstays : (conn.closeIf (!conn.isBodyComplete)).shouldKeepAlive = true := by
    unfold shouldKeepAlive
    rw [hinbound]
    exact hkeep
  have hparsed : (conn.closeIf (!conn.isBodyComplete)).parsedResponse = conn.parsedResponse := by
    unfold parsedResponse
    rw [hinbound]
  unfold Client.settle
  dsimp only
  generalize conn.closeIf (!conn.isBodyComplete) = closed at hcount halive hstays hparsed ⊢
  rw [hcount]
  have hstays' : shouldKeepAlive { closed with requestCount := min (conn.requestCount + 1) 65535 } = true := hstays
  have hparsed' : parsedResponse { closed with requestCount := min (conn.requestCount + 1) 65535 } =
      conn.parsedResponse := hparsed
  rw [hstays', if_neg (by decide), hparsed']
  by_cases hone : min (conn.requestCount + 1) 65535 = 1
  · rw [if_pos hone, if_pos hone]
    cases conn.parsedResponse.headers.get (ascii "Keep-Alive") with
    | none =>
        show _ = { closed with requestCount := _, keepAlive := conn.keepAlive }
        rw [← halive]
    | some text => rfl
  · rw [if_neg hone, if_neg hone, ← halive]

theorem settle_closing {conn : ClientConnection L} (hkeep : conn.shouldKeepAlive = false) :
    (Client.settle conn).closing = true ∧ (Client.settle conn).shouldKeepAlive = false ∧
      (Client.settle conn).id = conn.id := by
  obtain ⟨-, -, -, hid, hinbound⟩ := closeIf_keeps conn (!conn.isBodyComplete)
  have hgone : shouldKeepAlive { conn.closeIf (!conn.isBodyComplete) with
      requestCount := min ((conn.closeIf (!conn.isBodyComplete)).requestCount + 1) 65535 } = false := by
    unfold shouldKeepAlive
    rw [hinbound]
    exact hkeep
  unfold Client.settle
  dsimp only
  rw [hgone, if_pos (by decide)]
  exact ⟨rfl, hgone, hid⟩

theorem settle_filed {conn : ClientConnection L} (hkeep : conn.shouldKeepAlive = true) :
    (Client.settle conn).id = conn.id ∧ (Client.settle conn).requestCount = min (conn.requestCount + 1) 65535 ∧
      (Client.settle conn).keepAlive =
        (if min (conn.requestCount + 1) 65535 = 1 then
          ((conn.parsedResponse.headers.get (ascii "Keep-Alive")).map parseKeepAliveHeader).getD conn.keepAlive
        else conn.keepAlive) ∧ (Client.settle conn).idleDeadline = conn.idleDeadline := by
  obtain ⟨-, hdeadline, -, hid, -⟩ := closeIf_keeps conn (!conn.isBodyComplete)
  rw [settle_eq hkeep]
  exact ⟨hid, rfl, rfl, hdeadline⟩

theorem settle_shouldKeepAlive {conn : ClientConnection L} (hkeep : conn.shouldKeepAlive = true) :
    (Client.settle conn).shouldKeepAlive = true := by
  obtain ⟨-, -, -, -, hinbound⟩ := closeIf_keeps conn (!conn.isBodyComplete)
  rw [settle_eq hkeep]
  unfold shouldKeepAlive
  show (conn.closeIf (!conn.isBodyComplete)).inbound.parser.shouldKeepAlive = true
  rw [hinbound]
  exact hkeep

theorem reset_keeps {conn fresh : ClientConnection L} (h : ClientConnection.reset conn = .ok () fresh) :
    fresh.idleDeadline = conn.idleDeadline ∧ fresh.keepAlive = conn.keepAlive ∧
      fresh.requestCount = conn.requestCount ∧ fresh.id = conn.id := by
  obtain ⟨-, rfl⟩ := reset_eq_ok h
  exact ⟨rfl, rfl, rfl, rfl⟩

end ClientConnection

namespace Client

variable {L : Llhttp}

open ClientConnection

/-- What a release to the pool puts there, if anything. -/
inductive Shelved (conn : ClientConnection L) (self self' : Client L) : Prop
  | destroyed (hidle : self'.pool.idle = self.pool.idle) (henlisted : self'.pool.enlisted = self.pool.enlisted)
  | enlisted (fresh : ClientConnection L) (hopen : conn.closing = false)
      (hreset : ClientConnection.reset conn = .ok () fresh) (hpool : self'.pool = (self.pool.enlist conn).append fresh)

theorem releaseToPool_ok {conn : ClientConnection L} {self self' : Client L}
    (h : releaseToPool conn self = .ok () self') :
    Shelved conn self self' ∧ self'.handed = self.handed ∧ self'.nextId = self.nextId := by
  unfold releaseToPool at h
  rw [bind_ok (get_run self)] at h
  split at h
  · cases h
    exact ⟨.destroyed rfl rfl, rfl, rfl⟩
  · next hnot =>
      obtain ⟨r, self₁, hreset, h⟩ := bind_eq_ok.mp h
      obtain rfl : self₁ = { self with resets := self.resets.tail } := by
        cases hreset
        rfl
      cases r with
      | some e =>
          cases h
          exact ⟨.destroyed rfl rfl, rfl, rfl⟩
      | none =>
          obtain ⟨result, self₂, hconn, h⟩ := bind_eq_ok.mp h
          have htouch := onConn_ran (P := fun s => s = { self with resets := self.resets.tail })
            ClientConnection.reset conn
          obtain ⟨rfl, hran⟩ := htouch.ok rfl hconn
          obtain ⟨r, fresh⟩ := result
          cases r with
          | error e =>
              cases h
              exact ⟨.destroyed rfl rfl, rfl, rfl⟩
          | ok u =>
              cases h
              refine ⟨.enlisted fresh ?_ hran rfl, rfl, rfl⟩
              cases hclosing : conn.closing with
              | false => rfl
              | true =>
                  rw [hclosing] at hnot
                  exact absurd rfl hnot

theorem capped_keeps (conn : ClientConnection L) :
    let capped := match conn.keepAlive.max with
      | some max => conn.closeIf (decide (max ≤ conn.requestCount))
      | none => conn
    capped.requestCount = conn.requestCount ∧ capped.idleDeadline = conn.idleDeadline ∧
      capped.keepAlive = conn.keepAlive ∧ capped.id = conn.id ∧
      (capped.closing = false → ∀ max ∈ conn.keepAlive.max, conn.requestCount < max) := by
  cases conn.keepAlive.max with
  | none => exact ⟨rfl, rfl, rfl, rfl, fun _ max hmax => by cases hmax⟩
  | some max =>
      obtain ⟨hcount, hdeadline, hread, hid, -⟩ := closeIf_keeps conn (decide (max ≤ conn.requestCount))
      refine ⟨hcount, hdeadline, hread, hid, fun hopen limit hlimit => ?_⟩
      obtain rfl : max = limit := Option.some.inj hlimit
      by_contra hreached
      have hclosed : (conn.closeIf (decide (max ≤ conn.requestCount))).closing = true := by
        rw [decide_eq_true (Nat.not_lt.mp hreached)]
        rfl
      cases hclosed.symm.trans hopen

/-- A connection as its release files it, at a time. -/
structure Filed (now : ℕ) (conn fresh : ClientConnection L) : Prop where
  id : fresh.id = conn.id
  count : fresh.requestCount = min (conn.requestCount + 1) 65535
  read : fresh.keepAlive =
    if min (conn.requestCount + 1) 65535 = 1 then
      ((conn.parsedResponse.headers.get (ascii "Keep-Alive")).map parseKeepAliveHeader).getD conn.keepAlive
    else conn.keepAlive
  capped : ∀ max ∈ fresh.keepAlive.max, fresh.requestCount < max
  deadline : fresh.idleDeadline =
    fresh.keepAlive.timeout.elim conn.idleDeadline fun timeout => some (now + timeout * 1000000)

/-- What a release makes of the pool. -/
inductive Settled (now : ℕ) (conn : ClientConnection L) (pool pool' : ConnectionPool L) : Prop
  | destroyed (hidle : pool'.idle = pool.idle) (henlisted : pool'.enlisted = pool.enlisted)
  | filed (released fresh : ClientConnection L) (hid : released.id = conn.id) (hfiled : Filed now conn fresh)
      (hpool : pool' = (pool.enlist released).append fresh)

/-- **A release**: the connection is filed, if it comes into the pool. -/
theorem release_ok {conn : ClientConnection L} {self self' : Client L} (h : release conn self = .ok () self') :
    Settled (self.clock self.ticks) conn self.pool self'.pool ∧ self'.handed = self.handed ∧
      self'.nextId = self.nextId := by
  -- what is given to the pool is `parked`; it is filed unless it is closing
  have hpark : ∀ {parked : ClientConnection L} {self₁ : Client L}, self₁.pool = self.pool →
      self₁.handed = self.handed → self₁.nextId = self.nextId → parked.id = conn.id →
      (parked.closing = false → ∀ fresh : ClientConnection L, fresh.id = parked.id →
        fresh.requestCount = parked.requestCount → fresh.keepAlive = parked.keepAlive →
        fresh.idleDeadline = parked.idleDeadline → Filed (self.clock self.ticks) conn fresh) →
      releaseToPool parked self₁ = .ok () self' →
      Settled (self.clock self.ticks) conn self.pool self'.pool ∧ self'.handed = self.handed ∧
        self'.nextId = self.nextId := by
    intro parked self₁ hpool hhanded hnext hid hfiled hrun
    obtain ⟨hshelved, hhanded', hnext'⟩ := releaseToPool_ok hrun
    refine ⟨?_, hhanded'.trans hhanded, hnext'.trans hnext⟩
    cases hshelved with
    | destroyed hidle henlisted => exact .destroyed (hpool ▸ hidle) (hpool ▸ henlisted)
    | enlisted fresh hopen hreset hpool' =>
        obtain ⟨hdeadline, hread, hcount, hid'⟩ := reset_keeps hreset
        exact .filed parked fresh hid (hfiled hopen fresh hid' hcount hread hdeadline) (hpool ▸ hpool')
  unfold release at h
  dsimp only at h
  cases hkeep : conn.shouldKeepAlive with
  | false =>
      obtain ⟨hclosing, hgone, hid⟩ := settle_closing hkeep
      rw [hgone, if_pos (by decide)] at h
      exact hpark rfl rfl rfl hid (fun hopen => by cases hclosing.symm.trans hopen) h
  | true =>
      rw [settle_shouldKeepAlive hkeep, if_neg (by decide)] at h
      obtain ⟨hid, hcount, hread, hdeadline⟩ := settle_filed hkeep
      cases htimeout : (settle conn).keepAlive.timeout with
      | none =>
          rw [htimeout] at h
          obtain ⟨hcount', hdeadline', hread', hid', hcapped⟩ := capped_keeps (settle conn)
          refine hpark rfl rfl rfl (hid'.trans hid) (fun hopen fresh hid₁ hcount₁ hread₁ hdeadline₁ => ?_) h
          have hlast := hread₁.trans hread'
          refine ⟨hid₁.trans (hid'.trans hid), hcount₁.trans (hcount'.trans hcount), hlast.trans hread, ?_, ?_⟩
          · rw [hlast, hcount₁.trans hcount']
            exact hcapped hopen
          · rw [hlast, htimeout]
            exact hdeadline₁.trans (hdeadline'.trans hdeadline)
      | some timeout =>
          rw [htimeout] at h
          obtain ⟨hcount', hdeadline', hread', hid', hcapped⟩ :=
            capped_keeps { settle conn with idleDeadline := some (self.clock self.ticks + timeout * 1000000) }
          refine @hpark _ { self with ticks := self.ticks + 1 } rfl rfl rfl (hid'.trans hid)
            (fun hopen fresh hid₁ hcount₁ hread₁ hdeadline₁ => ?_) h
          have hlast := hread₁.trans hread'
          refine ⟨hid₁.trans (hid'.trans hid), hcount₁.trans (hcount'.trans hcount), hlast.trans hread, ?_, ?_⟩
          · rw [hlast, hcount₁.trans hcount']
            exact hcapped hopen
          · rw [hlast]
            show _ = (settle conn).keepAlive.timeout.elim _ _
            rw [htimeout]
            exact hdeadline₁.trans hdeadline'

end Client
end Dusty
