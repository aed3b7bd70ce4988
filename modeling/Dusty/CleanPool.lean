import Dusty.ClientHops
import Dusty.Http1
import Dusty.Releases
import Mathlib.Logic.Relation

/-! # What comes into the pool

A connection may be used again when the last response was read to its end and permits it.
`Connection.release` and the redirects see to that; an error behind the response's header section does not
always, and then exactly the responses that are not `Decent` bring their connections into the pool
(`considerHead_vetted_iff`, `pool_clean`). -/

namespace Dusty

open Act

variable {L : Llhttp}

namespace ClientConnection

/-- The last response was read to its end, and permits another request. -/
structure Reusable (conn : ClientConnection L) : Prop where
  complete : conn.isBodyComplete = true
  keepAlive : conn.shouldKeepAlive = true

/-- The connection may be given to the pool, which closes it if it is `closing`. -/
def Vetted (conn : ClientConnection L) : Prop := conn.closing = true ∨ conn.Reusable

theorem Reusable.of_inbound {conn conn' : ClientConnection L} (h : conn.Reusable)
    (hinbound : conn'.inbound = conn.inbound) : conn'.Reusable := by
  refine ⟨?_, ?_⟩
  · unfold isBodyComplete
    rw [hinbound]
    exact h.complete
  · unfold shouldKeepAlive
    rw [hinbound]
    exact h.keepAlive

theorem Vetted.closeIf {conn : ClientConnection L} (h : conn.Vetted) (b : Bool) : (conn.closeIf b).Vetted := by
  cases b with
  | true => exact .inl rfl
  | false => exact h

/-- **What `settle` leaves** may be given to the pool. -/
theorem vetted_settle (conn : ClientConnection L) : (Client.settle conn).Vetted := by
  cases hkeep : conn.shouldKeepAlive with
  | false => exact .inl (settle_closing hkeep).1
  | true =>
      rw [settle_eq hkeep]
      cases hcomplete : conn.isBodyComplete with
      | false => exact .inl rfl
      | true => exact .inr (Reusable.of_inbound ⟨hcomplete, hkeep⟩ rfl)

end ClientConnection

namespace ConnectionPool

theorem acquire_keeps {self : ConnectionPool L} {now : ℕ} {wanted : ClientConnection L → Bool}
    {conn : ClientConnection L} (h : conn ∈ self.idle) :
    conn ∈ (self.acquire now wanted).2.idle ∨ (self.acquire now wanted).1 = some conn ∨
      conn.id ∈ (self.acquire now wanted).2.destroyed := by
  have hmem := (search_perm now wanted self.idle.reverse).symm.subset (List.mem_reverse.mpr h)
  rw [acquire_eq_take, foldl_destroy]
  show conn ∈ (search now wanted self.idle.reverse).2.2.reverse ∨
    (search now wanted self.idle.reverse).1 = some conn ∨
      conn.id ∈ self.destroyed ++ (search now wanted self.idle.reverse).2.1.map (·.id)
  rcases List.mem_append.mp hmem with hkept | hrest
  · exact .inl (List.mem_reverse.mpr hkept)
  · rcases List.mem_append.mp hrest with hgone | hfound
    · exact .inr (.inr (List.mem_append_right _ (List.mem_map.mpr ⟨conn, hgone, rfl⟩)))
    · exact .inr (.inl (Option.mem_toList.mp hfound))

theorem acquire_destroyed {self : ConnectionPool L} {now : ℕ} {wanted : ClientConnection L → Bool} {i : ℕ}
    (h : i ∈ self.destroyed) : i ∈ (self.acquire now wanted).2.destroyed := by
  rw [acquire_eq_take, foldl_destroy]
  exact List.mem_append_left _ h

theorem append_keeps {self : ConnectionPool L} {conn fresh : ClientConnection L} (h : conn ∈ self.idle ++ [fresh]) :
    conn ∈ (self.append fresh).idle ∨ conn.id ∈ (self.append fresh).destroyed := by
  rw [append_eq_put, foldl_destroy]
  show conn ∈ (self.put fresh).2.idle ∨
    conn.id ∈ (self.put fresh).2.destroyed ++ (self.put fresh).1.toList.map (·.id)
  by_cases hfull : self.maxIdle ≤ self.idleLen
  · cases hidle : self.idle with
    | nil =>
        have hput : (self.put fresh).2.idle = self.idle ++ [fresh] := by
          unfold put
          rw [if_pos hfull, hidle]
          exact congrArg (· ++ [fresh]) hidle
        exact .inl (hput ▸ h)
    | cons old rest =>
        rw [put_full self fresh hfull hidle]
        rw [hidle] at h
        rcases List.mem_cons.mp h with rfl | h
        · exact .inr (List.mem_append_right _ List.mem_cons_self)
        · exact .inl h
  · rw [put_room self fresh (Nat.lt_of_not_le hfull)]
    exact .inl h

theorem append_destroyed {self : ConnectionPool L} {fresh : ClientConnection L} {i : ℕ} (h : i ∈ self.destroyed) :
    i ∈ (self.append fresh).destroyed := by
  have hput : (self.put fresh).2.destroyed = self.destroyed := by
    by_cases hfull : self.maxIdle ≤ self.idleLen
    · unfold put
      rw [if_pos hfull]
      cases self.idle <;> rfl
    · rw [put_room self fresh (Nat.lt_of_not_le hfull)]
  rw [append_eq_put, foldl_destroy]
  exact List.mem_append_left _ (hput ▸ h)

end ConnectionPool

/-! ### The responses -/

namespace Client

open ClientConnection

/-- The response is in an encoding that is not supported. -/
def refuses (state : FetchState) (conn : ClientConnection L) : Bool :=
  state.options.decompress && conn.parsedResponse.contentEncoding == .unknown

/-- The response redirects to where no request can be sent. -/
def Misleads (state : FetchState) (redirectsRemaining : ℕ) (conn : ClientConnection L) : Prop :=
  (300 ≤ conn.parsedResponse.status.code ∧ conn.parsedResponse.status.code < 400 ∧ 0 < redirectsRemaining) ∧
    ∃ location e, conn.parsedResponse.headers.get (ascii "Location") = some location ∧
      locate state.uri location = .error e

/-- A response in such an encoding has a body to be read or permits another request; one that redirects to
nowhere has none left and permits another request. -/
structure Decent (state : FetchState) (redirectsRemaining : ℕ) (conn : ClientConnection L) : Prop where
  encoding : refuses state conn = true → conn.isBodyComplete = true → conn.shouldKeepAlive = true
  location : refuses state conn = false → Misleads state redirectsRemaining conn → conn.Reusable

/-- If this is an error, the connection may be given to the pool. -/
def Excused (f : Fault) (conn : ClientConnection L) : Prop := ∀ e, f = .err e → conn.Vetted

/-- **A redirect** lets go of a connection that may be given to the pool. -/
theorem drainRedirect_vetted : Triple (fun _ => True) (drainRedirect : Act (ClientConnection L) Unit)
    (fun _ conn => conn.Vetted) Excused := by
  refine triple_get_bind fun self => Triple.bind
    (Q := fun _ conn => conn.closing = true ∨ conn.isBodyComplete = true) ?_ fun _ =>
      triple_get_bind fun self => triple_modify fun conn h => ?_
  · intro conn hconn
    obtain ⟨-, rfl⟩ := hconn
    cases hcomplete : conn.isBodyComplete with
    | true => exact .inr hcomplete
    | false =>
        rw [Bool.not_false, when_true]
        cases hrun : onInbound (Inbound.discardShort .response 1024 2049) conn with
        | ok n c =>
            rw [bind_ok (attempt_ok hrun)]
            show (c.closeIf (!c.isBodyComplete)).closing = true ∨ (c.closeIf (!c.isBodyComplete)).isBodyComplete = true
            cases hread : c.isBodyComplete with
            | true => exact .inr hread
            | false => exact .inl rfl
        | error f c =>
            cases f with
            | err e =>
                rw [bind_ok (attempt_error hrun)]
                exact fun _ _ => .inl rfl
            | panic p =>
                have hattempt : Act.attempt (onInbound (Inbound.discardShort .response 1024 2049)) conn =
                    .error (.panic p) c := by
                  unfold Act.attempt
                  rw [hrun]
                rw [bind_error hattempt]
                exact fun _ h => by cases h
  · obtain ⟨h, rfl⟩ := h
    cases hkeep : conn.shouldKeepAlive with
    | false => exact .inl rfl
    | true =>
        rcases h with hclosing | hcomplete
        · exact .inl hclosing
        · exact .inr ⟨hcomplete, hkeep⟩

/-- What is done about a response. -/
inductive Considered (state : FetchState) (redirectsRemaining : ℕ) (conn : ClientConnection L) :
    Except Error (Option RedirectTarget) → ClientConnection L → Prop
  | refused {e} (hrefuses : refuses state conn = true) :
      Considered state redirectsRemaining conn (.error e) (conn.closeIf (!conn.isBodyComplete))
  | misled {e} (hrefuses : refuses state conn = false) (h : Misleads state redirectsRemaining conn) :
      Considered state redirectsRemaining conn (.error e) conn
  | returned (hrefuses : refuses state conn = false) (h : ¬Misleads state redirectsRemaining conn) :
      Considered state redirectsRemaining conn (.ok none) conn
  | followed {r conn'} (hrefuses : refuses state conn = false) (h : ¬Misleads state redirectsRemaining conn)
      (hvetted : conn'.Vetted) : Considered state redirectsRemaining conn r conn'

theorem considerHead_cases {state : FetchState} {redirectsRemaining : ℕ} {conn : ClientConnection L}
    {result : Except Error (Option RedirectTarget) × ClientConnection L}
    (h : Ran (considerHead state redirectsRemaining) conn result) :
    Considered state redirectsRemaining conn result.1 result.2 := by
  have htriple : Triple (fun c => c = conn) (considerHead state redirectsRemaining)
      (fun r c => Considered state redirectsRemaining conn (.ok r) c)
      fun f c => ∀ e, f = .err e → Considered state redirectsRemaining conn (.error e) c := by
    refine triple_get_bind fun self => ?_
    intro c hc
    obtain ⟨rfl, rfl⟩ := hc
    cases hrefuses : refuses state c with
    | true =>
        unfold refuses at hrefuses
        rw [if_pos hrefuses]
        exact fun e _ => .refused hrefuses
    | false =>
        have hnot := hrefuses
        unfold refuses at hnot
        rw [if_neg (Bool.eq_false_iff.mp hnot)]
        unfold findRedirect
        rw [bind_ok (get_run c)]
        dsimp only
        by_cases hredirect : 300 ≤ c.parsedResponse.status.code ∧
            c.parsedResponse.status.code < 400 ∧ 0 < redirectsRemaining
        · rw [if_pos hredirect]
          cases hlocation : c.parsedResponse.headers.get (ascii "Location") with
          | none =>
              refine .returned hrefuses fun hmisleads => ?_
              obtain ⟨-, location, e, hsome, -⟩ := hmisleads
              cases hlocation.symm.trans hsome
          | some location =>
              dsimp only
              cases hlocate : locate state.uri location with
              | error e => exact fun e' _ => .misled hrefuses ⟨hredirect, location, e, hlocation, hlocate⟩
              | ok target =>
                  have hleads : ¬Misleads state redirectsRemaining c := by
                    rintro ⟨-, location', e, hsome, herror⟩
                    obtain rfl := Option.some.inj (hlocation.symm.trans hsome)
                    cases hlocate.symm.trans herror
                  obtain ⟨uri, port, protocol⟩ := target
                  have hdrain : Triple (fun _ => True) (drainRedirect : Act (ClientConnection L) Unit)
                      (fun _ c' => ∀ r, Considered state redirectsRemaining c r c')
                      fun f c' => ∀ e, f = .err e → Considered state redirectsRemaining c (.error e) c' :=
                    drainRedirect_vetted.weaken (fun _ h => h) (fun _ _ h _ => .followed hrefuses hleads h)
                      fun _ _ h e he => .followed hrefuses hleads (h e he)
                  exact (hdrain.bind fun _ => triple_pure
                    (a := some (RedirectTarget.mk c.parsedResponse.status.code uri port protocol)) fun _ h => h _)
                    c trivial
        · rw [if_neg hredirect]
          exact .returned hrefuses fun hmisleads => hredirect hmisleads.1
  obtain ⟨r, conn'⟩ := result
  cases r with
  | ok target => exact htriple.ok rfl h
  | error e => exact htriple.error rfl h e rfl

/-- **What is done about a decent response** leaves a connection that may be given to the pool. -/
theorem considerHead_vetted {state : FetchState} {redirectsRemaining : ℕ} {conn : ClientConnection L}
    {result : Except Error (Option RedirectTarget) × ClientConnection L}
    (h : Ran (considerHead state redirectsRemaining) conn result) (hdecent : Decent state redirectsRemaining conn)
    (hreleased : result.1 ≠ .ok none) : result.2.Vetted := by
  obtain ⟨r, conn'⟩ := result
  cases considerHead_cases h with
  | refused hrefuses =>
      cases hcomplete : conn.isBodyComplete with
      | false => exact .inl rfl
      | true => exact .inr ⟨hcomplete, hdecent.encoding hrefuses hcomplete⟩
  | misled hrefuses hmisleads => exact .inr (hdecent.location hrefuses hmisleads)
  | returned => exact absurd rfl hreleased
  | followed hrefuses hleads hvetted => exact hvetted

/-- **What is done about any other** does not. -/
theorem considerHead_vetted_iff {state : FetchState} {redirectsRemaining : ℕ} {conn : ClientConnection L}
    {result : Except Error (Option RedirectTarget) × ClientConnection L}
    (h : Ran (considerHead state redirectsRemaining) conn result) (hopen : conn.closing = false)
    (hreleased : result.1 ≠ .ok none) : result.2.Vetted ↔ Decent state redirectsRemaining conn := by
  refine ⟨fun hvetted => ?_, fun hdecent => considerHead_vetted h hdecent hreleased⟩
  obtain ⟨r, conn'⟩ := result
  cases considerHead_cases h with
  | refused hrefuses =>
      refine ⟨fun _ hcomplete => ?_, fun hnot => by cases hrefuses.symm.trans hnot⟩
      rw [hcomplete] at hvetted
      rcases hvetted with hclosing | hreusable
      · cases hopen.symm.trans hclosing
      · exact hreusable.keepAlive
  | misled hrefuses hmisleads =>
      rcases hvetted with hclosing | hreusable
      · cases hopen.symm.trans hclosing
      · exact ⟨fun htrue => (by cases hrefuses.symm.trans htrue), fun _ _ => hreusable⟩
  | returned => exact absurd rfl hreleased
  | followed hrefuses hleads hvetted =>
      exact ⟨fun htrue => (by cases hrefuses.symm.trans htrue), fun _ hmisleads => absurd hmisleads hleads⟩

/-! ### Calls -/

/-- What is idle was reusable when the pool got it, and no connection is lost: what is neither idle nor in
these hands was closed. -/
structure Tidy (hands : List (ClientConnection L)) (client : Client L) : Prop where
  reusable : ∀ released ∈ client.pool.enlisted, released.Reusable
  idle : ∀ conn ∈ client.pool.idle,
    ∃ released ∈ client.pool.enlisted, ClientConnection.reset released = .ok () conn
  counted : ∀ i < client.nextId, (∃ conn ∈ client.pool.idle ++ hands, conn.id = i) ∨ i ∈ client.pool.destroyed

section tidy
variable {hands : List (ClientConnection L)}

theorem Tidy.congr {self other : Client L} (h : self.Tidy hands) (hpool : other.pool = self.pool)
    (hnext : other.nextId = self.nextId) : other.Tidy hands := by
  refine ⟨?_, ?_, ?_⟩
  · rw [hpool]
    exact h.reusable
  · rw [hpool]
    exact h.idle
  · rw [hpool, hnext]
    exact h.counted

theorem Tidy.map {self : Client L} {hands' : List (ClientConnection L)} (h : self.Tidy hands)
    (hsub : ∀ conn ∈ hands, ∃ conn' ∈ hands', conn'.id = conn.id) : self.Tidy hands' := by
  refine ⟨h.reusable, h.idle, fun i hi => ?_⟩
  rcases h.counted i hi with ⟨conn, hconn, hid⟩ | hgone
  · rcases List.mem_append.mp hconn with hconn | hconn
    · exact .inl ⟨conn, List.mem_append_left _ hconn, hid⟩
    · obtain ⟨conn', hconn', hsame⟩ := hsub conn hconn
      exact .inl ⟨conn', List.mem_append_right _ hconn', hsame.trans hid⟩
  · exact .inr hgone

theorem Tidy.use {self : Client L} {conn conn' : ClientConnection L} (h : self.Tidy (conn :: hands))
    (hid : conn'.id = conn.id) : self.Tidy (conn' :: hands) := by
  refine h.map fun other hother => ?_
  rcases List.mem_cons.mp hother with rfl | hother
  · exact ⟨conn', List.mem_cons_self, hid⟩
  · exact ⟨other, List.mem_cons_of_mem _ hother, rfl⟩

theorem Tidy.destroy {self : Client L} {conn gone : ClientConnection L} (h : self.Tidy (conn :: hands))
    (hid : gone.id = conn.id) : (self.setPool (self.pool.destroy gone)).Tidy hands := by
  refine ⟨h.reusable, h.idle, fun i hi => ?_⟩
  rcases h.counted i hi with ⟨other, hother, hsame⟩ | hgone
  · rcases List.mem_append.mp hother with hother | hother
    · exact .inl ⟨other, List.mem_append_left _ hother, hsame⟩
    · rcases List.mem_cons.mp hother with rfl | hother
      · exact .inr (List.mem_append_right _ (List.mem_singleton.mpr (hsame ▸ hid.symm)))
      · exact .inl ⟨other, List.mem_append_right _ hother, hsame⟩
  · exact .inr (List.mem_append_left _ hgone)

theorem Tidy.append {self : Client L} {conn fresh : ClientConnection L} (h : self.Tidy (conn :: hands))
    (hreusable : conn.Reusable) (hreset : ClientConnection.reset conn = .ok () fresh) :
    (self.setPool ((self.pool.enlist conn).append fresh)).Tidy hands := by
  obtain ⟨-, -, -, hid⟩ := reset_keeps hreset
  have henlisted : ((self.pool.enlist conn).append fresh).enlisted = self.pool.enlisted ++ [conn] :=
    ConnectionPool.append_enlisted _ fresh
  have hstays : ∀ other ∈ self.pool.idle ++ [fresh], other ∈ ((self.pool.enlist conn).append fresh).idle ∨
      other.id ∈ ((self.pool.enlist conn).append fresh).destroyed := fun other hother =>
    @ConnectionPool.append_keeps L (self.pool.enlist conn) other fresh hother
  refine ⟨fun released hreleased => ?_, fun other hother => ?_, fun i hi => ?_⟩
  · change released ∈ ((self.pool.enlist conn).append fresh).enlisted at hreleased
    rw [henlisted] at hreleased
    rcases List.mem_append.mp hreleased with hreleased | hreleased
    · exact h.reusable released hreleased
    · obtain rfl := List.mem_singleton.mp hreleased
      exact hreusable
  · show ∃ released ∈ ((self.pool.enlist conn).append fresh).enlisted, _
    rw [henlisted]
    rcases ConnectionPool.mem_of_mem_append hother with hother | rfl
    · obtain ⟨released, hreleased, hsame⟩ := h.idle other hother
      exact ⟨released, List.mem_append_left _ hreleased, hsame⟩
    · exact ⟨conn, List.mem_append_right _ (List.mem_singleton_self _), hreset⟩
  · have hplace : ∀ other ∈ self.pool.idle ++ [fresh], other.id = i →
        (∃ held ∈ ((self.pool.enlist conn).append fresh).idle ++ hands, held.id = i) ∨
          i ∈ ((self.pool.enlist conn).append fresh).destroyed := by
      intro other hother hsame
      rcases hstays other hother with hidle | hgone
      · exact .inl ⟨other, List.mem_append_left _ hidle, hsame⟩
      · exact .inr (hsame ▸ hgone)
    rcases h.counted i hi with ⟨other, hother, hsame⟩ | hgone
    · rcases List.mem_append.mp hother with hother | hother
      · exact hplace other (List.mem_append_left _ hother) hsame
      · rcases List.mem_cons.mp hother with rfl | hother
        · exact hplace fresh (List.mem_append_right _ (List.mem_singleton_self _)) (hid.trans hsame)
        · exact .inl ⟨other, List.mem_append_right _ hother, hsame⟩
    · exact .inr (@ConnectionPool.append_destroyed L (self.pool.enlist conn) fresh i hgone)

/-- An error loses no connection. -/
def Spilt (hands : List (ClientConnection L)) (f : Fault) (client : Client L) : Prop :=
  ∀ e, f = .err e → client.Tidy hands

theorem Keeps.spilt {α : Type} {x : Act (Client L) α} (h : Keeps (Tidy hands) x) :
    Triple (Tidy hands) x (fun _ => Tidy hands) (Spilt hands) :=
  Triple.weaken h (fun _ h => h) (fun _ _ h => h) fun _ _ h _ _ => h

theorem Tidy.alike {self other : Client L} (h : self.Tidy hands) (halike : Alike self other) : other.Tidy hands :=
  h.congr halike.pool halike.nextId

/-- A connection is taken into the hands. -/
def Took (hands : List (ClientConnection L)) (conn : ClientConnection L) (self : Client L) : Prop :=
  self.Tidy (conn :: hands)

theorem Tidy.dial {self : Client L} {conn : ClientConnection L} {dials : List (Except Error Dial)}
    (h : self.Tidy hands) (hid : conn.id = self.nextId) :
    { self with dials := dials, nextId := self.nextId + 1 }.Tidy (conn :: hands) := by
  refine ⟨h.reusable, h.idle, fun i hi => ?_⟩
  rcases Nat.lt_succ_iff_lt_or_eq.mp hi with hi | rfl
  · rcases h.counted i hi with ⟨other, hother, hsame⟩ | hgone
    · refine .inl ⟨other, ?_, hsame⟩
      rcases List.mem_append.mp hother with hother | hother
      · exact List.mem_append_left _ hother
      · exact List.mem_append_right _ (List.mem_cons_of_mem _ hother)
    · exact .inr hgone
  · exact .inl ⟨conn, List.mem_append_right _ List.mem_cons_self, hid⟩

theorem Tidy.acquire {self other : Client L} {t : ℕ} {wanted : ClientConnection L → Bool}
    {hands' : List (ClientConnection L)} (h : self.Tidy hands)
    (hpool : other.pool = (self.pool.acquire t wanted).2) (hnext : other.nextId = self.nextId)
    (hsub : ∀ conn ∈ hands, conn ∈ hands')
    (hfound : ∀ conn, (self.pool.acquire t wanted).1 = some conn → conn ∈ hands') : other.Tidy hands' := by
  refine ⟨?_, ?_, fun i hi => ?_⟩
  · rw [hpool, self.pool.acquire_enlisted]
    exact h.reusable
  · rw [hpool, self.pool.acquire_enlisted]
    exact fun conn hconn => h.idle conn (ConnectionPool.mem_of_mem_acquire hconn)
  · rw [hpool]
    rcases h.counted i (hnext ▸ hi) with ⟨conn, hconn, hid⟩ | hgone
    · rcases List.mem_append.mp hconn with hconn | hconn
      · rcases ConnectionPool.acquire_keeps hconn with hstays | htaken | hgone
        · exact .inl ⟨conn, List.mem_append_left _ hstays, hid⟩
        · exact .inl ⟨conn, List.mem_append_right _ (hfound conn htaken), hid⟩
        · exact .inr (hid ▸ hgone)
      · exact .inl ⟨conn, List.mem_append_right _ (hsub conn hconn), hid⟩
    · exact .inr (ConnectionPool.acquire_destroyed hgone)

/-- **A connection is acquired.** -/
theorem acquireConnection_tidy (host : Bytes) (port : ℕ) (protocol : Protocol) (unixSocketPath : Option Bytes) :
    Triple (Tidy hands)
      (acquireConnection host port protocol unixSocketPath : Act (Client L) (ClientConnection L))
      (Took hands) fun _ => Tidy hands := by
  refine triple_acquireConnection Tidy.alike (fun self t conn h hfound => ?_) (fun self t h hnone => ?_)
    fun _ _ _ h => h.dial rfl
  · refine h.acquire rfl rfl (fun _ h => List.mem_cons_of_mem _ h) fun other hother => ?_
    obtain rfl := Option.some.inj (hfound.symm.trans hother)
    exact List.mem_cons_self
  · refine h.acquire rfl rfl (fun _ h => h) fun other hother => ?_
    cases hnone.symm.trans hother

/-- **A release to the pool.** -/
theorem releaseToPool_tidy {conn : ClientConnection L} (hvetted : conn.Vetted) :
    Triple (Tidy (conn :: hands)) (releaseToPool conn) (fun _ => Tidy hands) (Spilt hands) := by
  refine (triple_releaseToPool (R := Tidy hands) Tidy.alike (fun _ h => h.destroy rfl)
    fun self fresh h hopen hreset => ?_).weaken (fun _ h => h) (fun _ _ h => h) ?_
  · rcases hvetted with hclosing | hreusable
    · cases hopen.symm.trans hclosing
    · exact h.append hreusable hreset
  · rintro f client ⟨rfl, -⟩ e he
    cases he

/-- **A released response.** -/
theorem release_tidy (conn : ClientConnection L) :
    Triple (Tidy (conn :: hands)) (release conn) (fun _ => Tidy hands) (Spilt hands) := by
  have hvetted := vetted_settle conn
  have hid : (settle conn).id = conn.id := by
    cases hkeep : conn.shouldKeepAlive with
    | false => exact (settle_closing hkeep).2.2
    | true => exact (settle_filed hkeep).1
  have hgive : ∀ parked : ClientConnection L, parked.Vetted → parked.id = conn.id →
      Triple (Tidy (conn :: hands)) (releaseToPool parked) (fun _ => Tidy hands) (Spilt hands) :=
    fun parked hparked hsame =>
      (releaseToPool_tidy hparked).weaken (fun _ h => h.use hsame) (fun _ _ h => h) fun _ _ h => h
  have hcapped : ∀ parked capped : ClientConnection L, parked.Vetted → parked.id = conn.id →
      capped = parked ∨ (∃ reached, capped = parked.closeIf reached) →
      Triple (Tidy (conn :: hands)) (releaseToPool capped) (fun _ => Tidy hands) (Spilt hands) := by
    rintro parked capped hparked hsame (rfl | ⟨reached, rfl⟩)
    · exact hgive capped hparked hsame
    · exact hgive _ (hparked.closeIf reached) ((closeIf_keeps parked reached).2.2.2.1.trans hsame)
  unfold release
  dsimp only
  split
  · exact hgive _ hvetted hid
  · split
    · next timeout _ =>
        refine Triple.bind (Keeps.spilt (keeps_now Tidy.alike)) fun t =>
          hcapped { settle conn with idleDeadline := some (t + timeout * 1000000) } _
            (hvetted.imp_right fun hreusable => hreusable.of_inbound rfl) hid ?_
        split
        · exact .inr ⟨_, rfl⟩
        · exact .inl rfl
    · refine hcapped (settle conn) _ hvetted hid ?_
      split
      · exact .inr ⟨_, rfl⟩
      · exact .inl rfl

/-- The use of a connection that is held ends with an error only by a panic. -/
theorem onConn_spilt {α : Type} (x : Act (ClientConnection L) α) (conn : ClientConnection L) :
    Triple (Tidy (conn :: hands)) (onConn x conn) (fun result self => self.Tidy (conn :: hands) ∧ Ran x conn result)
      (Spilt hands) := by
  intro self hself
  unfold onConn
  cases hrun : x conn with
  | ok a conn' => exact ⟨hself, hrun⟩
  | error e conn' =>
      cases e with
      | err e => exact ⟨hself, hrun⟩
      | panic p => exact fun _ h => by cases h

/-- What one request returns. -/
def Held (hands : List (ClientConnection L)) : ClientResponse L ⊕ FetchState → Client L → Prop
  | .inl response => Tidy (response.conn :: hands)
  | .inr _ => Tidy hands

theorem afterExchange_tidy (state : FetchState) (host : Bytes) (maxResponseSize : ℕ)
    (result : Except Error (Option RedirectTarget) × ClientConnection L)
    (hvetted : result.1 ≠ .ok none → result.2.Vetted) :
    Triple (Tidy (result.2 :: hands)) (afterExchange state host maxResponseSize result) (Held hands)
      (Spilt hands) := by
  obtain ⟨r, conn⟩ := result
  cases r with
  | error e =>
      rw [afterExchange]
      exact Triple.bind (releaseToPool_tidy (hvetted (by simp))) fun _ => triple_fail fun _ h _ _ => h
  | ok target =>
      cases target with
      | none =>
          rw [afterExchange]
          exact triple_pure fun self hself => hself
      | some target =>
          rw [afterExchange]
          exact Triple.bind (releaseToPool_tidy (hvetted (by simp))) fun _ =>
            Triple.bind (Keeps.spilt (keeps_orFail _)) fun next => triple_pure fun self hself => hself

/-- A request that fails before the response's header section is there leaves its connection closing. -/
theorem requestHead_closing (opts : WriteRequestOptions) : Triple (fun _ => True)
    (requestHead opts : Act (ClientConnection L) Unit) (fun _ _ => True)
    fun f conn => ∀ e, f = .err e → conn.closing = true := by
  have hwrite : ∀ x : Act Conn Unit, Triple (fun _ => True) (Act.onError close (onWriter x))
      (fun _ (_ : ClientConnection L) => True) fun f conn => ∀ e, f = .err e → conn.closing = true := fun x =>
    Triple.onError (E := fun _ _ => True) (keeps_of_forall fun _ => trivial) fun _ _ _ _ _ => rfl
  refine (hwrite _).bind fun _ => (hwrite _).bind fun _ => ?_
  intro conn _
  unfold receiveHeaders
  cases hrun : onInbound Inbound.parseResponseHeaders conn with
  | ok u c =>
      rw [bind_ok (attempt_ok hrun)]
      trivial
  | error f c =>
      cases f with
      | err e =>
          rw [bind_ok (attempt_error hrun)]
          exact fun _ _ => rfl
      | panic p =>
          have hattempt : Act.attempt (onInbound Inbound.parseResponseHeaders) conn = .error (.panic p) c := by
            unfold Act.attempt
            rw [hrun]
          rw [bind_error hattempt]
          exact fun _ h => by cases h

/-- **An exchange whose response is decent.** -/
theorem exchange_vetted {state : FetchState} {opts : WriteRequestOptions} {redirectsRemaining : ℕ}
    {conn : ClientConnection L}
    (hdecent : ∀ conn', requestHead opts conn = .ok () conn' → Decent state redirectsRemaining conn')
    {result : Except Error (Option RedirectTarget) × ClientConnection L}
    (h : Ran (exchange state opts redirectsRemaining) conn result) (hreleased : result.1 ≠ .ok none) :
    result.2.Vetted := by
  obtain ⟨r, conn'⟩ := result
  cases hhead : requestHead opts conn with
  | ok u c =>
      have hran : Ran (considerHead state redirectsRemaining) c (r, conn') := by
        cases r <;>
        · change exchange state opts redirectsRemaining conn = _ at h
          rw [exchange_eq, bind_ok hhead] at h
          exact h
      exact considerHead_vetted hran (hdecent c hhead) hreleased
  | error f c =>
      have hclosing := (requestHead_closing opts).error trivial hhead
      cases r <;> change exchange state opts redirectsRemaining conn = _ at h
      · rw [exchange_eq, bind_error hhead] at h
        cases h
        exact .inl (hclosing _ rfl)
      · rw [exchange_eq, bind_error hhead] at h
        cases h

/-- The response to the request is decent, if there is one. -/
def DecentHop (state : FetchState) (redirectsRemaining : ℕ) (client : Client L) : Prop :=
  ∀ host conn client' conn', startHop state client = .ok (host, conn) client' → conn.httpVersion ≠ .http2 →
    requestHead (requestOptions state host client'.config.userAgent) conn = .ok () conn' →
    Decent state redirectsRemaining conn'

/-- **One request.** -/
theorem fetchHop_tidy {state : FetchState} {redirectsRemaining : ℕ} :
    Triple (fun client : Client L => client.Tidy hands ∧ DecentHop state redirectsRemaining client)
      (fetchHop state redirectsRemaining) (Held hands) (Spilt hands) := by
  have hstart : Triple (Tidy hands) (startHop state : Act (Client L) _) (fun start => Took hands start.2)
      fun _ => Tidy hands :=
    Triple.bind (keeps_orFail _) fun host => Triple.bind (keeps_prepareTls Tidy.alike _) fun _ =>
      Triple.bind (acquireConnection_tidy _ _ _ _) fun conn => triple_pure fun _ h => h
  intro client hclient
  obtain ⟨htidy, hdecent⟩ := hclient
  rw [fetchHop_eq]
  cases hrun : startHop state client with
  | error f client' =>
      rw [bind_error hrun]
      exact fun _ _ => hstart.error htidy hrun
  | ok start client' =>
      rw [bind_ok hrun]
      obtain ⟨host, conn⟩ := start
      have htook : client'.Tidy (conn :: hands) := hstart.ok htidy hrun
      have hdecent' := hdecent host conn client'
      unfold finishHop
      dsimp only
      rw [bind_ok (get_run client')]
      by_cases hversion : conn.httpVersion = .http2
      · rw [if_pos hversion]
        have hclosed : Triple (Took hands conn) (releaseToPool conn.close) (fun _ => Tidy hands) (Spilt hands) :=
          (releaseToPool_tidy (.inl rfl)).weaken (fun _ h => Tidy.use h rfl) (fun _ _ h => h) fun _ _ h => h
        have hrefused : Triple (Took hands conn)
            (releaseToPool conn.close >>= fun _ => Act.fail .http2NotImplemented) (Held hands) (Spilt hands) :=
          hclosed.bind fun _ => triple_fail fun _ h _ _ => h
        exact hrefused client' htook
      · rw [if_neg hversion]
        have hsteady : ClientConnection.Steady (fun c : ClientConnection L => c.id = conn.id) :=
          ⟨fun _ h => h, fun _ h => h, fun h => h⟩
        have hvetted : ∀ result, Ran (exchange state (requestOptions state host client'.config.userAgent)
            redirectsRemaining) conn result → result.1 ≠ .ok none → result.2.Vetted := fun result hran =>
          exchange_vetted (fun conn' => hdecent' conn' hrun hversion) hran
        rw [bind_ok (modify_run _ _)]
        have hsent : (client'.sends (requestOptions state host client'.config.userAgent) conn.writer).Tidy
            (conn :: hands) := htook.congr rfl rfl
        refine Triple.bind (onConn_spilt _ conn) (fun result => ?_) _ hsent
        intro s hs
        obtain ⟨hs, hran⟩ := hs
        have hid := hran.keeps (hsteady.exchange _ _ _) rfl
        exact afterExchange_tidy state host _ result (hvetted result hran) s (hs.use hid)

/-- All responses to the requests of the call are decent. -/
def DecentCall (url : Bytes) (options : FetchOptions) (client : Client L) : Prop :=
  ∀ state redirectsRemaining c, Hops url options client state redirectsRemaining c →
    DecentHop state redirectsRemaining c

theorem fetchInternal_tidy {url : Bytes} {options : FetchOptions} {client : Client L}
    (hdecent : DecentCall url options client) (redirectsRemaining : ℕ) (state : FetchState) :
    Triple (fun c => c.Tidy hands ∧ Hops url options client state redirectsRemaining c)
      (fetchInternal redirectsRemaining state) (fun response => Took hands response.conn) (Spilt hands) := by
  have hhop : ∀ (n : ℕ) (state : FetchState) (c : Client L), c.Tidy hands →
      Hops url options client state n c → _ := fun n state c htidy hhops =>
    (@fetchHop_tidy L hands state n) c ⟨htidy, hdecent state n c hhops⟩
  induction redirectsRemaining generalizing state with
  | zero =>
      intro c hc
      have hfirst := hhop 0 state c hc.1 hc.2
      unfold fetchInternal
      cases hrun : fetchHop state 0 c with
      | error f c' =>
          rw [hrun] at hfirst
          rw [bind_error hrun]
          exact hfirst
      | ok result c' =>
          rw [hrun] at hfirst
          rw [bind_ok hrun]
          cases result with
          | inl response => exact hfirst
          | inr next => exact fun _ h => by cases h
  | succ n ih =>
      intro c hc
      have hfirst := hhop (n + 1) state c hc.1 hc.2
      unfold fetchInternal
      cases hrun : fetchHop state (n + 1) c with
      | error f c' =>
          rw [hrun] at hfirst
          rw [bind_error hrun]
          exact hfirst
      | ok result c' =>
          rw [hrun] at hfirst
          rw [bind_ok hrun]
          cases result with
          | inl response => exact hfirst
          | inr next => exact ih next c' ⟨hfirst, hc.2.next hrun⟩

/-- **A call.** -/
theorem fetch_tidy {url : Bytes} {options : FetchOptions} {client : Client L} (h : client.Tidy hands)
    (hdecent : DecentCall url options client) :
    Triple (fun c => c = client) (fetch url options) (fun response => Took hands response.conn) (Spilt hands) := by
  unfold fetch
  cases hparse : Uri.parse url with
  | none =>
      refine triple_fail fun c hc e _ => ?_
      rw [hc]
      exact h
  | some uri =>
      dsimp only
      cases hinfo : uriPortAndProtocol uri with
      | error e =>
          refine Triple.bind (Q := fun _ _ => False) (triple_fail fun c hc e _ => ?_) fun _ _ hfalse => hfalse.elim
          rw [hc]
          exact h
      | ok info =>
          obtain ⟨port, protocol⟩ := info
          intro c hc
          obtain rfl := hc
          exact fetchInternal_tidy hdecent _ _ c ⟨h, .first hparse hinfo⟩

end tidy

end Client

/-! ### Runs -/

/-- A call of `fetch` all of whose responses are decent, or what is done with a response. -/
inductive DecentStep : ClientRun L → ClientRun L → Prop
  | fetched {s : ClientRun L} {url options response client} (hdecent : Client.DecentCall url options s.client)
      (h : Client.fetch url options s.client = .ok response client) :
      DecentStep s ⟨client, s.responses ++ [response]⟩
  | failed {s : ClientRun L} {url options e client} (hdecent : Client.DecentCall url options s.client)
      (h : Client.fetch url options s.client = .error (.err e) client) :
      DecentStep s ⟨client, s.responses⟩
  | read (client : Client L) (pre response post inbound) :
      DecentStep ⟨client, pre ++ response :: post⟩
        ⟨client, pre ++ { response with conn := response.conn.setInbound inbound } :: post⟩
  | deinit {client : Client L} {pre response post client'} (h : Client.deinit response client = .ok () client') :
      DecentStep ⟨client, pre ++ response :: post⟩ ⟨client', pre ++ post⟩

namespace ClientRun

open Client

/-- What the run holds. -/
def Tidy (s : ClientRun L) : Prop := s.client.Tidy (s.responses.map (·.conn))

/-- **Every such call** leaves the pool tidy. -/
theorem Tidy.step {s s' : ClientRun L} (h : s.Tidy) (hs : DecentStep s s') : s'.Tidy := by
  cases hs with
  | fetched hdecent hfetch =>
      refine ((fetch_tidy h hdecent).ok rfl hfetch).map fun conn hconn => ⟨conn, ?_, rfl⟩
      rw [List.map_append]
      rcases List.mem_cons.mp hconn with rfl | hconn
      · exact List.mem_append_right _ List.mem_cons_self
      · exact List.mem_append_left _ hconn
  | failed hdecent hfetch => exact (fetch_tidy h hdecent).error rfl hfetch _ rfl
  | read client pre response post inbound =>
      refine Client.Tidy.map h fun conn hconn => ?_
      rw [List.map_append, List.map_cons] at hconn
      rw [List.map_append, List.map_cons]
      rcases List.mem_append.mp hconn with hconn | hconn
      · exact ⟨conn, List.mem_append_left _ hconn, rfl⟩
      · rcases List.mem_cons.mp hconn with rfl | hconn
        · exact ⟨_, List.mem_append_right _ List.mem_cons_self, rfl⟩
        · exact ⟨conn, List.mem_append_right _ (List.mem_cons_of_mem _ hconn), rfl⟩
  | @deinit client pre response post client' hdeinit =>
      have hheld : client.Tidy (response.conn :: (pre ++ post).map (·.conn)) := by
        refine Client.Tidy.map h fun conn hconn => ⟨conn, ?_, rfl⟩
        rw [List.map_append, List.map_cons] at hconn
        rw [List.map_append]
        exact List.perm_middle.subset hconn
      exact (release_tidy response.conn).ok hheld hdeinit

/-- **The pool is clean.**  In a run of calls whose responses are all decent, every connection that was put into the
pool had been read to its end and permitted another request as it was released; what is idle is one of these,
reset, and every other connection is held by a response or was closed. -/
theorem pool_clean {start : Client L} {s : ClientRun L} (hpool : start.pool = { maxIdle := start.pool.maxIdle })
    (hnext : start.nextId = 0) (hrun : Relation.ReflTransGen DecentStep ⟨start, []⟩ s) :
    (∀ released ∈ s.client.pool.enlisted, released.isBodyComplete = true ∧ released.shouldKeepAlive = true) ∧
    (∀ conn ∈ s.client.pool.idle, ∃ released ∈ s.client.pool.enlisted,
      ClientConnection.reset released = .ok () conn) ∧
    ∀ i < s.client.nextId, (∃ conn ∈ s.client.pool.idle, conn.id = i) ∨
      (∃ response ∈ s.responses, response.conn.id = i) ∨ i ∈ s.client.pool.destroyed := by
  have htidy : s.Tidy := by
    induction hrun with
    | refl =>
        refine ⟨?_, ?_, fun i hi => ?_⟩
        · rw [hpool]
          exact fun _ h => absurd h List.not_mem_nil
        · rw [hpool]
          exact fun _ h => absurd h List.not_mem_nil
        · rw [hnext] at hi
          exact absurd hi (Nat.not_lt_zero i)
    | tail _ hs ih => exact ih.step hs
  refine ⟨fun released hreleased => ?_, htidy.idle, fun i hi => ?_⟩
  · have hreusable := htidy.reusable released hreleased
    exact ⟨hreusable.complete, hreusable.keepAlive⟩
  · rcases htidy.counted i hi with ⟨conn, hconn, hid⟩ | hgone
    · rcases List.mem_append.mp hconn with hconn | hconn
      · exact .inl ⟨conn, hconn, hid⟩
      · obtain ⟨response, hresponse, rfl⟩ := List.mem_map.mp hconn
        exact .inr (.inl ⟨response, hresponse, hid⟩)
    · exact .inr (.inr hgone)

/-- A redirect to where no request can be sent, with a body. -/
def misdirected : Client (Http1.llhttp true) :=
  answered [[ascii "HTTP/1.1 302 Found\r\nLocation: ftp://b/\r\nContent-Length: 5\r\n\r\n"]]

/-- Its connection comes into the pool, with the body unread. -/
theorem pool_unclean : ∃ client, fetch (ascii "http://a/") {} misdirected = .error (.err .unsupportedScheme) client ∧
    ∃ conn ∈ client.pool.idle, ∃ released ∈ client.pool.enlisted,
      ClientConnection.reset released = .ok () conn ∧ released.isBodyComplete = false := by
  have hfetch : faults (.err .unsupportedScheme) (fetch (ascii "http://a/") {}) misdirected = true := by
    decide +kernel
  obtain ⟨client, hfetch⟩ := faults_iff.mp hfetch
  have hsound : (misdirected).Sound := ⟨fun _ h => absurd h List.not_mem_nil, fun _ h => absurd h List.not_mem_nil⟩
  have hclient := (fetch_sound _ _).error hsound hfetch
  have htests : (final (fetch (ascii "http://a/") {}) misdirected).pool.idle.length = 1 ∧
      (final (fetch (ascii "http://a/") {}) misdirected).pool.enlisted.all (!·.isBodyComplete) = true := by
    decide +kernel
  rw [final_of_error hfetch] at htests
  obtain ⟨hidle, hunread⟩ := htests
  obtain ⟨conn, hconn⟩ := List.length_eq_one_iff.mp hidle
  have hmem : conn ∈ client.pool.idle := hconn ▸ List.mem_singleton_self conn
  obtain ⟨released, hreleased, hreset⟩ := (hclient.idle conn hmem).released
  refine ⟨client, hfetch, conn, hmem, released, hreleased, hreset, ?_⟩
  have hnot := List.all_eq_true.mp hunread released hreleased
  simpa using hnot

/-- A call that follows no redirect and decodes nothing takes every response for what it is. -/
theorem decentCall_plain {url : Bytes} {options : FetchOptions} {client : Client L}
    (hnone : options.maxRedirects = some 0) (hraw : options.decompress = false) : DecentCall url options client := by
  intro state n c hhops
  have hplain : n = 0 ∧ state.options.decompress = false := by
    induction hhops with
    | first => exact ⟨by rw [hnone]; rfl, hraw⟩
    | @next state n _ next _ _ hhop ih =>
        obtain ⟨host, target, hnext⟩ := fetchHop_redirects hhop
        refine ⟨by omega, ?_⟩
        unfold redirectState at hnext
        cases hhost : uriHost target.uri with
        | error e =>
            rw [hhost] at hnext
            cases hnext
        | ok redirectHost =>
            rw [hhost] at hnext
            cases hnext
            show (redirectOptions state.options target.statusCode).decompress = false
            unfold redirectOptions
            split
            · split
              · exact ih.2
              · split <;> exact ih.2
            · exact ih.2
  intro host conn client' conn' _ _ _
  have hrefuses : refuses state conn' = false := by
    unfold refuses
    rw [hplain.2]
    rfl
  refine ⟨fun htrue => (by cases hrefuses.symm.trans htrue), fun _ hmisleads => ?_⟩
  obtain ⟨⟨-, -, hpos⟩, -⟩ := hmisleads
  omega

/-- A response without a body, on a connection that stays open. -/
def contented : Client (Http1.llhttp true) :=
  answered [[ascii "HTTP/1.1 200 OK\r\nContent-Length: 0\r\n\r\n"]]

theorem pool_clean_sample : ∃ (response : ClientResponse (Http1.llhttp true)) (client₁ client₂ : Client _),
    fetch (ascii "http://a/") { decompress := false, maxRedirects := some 0 } contented = .ok response client₁ ∧
      Client.deinit response client₁ = .ok () client₂ ∧
      ∃ conn ∈ client₂.pool.idle, ∃ released ∈ client₂.pool.enlisted,
        ClientConnection.reset released = .ok () conn ∧ released.isBodyComplete = true ∧
          released.shouldKeepAlive = true := by
  have hrun : yields (fun response client₁ => yields (fun _ client₂ => decide (0 < client₂.pool.idle.length))
      (Client.deinit response) client₁)
      (fetch (ascii "http://a/") { decompress := false, maxRedirects := some 0 }) contented = true := by
    decide +kernel
  obtain ⟨response, client₁, hfetch, hrun⟩ := yields_iff.mp hrun
  obtain ⟨⟨⟩, client₂, hdeinit, hpos⟩ := yields_iff.mp hrun
  have hfirst : @DecentStep (Http1.llhttp true) ⟨contented, []⟩ ⟨client₁, [] ++ response :: []⟩ :=
    .fetched (decentCall_plain rfl rfl) hfetch
  have hsecond : @DecentStep (Http1.llhttp true) ⟨client₁, [] ++ response :: []⟩ ⟨client₂, [] ++ []⟩ :=
    .deinit hdeinit
  obtain ⟨henlisted, hidle, -⟩ := pool_clean rfl rfl ((Relation.ReflTransGen.single hfirst).tail hsecond)
  obtain ⟨conn, hconn⟩ := List.exists_mem_of_length_pos (of_decide_eq_true hpos)
  obtain ⟨released, hreleased, hreset⟩ := hidle conn hconn
  exact ⟨response, client₁, client₂, hfetch, hdeinit, conn, hconn, released, hreleased, hreset,
    henlisted released hreleased⟩

end ClientRun
end Dusty
