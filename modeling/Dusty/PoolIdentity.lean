import Dusty.ClientRuns
import Dusty.Http1

/-! # Whom a pooled connection talks to

A connection over TLS was checked for one name when it was made.  The pool compares the name that
is wanted with that one when it looks for a host and a port, and does not when it looks for the
path of a socket. -/

namespace Dusty

open Act

/-- The same way to a server: the path of a socket, or a host and a port. -/
def Endpoint.SameTransport (dialed wanted : Endpoint) : Prop :=
  match wanted.unixSocketPath with
  | some path => dialed.unixSocketPath = some path
  | none => dialed.unixSocketPath = none ∧ dialed.port = wanted.port ∧
      eqlIgnoreCase dialed.host wanted.host = true

namespace Handout

variable {L : Llhttp}

/-- The connection speaks the protocol that is wanted, to the server that is wanted, and TLS has
checked the server for the name that is wanted. -/
def Right (e : Handout L) : Prop :=
  e.conn.dialed.protocol = e.wanted.protocol ∧ e.conn.dialed.SameTransport e.wanted ∧
    (e.wanted.protocol = .https → eqlIgnoreCase e.conn.dialed.host e.wanted.host = true)

/-- The connection used last among those filed under what is wanted was made for the same name, if
that is not looked at; and if it is, its name fits where it is kept and its socket has a path. -/
def Clear (e : Handout L) : Prop :=
  ∀ pre conn post, e.idle = pre ++ conn :: post → conn.serves e.wanted = true → conn.Fresh e.now →
    (∀ d ∈ post, d.serves e.wanted = true → ¬ d.Fresh e.now) →
      match e.wanted.unixSocketPath with
      | some _ => e.wanted.protocol = .https →
          eqlIgnoreCase conn.dialed.host e.wanted.host = true
      | none => conn.dialed.unixSocketPath = none ∧ conn.dialed.host.length ≤ 255

/-- What was found is the last that may be handed out. -/
theorem Chosen.last {e : Handout L} (h : e.Chosen) : ∃ pre post, e.idle = pre ++ e.conn :: post ∧
    e.conn.serves e.wanted = true ∧ e.conn.Fresh e.now ∧
      ∀ d ∈ post, d.serves e.wanted = true → ¬ d.Fresh e.now := by
  obtain ⟨pre, post, hl, hw, he, hpre⟩ := ConnectionPool.search_eq_some h
  have hidle : e.idle = post.reverse ++ e.conn :: pre.reverse := by
    have := congrArg List.reverse hl
    simpa using this
  refine ⟨post.reverse, pre.reverse, hidle, hw, ConnectionPool.not_expired_iff.mp he, ?_⟩
  intro d hd hwd hfresh
  have hexp := hpre d (List.mem_reverse.mp hd) hwd
  rw [ConnectionPool.not_expired_iff.mpr hfresh] at hexp
  cases hexp

theorem last_unique {now : ℕ} {wanted : Endpoint} {pre post pre' post' : List (ClientConnection L)}
    {conn conn' : ClientConnection L} (h : pre ++ conn :: post = pre' ++ conn' :: post')
    (hserves : conn.serves wanted = true) (hfresh : conn.Fresh now)
    (hserves' : conn'.serves wanted = true) (hfresh' : conn'.Fresh now)
    (hpost : ∀ d ∈ post, d.serves wanted = true → ¬ d.Fresh now)
    (hpost' : ∀ d ∈ post', d.serves wanted = true → ¬ d.Fresh now) : conn = conn' := by
  rcases List.append_eq_append_iff.mp h with ⟨mid, hpre, hmid⟩ | ⟨mid, hpre, hmid⟩
  · cases mid with
    | nil => exact (List.cons.inj hmid).1
    | cons d mid =>
        obtain ⟨-, rfl⟩ := List.cons.inj hmid
        exact absurd hfresh' (hpost conn' (by simp) hserves')
  · cases mid with
    | nil => exact (List.cons.inj hmid).1.symm
    | cons d mid =>
        obtain ⟨-, rfl⟩ := List.cons.inj hmid
        exact absurd hfresh (hpost' conn (by simp) hserves)

/-- When a connection filed under what is wanted is what is wanted. -/
theorem fits_iff {conn : ClientConnection L} {wanted : Endpoint} (hstamped : conn.Stamped)
    (hserves : conn.serves wanted = true) :
    (conn.dialed.protocol = wanted.protocol ∧ conn.dialed.SameTransport wanted ∧
      (wanted.protocol = .https → eqlIgnoreCase conn.dialed.host wanted.host = true)) ↔
    match wanted.unixSocketPath with
    | some _ => wanted.protocol = .https → eqlIgnoreCase conn.dialed.host wanted.host = true
    | none => conn.dialed.unixSocketPath = none ∧ conn.dialed.host.length ≤ 255 := by
  unfold ClientConnection.serves ClientConnection.accepts at hserves
  unfold Endpoint.SameTransport
  rw [hstamped.protocol, hstamped.port, hstamped.host, hstamped.unixPath] at hserves
  cases hpath : wanted.unixSocketPath with
  | some path =>
      rw [hpath] at hserves
      simp only [Bool.and_eq_true, beq_iff_eq, Option.filter_eq_some_iff] at hserves
      obtain ⟨hprotocol, hdialed, -⟩ := hserves
      exact ⟨fun h => h.2.2, fun h => ⟨hprotocol, hdialed, h⟩⟩
  | none =>
      rw [hpath] at hserves
      simp only [Bool.and_eq_true, beq_iff_eq] at hserves
      obtain ⟨⟨⟨-, hprotocol⟩, hport⟩, hhost⟩ := hserves
      constructor
      · rintro ⟨-, ⟨hnone, -, heq⟩, -⟩
        refine ⟨hnone, ?_⟩
        have hlen := congrArg List.length (eqlIgnoreCase_iff.mp heq)
        have hcut := congrArg List.length (eqlIgnoreCase_iff.mp hhost)
        simp only [List.length_map, List.length_take] at hlen hcut
        omega
      · rintro ⟨hnone, hlen⟩
        rw [List.take_of_length_le hlen] at hhost
        exact ⟨hprotocol, ⟨hnone, hport, hhost⟩, fun _ => hhost⟩

/-- A connection that was handed out is right if the one used last is. -/
theorem right_iff {e : Handout L} (hchosen : e.Chosen) (hstamped : e.conn.Stamped) :
    e.Right ↔ e.Clear := by
  obtain ⟨pre, post, hidle, hserves, hfresh, hpost⟩ := hchosen.last
  constructor
  · intro hright pre' conn' post' hidle' hserves' hfresh' hpost'
    obtain rfl := last_unique (hidle.symm.trans hidle') hserves hfresh hserves' hfresh' hpost hpost'
    exact (fits_iff hstamped hserves).mp hright
  · intro hclear
    exact (fits_iff hstamped hserves).mpr (hclear pre e.conn post hidle hserves hfresh hpost)

end Handout

/-- **Whom a pooled connection talks to**: in every run, a connection that the pool hands out is
right exactly if the one used last, among those filed under what is wanted, is. -/
theorem handedOut_right_iff {L : Llhttp} {s : ClientRun L} (h : ClientReach s) :
    ∀ e ∈ s.client.handed, (e.Right ↔ e.Clear) := by
  intro e he
  obtain ⟨hchosen, hidle⟩ := (ClientRun.Sound.of_reach h).client.handed e he
  obtain ⟨pre, post, hsplit, -⟩ := hchosen.last
  exact Handout.right_iff hchosen (hidle e.conn (by simp [hsplit])).stamped

/-- A connection that answers twice. -/
def twoAnswers : Client (Http1.llhttp true) :=
  Client.answered [[ascii "HTTP/1.1 200 OK\r\nContent-Length: 0\r\n\r\n",
    ascii "HTTP/1.1 200 OK\r\nContent-Length: 0\r\n\r\n"]]

theorem handedOut_right_iff_sample : ∃ s : ClientRun (Http1.llhttp true), s.client.handed ≠ [] ∧
    ∀ e ∈ s.client.handed, (e.Right ↔ e.Clear) := by
  have hrun := yields_iff.mp (show yields (fun _ client => !client.handed.isEmpty)
    (Client.fetchTwice (ascii "https://a.example/") (ascii "https://A.example/")
      { unixSocketPath := some (ascii "/s") }) twoAnswers = true by decide +kernel)
  obtain ⟨response, client, hfetch, htest⟩ := hrun
  exact ⟨_, by simpa using htest, handedOut_right_iff (reach_fetchTwice hfetch)⟩

/-- A connection that was checked for one name is handed out for another. -/
theorem handedOut_wrong : ∃ s : ClientRun (Http1.llhttp true), ClientReach s ∧
    ∃ e ∈ s.client.handed, ¬ e.Right := by
  have hrun := yields_iff.mp (show yields (fun _ client => client.handed.any fun e =>
      e.wanted.protocol == .https && !eqlIgnoreCase e.conn.dialed.host e.wanted.host)
    (Client.fetchTwice (ascii "https://a.example/") (ascii "https://b.example/")
      { unixSocketPath := some (ascii "/s") }) twoAnswers = true by decide +kernel)
  obtain ⟨response, client, hfetch, htest⟩ := hrun
  obtain ⟨e, he, hwrong⟩ := List.any_eq_true.mp htest
  refine ⟨_, reach_fetchTwice hfetch, e, he, fun hright => ?_⟩
  simp only [Bool.and_eq_true, beq_iff_eq] at hwrong
  rw [hright.2.2 hwrong.1] at hwrong
  exact absurd hwrong.2 (by decide)

end Dusty
