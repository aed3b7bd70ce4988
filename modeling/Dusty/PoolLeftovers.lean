import Dusty.ClientRuns
import Dusty.Http1

/-! # What is left in a pooled connection

`reset` keeps the bytes that were received and not read.  A connection that is put into the pool
with such bytes is handed out with them, and they are read as the beginning of the next answer. -/

namespace Dusty

open Act

namespace ClientConnection

variable {L : Llhttp}

/-- The bytes that were received and not read. -/
def unread (self : ClientConnection L) : Bytes := self.inbound.reader.data

theorem reset_unread {conn fresh : ClientConnection L}
    (h : ClientConnection.reset conn = .ok () fresh) : fresh.unread = conn.unread := by
  obtain ⟨-, rfl⟩ := reset_eq_ok h
  rfl

end ClientConnection

/-- Whenever the connection was put into the pool as it was handed out, everything it had received
was read. -/
def Handout.Drained {L : Llhttp} (enlisted : List (ClientConnection L)) (e : Handout L) : Prop :=
  ∀ released ∈ enlisted, ClientConnection.reset released = .ok () e.conn → released.unread = []

/-- **What is left in a pooled connection**: in every run, a connection that the pool hands out
holds no unread byte exactly if there was none when it was released. -/
theorem handedOut_unread_iff {L : Llhttp} {s : ClientRun L} (h : ClientReach s) :
    ∀ e ∈ s.client.handed, (e.conn.unread = [] ↔ e.Drained s.client.pool.enlisted) := by
  intro e he
  obtain ⟨hchosen, hidle⟩ := (ClientRun.Sound.of_reach h).client.handed e he
  obtain ⟨pre, post, hsplit, -⟩ := ConnectionPool.search_eq_some hchosen
  have hmem : e.conn ∈ e.idle :=
    List.mem_reverse.mp (hsplit ▸ List.mem_append_right _ List.mem_cons_self)
  obtain ⟨released, hreleased, hreset⟩ := (hidle e.conn hmem).released
  constructor
  · intro hnone other _ hother
    rw [← ClientConnection.reset_unread hother, hnone]
  · intro hdrained
    rw [ClientConnection.reset_unread hreset, hdrained released hreleased hreset]

theorem handedOut_unread_iff_sample : ∃ s : ClientRun (Http1.llhttp true), s.client.handed ≠ [] ∧
    ∀ e ∈ s.client.handed, (e.conn.unread = [] ↔ e.Drained s.client.pool.enlisted) := by
  have hrun := yields_iff.mp (show yields (fun _ client => !client.handed.isEmpty)
    (Client.fetchTwice (L := Http1.llhttp true) (ascii "http://a/") (ascii "http://a/") {})
    (Client.answered [[ascii "HTTP/1.1 200 OK\r\nContent-Length: 0\r\n\r\n",
      ascii "HTTP/1.1 201 Created\r\nContent-Length: 0\r\n\r\n"]]) = true by decide +kernel)
  obtain ⟨response, client, hfetch, htest⟩ := hrun
  exact ⟨_, by simpa using htest, handedOut_unread_iff (reach_fetchTwice hfetch)⟩

/-- The server sends two answers to one request.  The second is there before the next request is
written, and the client returns it for that one. -/
theorem handedOut_unread : ∃ s : ClientRun (Http1.llhttp true), ClientReach s ∧
    (∃ e ∈ s.client.handed, e.conn.unread =
      ascii "HTTP/1.1 201 Created\r\nContent-Length: 0\r\n\r\n") ∧
    ∃ response ∈ s.responses, response.conn.parsedResponse.status.code = 201 := by
  have hrun := yields_iff.mp (show yields (fun response client =>
      decide (response.conn.parsedResponse.status.code = 201) && client.handed.any fun e =>
        e.conn.unread == ascii "HTTP/1.1 201 Created\r\nContent-Length: 0\r\n\r\n")
    (Client.fetchTwice (L := Http1.llhttp true) (ascii "http://a/") (ascii "http://a/") {})
    (Client.answered [[ascii "HTTP/1.1 200 OK\r\nContent-Length: 0\r\n\r\n" ++
      ascii "HTTP/1.1 201 Created\r\nContent-Length: 0\r\n\r\n"]]) = true by decide +kernel)
  obtain ⟨response, client, hfetch, htest⟩ := hrun
  rw [Bool.and_eq_true, decide_eq_true_iff] at htest
  obtain ⟨e, he, hunread⟩ := List.any_eq_true.mp htest.2
  exact ⟨_, reach_fetchTwice hfetch, ⟨e, he, by simpa using hunread⟩, response, by simp, htest.1⟩

end Dusty
