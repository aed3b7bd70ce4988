import Mathlib
import Dusty.ClientHops
import Dusty.MessageRead

/-! # Interim responses

A server may send responses with a status of 1xx before the one that answers a request.  The client
reads one header section for a request, so a call goes by the first response that comes, whatever
its status is. -/

namespace Dusty

open Act

/-- The status says that another response follows on the connection. -/
def ParsedResponse.interim (response : ParsedResponse) : Bool :=
  response.status.code / 100 == 1 && response.status.code != 101

namespace Inbound

variable {L : Llhttp} {M : Type} {T : Target M}

theorem Fills.unique {p₀ p p' : Parser L M} {base n n' : ℕ} {stream : Bytes}
    (h : Fills T p₀ base n stream p) (h' : Fills T p₀ base n' stream p') : p' = p := by
  obtain ⟨-, hp, hpaused, -⟩ := h
  obtain ⟨-, hp', hpaused', -⟩ := h'
  exact eat_stops hp (by simp [hpaused]) hp' (by simp [hpaused'])

end Inbound

open Inbound

namespace ClientConnection

variable {L : Llhttp}

/-- The response is the first one, and the parser and the buffer take its header section. -/
def Takes (conn : ClientConnection L) (interims : List Bytes) (last : Bytes) : Prop :=
  interims = [] ∧ ∃ n p,
    Fills .response (.init { headers := .init conn.maxResponseHeaders } : Parser L _) 0 n last p ∧
    (n < conn.inbound.reader.cap ∨ n = conn.inbound.reader.cap ∧ p.pending = [.messageComplete])

end ClientConnection

namespace Client

variable {L : Llhttp}

open ClientConnection

section final
variable {opts : WriteRequestOptions} {conn conn' : ClientConnection L} {last after body : Bytes}

end final

end Client

/-! ### Samples -/

end Dusty
