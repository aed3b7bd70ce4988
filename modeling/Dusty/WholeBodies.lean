import Dusty.RequestBodies
import Dusty.ResponseBodies
import Dusty.Http1

/-! # Whole bodies

A body is whole or refused, on either side of a connection: `whole_or_refused_iff`.  That a body comes to its
text, or to an error if it is not whole, is what `Reads` and `Open` assume; for framing that is broken on the wire it
is the automaton that has to bear them out. -/

namespace Dusty

open Act

section
variable {L L' : Llhttp} {whole : Prop} {text : Bytes}

/-- **However often `body` is called**, every call that returns returns the whole body exactly if the body
is shorter than the limit, or is not whole and so never returned, or nothing is let through. -/
theorem whole_or_refused_iff :
    (∀ self : Exchange L, self.request.bodyRead = false →
      Reads (fun _ => True) (Inbound.stream .request) whole 0 text self.inbound.told →
      (WholeOrRefused Exchange.body whole text self ↔
        (whole → self.request.config.maxBodySize = 0 ∨ text.length < self.request.config.maxBodySize))) ∧
    ∀ (F : Inflater L') (r : OpenResponse F) (fuel n : ℕ),
      OpenResponse.Open whole r.response.maxResponseSize fuel n text r →
      (WholeOrRefused (OpenResponse.body fuel) whole text r ↔
        (whole → r.response.maxResponseSize = 0 ∨ text.length < r.response.maxResponseSize)) :=
  ⟨fun _ hunread h => wholeOrRefused_iff Exchange.body_attempts (Exchange.open_unread hunread h),
    fun _ _ fuel _ h => wholeOrRefused_iff (OpenResponse.body_attempts fuel) h⟩

end

/-- A request with a body of six bytes, and a limit. -/
def sixBytes (limit : ℕ) : Exchange (Http1.llhttp false) :=
  { inbound := Act.final Inbound.parseHeaders
      { parser := .init { config := { maxBodySize := limit } }
        reader := .fresh 64
        net := { chunks := [ascii "PUT / HTTP/1.1\r\nContent-Length: 6\r\n\r\nabcdef"] } }
    st := { res := .init {} 0 } }

/-- A decompressor that reads nothing. -/
def noInflater : Inflater (Http1.llhttp true) := ⟨Unit, fun _ => (), fun _ => Act.fail .readFailed⟩

/-- A response with a body of six bytes, and a limit. -/
def sixBytesBack (limit : ℕ) : OpenResponse noInflater :=
  { response :=
      { conn :=
          { id := 0
            dialed := { host := ascii "a", port := 80, protocol := .http }
            inbound := Act.final Inbound.parseResponseHeaders
              { parser := .init { headers := .init 8 }
                reader := .fresh 64
                net := { chunks := [ascii "HTTP/1.1 200 OK\r\nContent-Length: 6\r\n\r\nabcdef"] } }
            writer := {}
            readBuffer := 64
            maxResponseHeaders := 8
            protocol := .http
            host := ascii "a"
            port := 80 }
        maxResponseSize := limit
        decompress := false } }

theorem rest_of_decide {L : Llhttp} {M : Type} {s : Inbound L M}
    (hparser : s.parser.errno = none ∧ s.parser.pending = [] ∧ s.parser.span = none ∧
      s.parser.state.messageComplete = false)
    (hbody : L.decodeBody s.parser.core s.incoming = some (ascii "abcdef", []))
    (hpieces : ∀ chunk ∈ s.net.chunks, chunk ≠ []) (hcap : 0 < s.reader.cap) :
    Inbound.Rest .endOfStream [] (ascii "abcdef") s :=
  .inl ⟨_, ⟨hparser.1, hparser.2.1, rfl, .inl hparser.2.2.1, hparser.2.2.2⟩,
    Llhttp.flow_of_decodeBody hbody, hpieces, hcap⟩

theorem whole_or_refused_iff_sample :
    (WholeOrRefused Exchange.body (Error.endOfStream = .endOfStream) (ascii "abcdef") (sixBytes 7) ↔
      (Error.endOfStream = .endOfStream → (sixBytes 7).request.config.maxBodySize = 0 ∨
        (ascii "abcdef").length < (sixBytes 7).request.config.maxBodySize)) ∧
    (WholeOrRefused (OpenResponse.body 8) (Error.endOfStream = .endOfStream) (ascii "abcdef") (sixBytesBack 7) ↔
      (Error.endOfStream = .endOfStream → (sixBytesBack 7).response.maxResponseSize = 0 ∨
        (ascii "abcdef").length < (sixBytesBack 7).response.maxResponseSize)) := by
  have hserver : Inbound.Rest .endOfStream [] (ascii "abcdef") (sixBytes 7).inbound.told :=
    rest_of_decide (by decide +kernel) (by decide +kernel) (by decide +kernel) (by decide +kernel)
  have hclient : Inbound.Rest .endOfStream [] (ascii "abcdef") (sixBytesBack 7).inbound :=
    rest_of_decide (by decide +kernel) (by decide +kernel) (by decide +kernel) (by decide +kernel)
  obtain ⟨hrequest, -⟩ := @whole_or_refused_iff (Http1.llhttp false) (Http1.llhttp true)
    (Error.endOfStream = .endOfStream) (ascii "abcdef")
  obtain ⟨-, hresponse⟩ := @whole_or_refused_iff (Http1.llhttp false) (Http1.llhttp true)
    (Error.endOfStream = .endOfStream) (ascii "abcdef")
  exact ⟨hrequest (sixBytes 7) (by decide +kernel) (hserver.reads .request),
    hresponse noInflater (sixBytesBack 7) 8 0 (.of_rest ⟨rfl, rfl⟩ rfl rfl hclient (by decide))⟩

/-- Under a limit of four, a second call takes what the first has left for the whole. -/
theorem whole_or_refused_not :
    Inbound.Rest .endOfStream [] (ascii "abcdef") (sixBytes 4).inbound ∧
    ¬WholeOrRefused Exchange.body True (ascii "abcdef") (sixBytes 4) ∧
    Inbound.Rest .endOfStream [] (ascii "abcdef") (sixBytesBack 4).inbound ∧
    ¬WholeOrRefused (OpenResponse.body 8) True (ascii "abcdef") (sixBytesBack 4) := by
  have hrequest : yields (fun results _ => decide (results = [.error .bodyTooBig, .ok (some (ascii "ef"))]))
      (calls Exchange.body [id, id]) (sixBytes 4) = true := by decide +kernel
  have hresponse : yields
      (fun results _ => decide (results = [.error .responseTooLarge, .ok (some (ascii "ef"))]))
      (calls (OpenResponse.body 8) [id, id]) (sixBytesBack 4) = true := by decide +kernel
  obtain ⟨results, s, hruns, htail⟩ := yields_iff.mp hrequest
  obtain ⟨results', s', hruns', htail'⟩ := yields_iff.mp hresponse
  obtain rfl := of_decide_eq_true htail
  obtain rfl := of_decide_eq_true htail'
  have hmem (e : Error) : (.ok (some (ascii "ef")) : Except Error (Option Bytes)) ∈
      [.error e, .ok (some (ascii "ef"))] := List.mem_cons_of_mem _ List.mem_cons_self
  refine ⟨?_, not_wholeOrRefused hruns (hmem _) (by decide), ?_,
    not_wholeOrRefused hruns' (hmem _) (by decide)⟩
  · exact rest_of_decide (by decide +kernel) (by decide +kernel) (by decide +kernel) (by decide +kernel)
  · exact rest_of_decide (by decide +kernel) (by decide +kernel) (by decide +kernel) (by decide +kernel)

end Dusty
