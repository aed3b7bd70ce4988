import Dusty.ClientHops
import Dusty.HeadEnd
import Dusty.ResponseBody

/-! # Responses to HEAD

The response to a HEAD ends with its header section, whatever the section announces.  The client
does not set the flag that says so to its parser, and expects the body that is announced. -/

namespace Dusty

/-! ### What a header section announces -/

/-- What an automaton for responses has noted when it reaches the end of a header section with a
byte.  Nobody has told it the method of the request. -/
structure Announces (L : Llhttp) where
  head : L.State → UInt8 → MessageHead
  response : ∀ s b, (head s b).response = true
  connect : ∀ s b, (head s b).connect = false
  skipBody : ∀ s b, (head s b).skipBodyFlag = false
  behind : ∀ s b, L.inHead s = true → .headersComplete ∈ (L.step s b).after →
    behindHead (L.step s b).after = if (head s b).ends then [.messageComplete] else []

namespace Http1

theorem step_headEnd (response : Bool) {s : State} {b : UInt8}
    (h : .headersComplete ∈ (step response s b).after) :
    (step response s b).after = (endHead response s).after := by
  unfold step at h ⊢
  cases hphase : s.phase with
  | headEnd trailer =>
      rw [hphase] at h
      simp only at h ⊢
      split at h
      · next hb =>
          rw [if_pos hb]
          split at h
          · simp at h
          · next htrailer => rw [if_neg htrailer]
      · simp [reject] at h
  | start =>
      rw [hphase] at h
      simp [(startMessage_spec response b).1] at h
  | fieldStart trailer complete =>
      rw [hphase] at h
      simp [(startField_spec s trailer b _).1] at h
  | _ =>
      rw [hphase] at h
      simp only at h
      repeat' split at h
      all_goals simp [reject] at h

/-- The automaton for responses announces what it has noted. -/
def announces : Announces (llhttp true) where
  head s _ := headOf true s
  response _ _ := rfl
  connect _ _ := rfl
  skipBody _ _ := rfl
  behind s b hs hmem := by
    show behindHead (step true s b).after = _
    rw [step_headEnd true hmem]
    unfold endHead MessageHead.ends
    have hcoded : (headOf true s).afterHeadersComplete ≠ .invalidTransferEncoding := by
      unfold MessageHead.afterHeadersComplete headOf
      simp only [Bool.not_true, Bool.false_eq_true, if_false]
      repeat' split
      all_goals simp
    cases hafter : (headOf true s).afterHeadersComplete with
    | invalidTransferEncoding => exact absurd hafter hcoded
    | _ => rfl

end Http1

/-! ### The client -/

open Act

namespace Client

variable {L : Llhttp}

open ClientConnection

/-- What the first reading of a response does to the connection: the reader is behind the header
section, and the message is complete if the section announces no body. -/
theorem requestHead_end (A : Announces L) {opts : WriteRequestOptions}
    {conn conn' : ClientConnection L} (hready : conn.Ready)
    (h : requestHead opts conn = .ok () conn') :
    ∃ st b rest, L.headEnd L.init conn.inbound.incoming = some (st, b, rest) ∧
      conn'.inbound.incoming = rest ∧ conn'.isBodyComplete = (A.head st b).ends := by
  obtain ⟨writer, -, hreceive⟩ := requestHead_ok.mp h
  obtain ⟨inbound, hparse, rfl⟩ := receiveHeaders_ok.mp hreceive
  obtain ⟨st, b, rest, hend, hst, hincoming, n, p, -, -, hmore, hdone⟩ :=
    Inbound.parseHead_end Target.response_lawful hready.seek hready.parser hparse
  obtain ⟨-, -, hmem⟩ := L.headEnd_length hend
  have hbehind := A.behind st b hst hmem
  refine ⟨st, b, rest, hend, hincoming, ?_⟩
  show inbound.parser.isBodyComplete = _
  cases hends : (A.head st b).ends with
  | true => exact (hdone (by rw [hbehind, hends]; rfl)).1
  | false => exact (hmore (by rw [hbehind, hends]; rfl)).1

/-- Nothing is drained of a message that is complete. -/
theorem drainRedirect_complete {conn : ClientConnection L} (h : conn.isBodyComplete = true) :
    drainRedirect conn = .ok ⟨⟩ (conn.closeIf (!conn.shouldKeepAlive)) := by
  unfold drainRedirect
  rw [bind_ok (get_run conn), h]
  rfl

end Client

/-- The response is complete when its header section is: there is no body, and nothing is waited
for or taken to find that out or to follow a redirect; the next response on the connection begins
with what is behind the header section. -/
structure ClientResponse.AtOnce {L : Llhttp} (D : Decompressor L) (room : ℕ → ℕ) (rest : Bytes)
    (response : ClientResponse L) : Prop where
  complete : response.conn.isBodyComplete = true
  body : ClientResponse.body D room response = .ok none response
  drain : (final Client.drainRedirect response.conn).inbound = response.conn.inbound
  next : ∀ fresh, ClientConnection.reset (Client.settle response.conn) = .ok () fresh →
    fresh.inbound.incoming = rest

theorem reset_incoming {L : Llhttp} {conn fresh : ClientConnection L}
    (h : ClientConnection.reset conn = .ok () fresh) :
    fresh.inbound.incoming = conn.inbound.incoming := by
  obtain ⟨-, rfl⟩ := ClientConnection.reset_eq_ok h
  rfl

/-- **Responses to HEAD**: in every run, the response to each request of a call with `HEAD` is
complete when its header section is, exactly if the section announces no body of a response to a
`GET` (`MessageHead.ends_response_iff`), there is a size to stay below and no coding is to be undone. -/
theorem head_atOnce_iff {L : Llhttp} (A : Announces L) {D : Decompressor L} (hD : D.NeedsBytes)
    (room : ℕ → ℕ) {s : ClientRun L} (h : ClientReach s) {url : Bytes} {options : FetchOptions}
    (hhead : options.method = .head) {state : FetchState} {redirectsRemaining : ℕ} {c c' : Client L}
    (hhop : Client.Hops url options s.client state redirectsRemaining c)
    {host : Bytes} {conn conn' : ClientConnection L}
    (hstart : Client.startHop state c = .ok (host, conn) c')
    (hsent : Client.requestHead (Client.requestOptions state host c'.config.userAgent) conn =
      .ok () conn') :
    (Client.requestOptions state host c'.config.userAgent).method = .head ∧
      ∃ st b rest, L.headEnd L.init conn.inbound.incoming = some (st, b, rest) ∧
        (ClientResponse.AtOnce D room rest
            ⟨conn', c'.config.maxResponseSize, state.options.decompress⟩ ↔
          (A.head st b).ends = true ∧ 0 < c'.config.maxResponseSize ∧
            (state.options.decompress = true →
              conn'.parsedResponse.contentEncoding = .identity)) := by
  refine ⟨hhop.head hhead, ?_⟩
  have hsound := hhop.sound (ClientRun.Sound.of_reach h).client
  have hready : conn.Ready := (Client.startHop_ready state).ok hsound hstart
  obtain ⟨st, b, rest, hend, hincoming, hcomplete⟩ := Client.requestHead_end A hready hsent
  refine ⟨st, b, rest, hend, ?_⟩
  have hcompressed : ClientResponse.compressed
      ⟨conn', c'.config.maxResponseSize, state.options.decompress⟩ = false ↔
        (state.options.decompress = true → conn'.parsedResponse.contentEncoding = .identity) := by
    unfold ClientResponse.compressed
    cases state.options.decompress <;> simp
  constructor
  · intro hatOnce
    have hbody := (ClientResponse.body_complete hD room hatOnce.complete).mp hatOnce.body
    exact ⟨hcomplete.symm.trans hatOnce.complete, hbody.2, hcompressed.mp hbody.1⟩
  · rintro ⟨hends, hsize, hcoding⟩
    have hdone : conn'.isBodyComplete = true := hcomplete.trans hends
    refine ⟨hdone, ?_, ?_, fun fresh hreset => ?_⟩
    · exact (ClientResponse.body_complete hD room hdone).mpr ⟨hcompressed.mpr hcoding, hsize⟩
    · rw [final_of_ok (Client.drainRedirect_complete hdone)]
      exact Client.closeIf_inbound _ _
    · rw [reset_incoming hreset, Client.settle_inbound]
      exact hincoming

/-! ### Samples -/

/-- A decompressor that makes nothing of what it reads. -/
def noDecompressor (L : Llhttp) : Decompressor L := ⟨fun _ _ => Act.fail .readFailed⟩

/-- The first request of a call with `HEAD`. -/
def headState : FetchState where
  uri := { scheme := ascii "http", host := some (ascii "a"), path := ascii "/" }
  port := 80
  protocol := .http
  options := { method := .head }

theorem headState_hop {L : Llhttp} (c : Client L) :
    Client.Hops (ascii "http://a/") { method := .head } c headState
      (({ method := .head } : FetchOptions).maxRedirects.getD c.config.maxRedirects) c :=
  .first (by decide +kernel) (by decide +kernel)

/-- A client whose server announces a body of some length. -/
def announced (length : Bytes) : Client (Http1.llhttp true) :=
  Client.answered [[ascii "HTTP/1.1 200 OK\r\nContent-Length: " ++ length ++ ascii "\r\n\r\n"]]

theorem head_atOnce_iff_sample : ∃ conn' : ClientConnection (Http1.llhttp true),
    ClientResponse.AtOnce (noDecompressor (Http1.llhttp true)) id [] ⟨conn', 10485760, true⟩ := by
  have hrun := yields_iff.mp (show yields (fun r c => decide (c.config.maxResponseSize = 10485760) &&
      decide (r.2.2.parsedResponse.contentEncoding = .identity) &&
      decide (((Http1.llhttp true).headEnd (Http1.llhttp true).init r.2.1.inbound.incoming).map
        (fun e => ((Http1.announces.head e.1 e.2.1).ends, e.2.2)) = some (true, [])))
    (Client.ask headState) (announced (ascii "0")) = true by decide +kernel)
  obtain ⟨⟨host, conn, conn'⟩, c', hask, htest⟩ := hrun
  simp only [Bool.and_eq_true, decide_eq_true_eq] at htest
  obtain ⟨⟨hsize, hcoding⟩, hends⟩ := htest
  obtain ⟨hstart, hsent⟩ := Client.ask_ok hask
  have hreach : ClientReach (L := Http1.llhttp true) ⟨announced (ascii "0"), []⟩ := .start rfl rfl
  obtain ⟨-, st, b, rest, hend, hiff⟩ := head_atOnce_iff Http1.announces
    (D := noDecompressor (Http1.llhttp true)) (fun _ _ _ _ => rfl) id hreach
    (show ({ method := .head } : FetchOptions).method = .head from rfl) (headState_hop _) hstart hsent
  rw [hend] at hends
  simp only [Option.map_some, Option.some.injEq, Prod.mk.injEq] at hends
  obtain ⟨hends, rfl⟩ := hends
  refine ⟨conn', ?_⟩
  rw [← hsize]
  exact hiff.mpr ⟨hends, by omega, fun _ => hcoding⟩

/-- The response to a `HEAD` that announces five bytes is not complete with its header section, and
a client that asks for its body waits for them. -/
theorem head_waits : ∃ (c' : Client (Http1.llhttp true)) (host : Bytes)
    (conn conn' : ClientConnection (Http1.llhttp true)),
    ClientReach ⟨announced (ascii "5"), []⟩ ∧
      Client.startHop headState (announced (ascii "5")) = .ok (host, conn) c' ∧
      Client.requestHead (Client.requestOptions headState host c'.config.userAgent) conn =
        .ok () conn' ∧
      (∀ D room rest size decompress, ¬ ClientResponse.AtOnce D room rest ⟨conn', size, decompress⟩) ∧
      faults (.err .readFailed) (ClientResponse.body (noDecompressor _) id) ⟨conn', 9, true⟩ = true := by
  have hrun := yields_iff.mp (show yields (fun r _ => !r.2.2.isBodyComplete &&
      faults (.err .readFailed) (ClientResponse.body (noDecompressor _) id) ⟨r.2.2, 9, true⟩)
    (Client.ask headState) (announced (ascii "5")) = true by decide +kernel)
  obtain ⟨⟨host, conn, conn'⟩, c', hask, htest⟩ := hrun
  simp only [Bool.and_eq_true, Bool.not_eq_true'] at htest
  obtain ⟨hcomplete, hbody⟩ := htest
  obtain ⟨hstart, hsent⟩ := Client.ask_ok hask
  refine ⟨c', host, conn, conn', .start rfl rfl, hstart, hsent, ?_, hbody⟩
  intro D room rest size decompress hatOnce
  have hdone : conn'.isBodyComplete = true := hatOnce.complete
  rw [hcomplete] at hdone
  cases hdone

end Dusty
