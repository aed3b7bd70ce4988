import Dusty.MessageRead
import Dusty.Http1

/-! # However the head is cut

The loop that parses a header section sees the bytes in the pieces the peer's reads come in.  What it comes to is a
function of the bytes alone (`headOutcome`): they are put into the parser at once, as many as the buffer takes.
`parseLoop_outcome` says that the loop computes this function, so two connections on which the same bytes arrive in
different pieces end with the same parser, the same message and the same bytes unread (`head_splits`). -/

namespace Dusty
namespace Inbound

open Act Dusty.Parser

variable {L : Llhttp} {M : Type} {T : Target M}

/-! ### The outcome of a header section -/

/-- What the end of the bytes means in the middle of a header section. -/
def endOutcome (incomplete : Error) (failure : Option Error) (stream : Bytes) : Error :=
  match failure with
  | none => if stream.length = 0 then .endOfStream else incomplete
  | some _ => .readFailed

/-- What the bytes of a stream come to in a buffer of a size, all at once: the length of the header section and the
parser behind it. -/
def headOutcome (T : Target M) (p₀ : Parser L M) (base cap : ℕ) (incomplete : Error) (failure : Option Error)
    (stream : Bytes) : Except Fault (ℕ × Parser L M) :=
  match eat T base (stream.take cap) p₀ with
  | .error f _ => .error f
  | .ok () p => match p.errno with
    | some .paused => .ok (p.errorPos - base, p)
    | some (.error e) => .error (.err (mapError e))
    | none => if cap ≤ stream.length then .error (.panic .fillMoreCapacity)
        else .error (.err (endOutcome incomplete failure stream))

/-- The loop comes to an outcome. -/
def Yields (T : Target M) (p₀ : Parser L M) (base cap : ℕ) (failure : Option Error) (stream : Bytes)
    (outcome : Except Fault (ℕ × Parser L M)) (result : EStateM.Result Fault (Inbound L M) ℕ) : Prop :=
  match outcome with
  | .ok (n, p) => ∃ s', result = .ok n s' ∧ HeadDone T p₀ base cap stream n s' ∧ s'.parser = p ∧
      s'.net.failure = failure
  | .error f => ∃ s', result = .error f s'

section outcome
variable {p₀ : Parser L M} {base cap k : ℕ} {stream : Bytes} {s : Inbound L M} {incomplete : Error}
  {failure : Option Error}

/-- The bytes in the buffer are first of those that fit. -/
theorem Reading.eat_cap (h : Reading T p₀ base cap stream k s) :
    eat T base (stream.take cap) p₀ = (eat T base s.reader.data >>= fun _ =>
      eat T (base + s.reader.data.length) ((stream.take cap).drop s.reader.data.length)) p₀ := by
  have htake := h.take le_rfl
  rw [List.take_length] at htake
  rw [eat_take_add T p₀ base stream h.full, ← htake]

/-- A parser that the buffered bytes have stopped takes no more of the stream. -/
theorem Reading.eat_cap_stopped (h : Reading T p₀ base cap stream k s) {p : Parser L M}
    (hp : eat T base s.reader.data p₀ = .ok () p) (hstop : p.errno ≠ none) :
    eat T base (stream.take cap) p₀ = .ok () p := by
  rw [h.eat_cap, bind_ok hp, eat_stopped T hstop]

theorem Reading.eat_data (h : Reading T p₀ base cap stream k s) (hnil : ¬(s.reader.data.drop k).length > 0) :
    eat T base s.reader.data p₀ = .ok () s.parser := by
  have hparser := h.parser_eq
  rwa [h.drop_nil hnil, List.take_length] at hparser

/-- A read that finds the end of what the peer sends. -/
theorem endOfHead_outcome (h : Reading T p₀ base cap stream k s) (hnil : ¬(s.reader.data.drop k).length > 0)
    (hnet : s.net.chunks = []) (hroom : s.reader.data.length < cap) (incomplete : Error) :
    ∃ s', endOfHead incomplete k fillMore s = .error (.err (endOutcome incomplete s.net.failure stream)) s' := by
  have hlt : s.reader.seek + s.reader.data.length < s.reader.cap := by
    have hseek := h.seek_eq
    have hcap := h.cap_eq
    omega
  have hstream : stream.length = k := by
    rw [← h.stream_eq, hnet, List.flatten_nil, List.append_nil]
    exact (h.drop_nil hnil).symm
  have hcap : ¬s.reader.cap ≤ s.reader.data.length := by omega
  unfold endOfHead endOutcome
  cases hfailure : s.net.failure with
  | none =>
      have hfill : fillMore s = .error (.err .endOfStream) s.awaits := by
        rw [fillMore, bind_ok (get_run s), if_neg hcap, bind_ok (modify_run ..), hnet, hfailure]
        rfl
      rw [bind_ok (attempt_error hfill), hstream]
      exact ⟨_, rfl⟩
  | some e =>
      have hfill : fillMore s = .error (.err .readFailed) { s.awaits with readErr := some e } := by
        rw [fillMore, bind_ok (get_run s), if_neg hcap, bind_ok (modify_run ..), hnet, hfailure]
        rfl
      rw [bind_ok (attempt_error hfill)]
      exact ⟨_, rfl⟩

/-- **The loop computes the outcome.**  The induction is on the turns of the loop: a turn that feeds what is buffered
settles the outcome or leaves the parser undecided, and a turn that reads changes no byte of the stream. -/
theorem parseLoop_outcome (hT : T.Lawful) (incomplete : Error) (fuel : ℕ) (h : Reading T p₀ base cap stream k s)
    (hfailure : s.net.failure = failure) (hfuel : turnsLeft k s + 2 ≤ fuel) :
    Yields T p₀ base cap failure stream (headOutcome T p₀ base cap incomplete failure stream)
      (parseLoop T incomplete fuel k s) := by
  induction fuel generalizing k s with
  | zero => omega
  | succ fuel ih =>
      by_cases hlen : (s.reader.data.drop k).length > 0
      · rw [parseLoop_feed h hlen, bind_run, feedUnparsed_run h]
        rcases h.eat_cases hT with ⟨p, hp, core, hcore, hrun⟩ | ⟨p, q, hp, hq, hq', hstop⟩ | ⟨p, hp⟩
        · have hk : k + (s.reader.data.length - k) = s.reader.data.length := Nat.add_sub_cancel' h.le
          simp only [hp, hrun.errno, hk]
          apply ih (h.fed hp ⟨core, hcore, hrun⟩) hfailure
          have := turnsLeft_fed hlen p
          omega
        · have hall := h.eat_cap_stopped hp hstop.errno
          simp only [hp]
          cases herr : p.errno with
          | none => exact absurd herr hstop.errno
          | some halt =>
              cases halt with
              | error e =>
                  simp only [headOutcome, hall, herr]
                  exact ⟨_, rfl⟩
              | paused =>
                  have hdone := h.done hp hq hq' hstop herr
                  have hn : p.errorPos - base = k + (p.errorPos - (base + k)) := by
                    have := hstop.errorPos
                    omega
                  obtain ⟨turns, rfl⟩ : ∃ turns, fuel = turns + 1 := Nat.exists_eq_succ_of_ne_zero (by omega)
                  simp only [headOutcome, hall, herr, hn]
                  exact ⟨_, parseLoop_done hdone.head incomplete turns, hdone, rfl, hfailure⟩
        · have hall : eat T base (stream.take cap) p₀ = .error (.panic .assertion) p := by
            rw [h.eat_cap, bind_error hp]
          simp only [hp, headOutcome, hall]
          exact ⟨_, rfl⟩
      · rw [parseLoop_fill h hlen, bind_run]
        have hdata := h.eat_data hlen
        obtain ⟨core, -, hrun⟩ := h.running
        by_cases hfull : cap ≤ s.reader.data.length
        · obtain ⟨hcap, htake⟩ := h.take_cap hfull
          rw [endOfHead_full h hfull]
          simp only [headOutcome, htake, hdata, hrun.errno, if_pos hcap]
          exact ⟨_, rfl⟩
        · have hroom : s.reader.data.length < cap := by omega
          cases hnet : s.net.chunks with
          | nil =>
              have hstream : s.reader.data = stream := by
                rw [← h.stream_eq, hnet, List.flatten_nil, List.append_nil]
              obtain ⟨s', hend⟩ := endOfHead_outcome h hlen hnet hroom incomplete
              rw [hstream] at hroom hdata
              rw [hend, hfailure]
              simp only [headOutcome, List.take_of_length_le hroom.le, hdata, hrun.errno, if_neg hroom.not_ge]
              exact ⟨s', rfl⟩
          | cons chunk rest =>
              rw [endOfHead_chunk h hnet hroom]
              apply ih (h.received hnet hroom) hfailure
              have := h.turnsLeft_received hnet hroom
              omega

end outcome

/-! ### Two ways to cut the same bytes -/

/-- Two connections with a parser and a buffer alike, on which the same bytes arrive and the same end: only how the
bytes are cut, and how many are buffered, may differ. -/
structure SameBytes (s s' : Inbound L M) : Prop where
  parser : s'.parser = s.parser
  base : s'.reader.base = s.reader.base
  cap : s'.reader.cap = s.reader.cap
  seek : s'.reader.seek = s.reader.seek
  incoming : s'.incoming = s.incoming
  failure : s'.net.failure = s.net.failure

/-- Two runs end alike: both fail with the same fault, or both succeed and are as good as one another. -/
inductive EndAlike {α : Type} : EStateM.Result Fault (Inbound L M) α → EStateM.Result Fault (Inbound L M) α → Prop
  | ok {a : α} {s s' : Inbound L M} : SameBytes s s' → EndAlike (.ok a s) (.ok a s')
  | error {f : Fault} {s s' : Inbound L M} : EndAlike (.error f s) (.error f s')

theorem EndAlike.succeeds {α : Type} {r r' : EStateM.Result Fault (Inbound L M) α} (h : EndAlike r r') {a : α}
    {s : Inbound L M} (hr : r = .ok a s) : ∃ s', r' = .ok a s' ∧ SameBytes s s' := by
  cases h with
  | ok hsame =>
      cases hr
      exact ⟨_, rfl, hsame⟩
  | error => cases hr

/-- What the loop comes to for a parser that has seen nothing. -/
theorem parseHead_outcome (hT : T.Lawful) (s : Inbound L M) (hseek : s.reader.seek = 0) {msg : M}
    (hp : s.parser = Parser.init msg) (incomplete : Error) :
    Yields T s.parser s.reader.base s.reader.cap s.net.failure s.incoming
      (headOutcome T s.parser s.reader.base s.reader.cap incomplete s.net.failure s.incoming)
      (parseLoop T incomplete s.headFuel 0 s) :=
  parseLoop_outcome hT incomplete s.headFuel (reading_start T hseek hp).1 rfl (turnsLeft_start s)

/-- Behind the same header section the body is entered alike. -/
theorem enterBody_alike {p₀ : Parser L M} {base cap k : ℕ} {stream : Bytes} {s s' : Inbound L M}
    (h : HeadDone T p₀ base cap stream k s) (h' : HeadDone T p₀ base cap stream k s') (hparser : s'.parser = s.parser)
    (hfailure : s'.net.failure = s.net.failure) : EndAlike (enterBody T k s) (enterBody T k s') := by
  have hcut : SameBytes (s.cut k h.le) (s'.cut k h'.le) := by
    refine ⟨congrArg Parser.resumeParsing hparser, ?_, ?_, rfl, ?_, hfailure⟩
    · show s'.reader.base + (s'.reader.seek + k) = s.reader.base + (s.reader.seek + k)
      rw [h.base_eq, h'.base_eq, h.seek_eq, h'.seek_eq]
    · rw [cut_cap h, cut_cap h']
    · show s'.reader.data.drop k ++ s'.net.chunks.flatten = s.reader.data.drop k ++ s.net.chunks.flatten
      rw [← List.drop_append_of_le_length h.le, ← List.drop_append_of_le_length h'.le, h.stream_eq, h'.stream_eq]
  rw [enterBody_run h, enterBody_run h', bind_run, bind_run, onParser_run, onParser_run, hcut.parser]
  cases Parser.feed T 0 [] (s.cut k h.le).parser with
  | ok paused p => exact .ok ⟨rfl, hcut.base, hcut.cap, hcut.seek, hcut.incoming, hcut.failure⟩
  | error f p => exact .error

/-- **However the head is cut**, parsing it ends alike. -/
theorem parseHead_splits (hT : T.Lawful) {s s' : Inbound L M} (h : SameBytes s s') (hseek : s.reader.seek = 0)
    {msg : M} (hp : s.parser = Parser.init msg) (incomplete : Error) :
    EndAlike (parseHead T incomplete s) (parseHead T incomplete s') := by
  have hloop := parseHead_outcome hT s hseek hp incomplete
  have hloop' := parseHead_outcome hT s' (h.seek.trans hseek) (h.parser.trans hp) incomplete
  rw [h.parser, h.base, h.cap, h.failure, h.incoming] at hloop'
  unfold parseHead
  rw [bind_ok (get_run s), bind_ok (get_run s')]
  cases houtcome : headOutcome T s.parser s.reader.base s.reader.cap incomplete s.net.failure s.incoming with
  | error f =>
      rw [houtcome] at hloop hloop'
      obtain ⟨t, ht⟩ := hloop
      obtain ⟨t', ht'⟩ := hloop'
      rw [bind_error ht, bind_error ht']
      exact .error
  | ok section_ =>
      obtain ⟨n, p⟩ := section_
      rw [houtcome] at hloop hloop'
      obtain ⟨t, ht, hdone, hparser, hfailure⟩ := hloop
      obtain ⟨t', ht', hdone', hparser', hfailure'⟩ := hloop'
      rw [bind_ok ht, bind_ok ht']
      exact enterBody_alike hdone hdone' (hparser'.trans hparser.symm) (hfailure'.trans hfailure.symm)

/-- **However the head is cut**, `parseHeaders` and `parseResponseHeaders` end alike: with the same fault, or with the
same parser, the same message in it and the same bytes behind the head.  A body that follows is not looked at. -/
theorem head_splits (L : Llhttp) :
    (∀ (s s' : Inbound L Request) (req : Request), SameBytes s s' → s.reader.seek = 0 → s.parser = .init req →
      EndAlike (parseHeaders s) (parseHeaders s')) ∧
    ∀ (s s' : Inbound L ParsedResponse) (res : ParsedResponse), SameBytes s s' → s.reader.seek = 0 →
      s.parser = .init res → EndAlike (parseResponseHeaders s) (parseResponseHeaders s') := by
  refine ⟨fun s s' req h hseek hp => ?_, fun s s' res h hseek hp =>
    parseHead_splits Target.response_lawful h hseek hp .incompleteResponse⟩
  let msg : Request := { req with headers := .init req.config.maxHeaderCount }
  have hsame : SameBytes (s.setParser (.init msg)) (s'.setParser (.init msg)) :=
    ⟨rfl, h.base, h.cap, h.seek, h.incoming, h.failure⟩
  have hp' : s'.parser = .init req := h.parser.trans hp
  unfold parseHeaders
  rw [bind_ok (modify_run _ s), bind_ok (modify_run _ s'), hp, hp']
  exact parseHead_splits Target.request_lawful hsame hseek rfl .incompleteRequest

/-- A head that comes at once. -/
def headAtOnce : Inbound (Http1.llhttp false) Request :=
  connected (Http1.llhttp false) 64 [ascii "GET /a HTTP/1.1\r\nHost: b\r\n\r\nrest"]

/-- The same bytes in pieces, cut inside a name, a value and the last line break. -/
def headInPieces : Inbound (Http1.llhttp false) Request :=
  connected (Http1.llhttp false) 64
    [ascii "GET /a HTTP/1.1\r\nHo", ascii "st: ", [], ascii "b\r\n\r", ascii "\nre", ascii "st"]

theorem head_splits_sample : ∃ t, parseHeaders headInPieces = .ok () t ∧
    t.parser.msg.headers.get (ascii "host") = some (ascii "b") ∧ t.incoming = ascii "rest" := by
  have hsame : SameBytes headAtOnce headInPieces := ⟨rfl, rfl, rfl, rfl, by decide, rfl⟩
  have halike := (head_splits (Http1.llhttp false)).1 headAtOnce headInPieces {} hsame rfl rfl
  have hrun : yields (fun _ t => decide (t.parser.msg.headers.get (ascii "host") = some (ascii "b") ∧
      t.incoming = ascii "rest")) parseHeaders headAtOnce = true := by decide +kernel
  obtain ⟨u, t, ht, hread⟩ := yields_iff.mp hrun
  obtain ⟨t', ht', hagree⟩ := halike.succeeds ht
  obtain ⟨hhost, hrest⟩ := of_decide_eq_true hread
  refine ⟨t', ht', ?_, hagree.incoming.trans hrest⟩
  rw [hagree.parser]
  exact hhost

end Inbound
end Dusty
