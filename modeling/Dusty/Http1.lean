import Dusty.Llhttp
import Dusty.MessageHead
import Dusty.Numerals
import Mathlib.Data.List.DropRight

/-! # HTTP/1.1 in small

An automaton for the messages everybody sends: a request or status line, header fields, and a
body that is announced by its length, comes in chunks, or lasts as long as the connection.  On
these it calls back where `llhttp` does, and `http.c` says of it what follows a header section.
It serves to run the model on concrete input. -/

namespace Dusty
namespace Http1

/-- Where in a message the automaton is.  `trailer` says whether the fields are those behind
the last chunk. -/
inductive Phase where
  | start
  | method | url | version
  | status | reason
  | lineEnd
  | fieldStart (trailer complete : Bool)
  | field (trailer : Bool)
  | valueStart (trailer : Bool)
  | value (trailer : Bool)
  | valueEnd (trailer : Bool)
  | headEnd (trailer : Bool)
  | body (left : ℕ)
  | chunkSize (size : ℕ)
  | chunkStart (size : ℕ)
  | chunk (left : ℕ)
  | chunkEnd (lf : Bool)
  | untilClose
deriving DecidableEq, Repr

/-- The state: the token under way, the header field it belongs to, the status of a response, and
what the header section said about the body and the connection. -/
structure State where
  phase : Phase := .start
  token : Bytes := []
  name : Bytes := []
  status : ℕ := 0
  length : Option ℕ := none
  chunked : Bool := false
  close : Bool := false
deriving DecidableEq, Repr

namespace State

def goto (s : State) (phase : Phase) : State := { s with phase := phase }

/-- One byte more of a token. -/
def take (s : State) (phase : Phase) (b : UInt8) : State :=
  { s with phase := phase, token := s.token ++ [b] }

/-- The token is complete. -/
def drop (s : State) (phase : Phase) : State := { s with phase := phase, token := [] }

/-- A header field is complete: what it says about the message. -/
def endField (s : State) (phase : Phase) : State :=
  if eqlIgnoreCase s.name (ascii "Content-Length") then
    -- blanks behind the number do not belong to it
    { s.drop phase with length := parseInt usizeBound 10 (s.token.rdropWhile (· = 32)) }
  else if eqlIgnoreCase s.name (ascii "Transfer-Encoding") then
    { s.drop phase with chunked := true }
  else if eqlIgnoreCase s.name (ascii "Connection") then
    { s.drop phase with close := eqlIgnoreCase s.token (ascii "close") }
  else s.drop phase

@[simp] theorem endField_phase (s : State) (phase : Phase) : (s.endField phase).phase = phase := by
  unfold endField
  split
  · rfl
  split
  · rfl
  split <;> rfl

end State
/-- The methods it knows. -/
def methodOf (token : Bytes) : Option Method :=
  [.get, .head, .post, .put, .delete, .options, .patch].find? fun m => m.name == token

/-- An error at a byte. -/
def reject (s : State) (e : Errno) : Reaction State := { next := s, after := [.fail e] }

/-- What the automaton has noted. -/
def headOf (response : Bool) (s : State) : MessageHead where
  response := response
  statusCode := s.status
  contentLength := s.length.getD 0
  chunkedFlag := s.chunked
  contentLengthFlag := s.length.isSome
  transferEncodingFlag := s.chunked

/-- What the end of the header section leads to. -/
def endHead (response : Bool) (s : State) : Reaction State :=
  match (headOf response s).afterHeadersComplete with
  | .noBody | .upgraded => { next := s.goto .start, after := [.headersComplete, .messageComplete] }
  | .chunkSizeStart => { next := s.goto (.chunkSize 0), after := [.headersComplete] }
  | .bodyIdentity => { next := s.goto (.body (s.length.getD 0)), after := [.headersComplete] }
  | .bodyIdentityEof => { next := s.goto .untilClose, after := [.headersComplete] }
  | .invalidTransferEncoding => { next := s, after := [.headersComplete, .fail (.other 15)] }

/-- The first byte of a message, in a clean state. -/
def startMessage (response : Bool) (b : UInt8) : Reaction State :=
  if b = 13 ∨ b = 10 then { next := {} }
  else { next := ({} : State).take (if response then .version else .method) b }

/-- The beginning of a line of the fields. -/
def startField (s : State) (trailer : Bool) (b : UInt8) (before : List Mark) : Reaction State :=
  if b = 13 then { next := s.goto (.headEnd trailer), before := before }
  else
    { next := { s.take (.field trailer) b with name := [b], token := [] }
      before := before, span := some .headerField }

/-- One byte. -/
def step (response : Bool) (s : State) (b : UInt8) : Reaction State :=
  match s.phase with
  | .start => startMessage response b
  | .method =>
      if b = 32 then match methodOf s.token with
        | some m => { next := s.drop .url, before := [.method m] }
        | none => reject s .invalidMethod
      else { next := s.take .method b }
  | .url =>
      if b = 32 then { next := s.drop .version, before := [.urlComplete] }
      else { next := s.take .url b, span := some .url }
  | .version =>
      if b = (if response then 32 else 13) then
        if s.token = ascii "HTTP/1.1" then
          { next := s.drop (if response then .status else .lineEnd), before := [.version 1 1] }
        else reject s .invalidVersion
      else { next := s.take .version b }
  | .status =>
      if b = 32 then { next := s.goto .reason } else { next := s.take .status b }
  | .reason =>
      if b = 13 then match parseInt usizeBound 10 s.token with
        | some code => { next := { s.drop .lineEnd with status := code }, before := [.statusComplete code] }
        | none => reject s .invalidStatus
      else { next := s }
  | .lineEnd =>
      if b = 10 then { next := s.goto (.fieldStart false false) } else reject s (.other 2)
  | .fieldStart trailer complete =>
      startField s trailer b (if complete then [.headerValueComplete] else [])
  | .field trailer =>
      if b = 58 then { next := s.goto (.valueStart trailer), before := [.headerFieldComplete] }
      else { next := { s with name := s.name ++ [b] }, span := some .headerField }
  | .valueStart trailer =>
      if b = 32 then { next := s }
      else if b = 13 then { next := s.goto (.valueEnd trailer) }
      else { next := s.take (.value trailer) b, span := some .headerValue }
  | .value trailer =>
      if b = 13 then { next := s.goto (.valueEnd trailer) }
      else { next := s.take (.value trailer) b, span := some .headerValue }
  | .valueEnd trailer =>
      if b = 10 then { next := s.endField (.fieldStart trailer true) } else reject s (.other 2)
  | .headEnd trailer =>
      if b = 10 then
        if trailer then { next := s.goto .start, after := [.messageComplete] }
        else endHead response s
      else reject s (.other 2)
  | .body left =>
      if left ≤ 1 then
        { next := s.goto .start, span := some .body, closes := true, after := [.messageComplete] }
      else { next := s.goto (.body (left - 1)), span := some .body }
  | .chunkSize size =>
      if b = 13 then { next := s.goto (.chunkStart size) }
      else match charToDigit 16 b with
        | some digit => { next := s.goto (.chunkSize (size * 16 + digit)) }
        | none => reject s .invalidChunkSize
  | .chunkStart size =>
      if b = 10 then
        if size = 0 then { next := s.goto (.fieldStart true false) }
        else { next := s.goto (.chunk size) }
      else reject s (.other 2)
  | .chunk left =>
      if left ≤ 1 then { next := s.goto (.chunkEnd false), span := some .body, closes := true }
      else { next := s.goto (.chunk (left - 1)), span := some .body }
  | .chunkEnd lf =>
      if b = (if lf then 10 else 13) then
        { next := s.goto (if lf then .chunkSize 0 else .chunkEnd true) }
      else reject s (.other 2)
  | .untilClose => { next := s, span := some .body }

/-- The phases up to the end of the header section. -/
def Phase.inHead : Phase → Bool
  | .start | .method | .url | .version | .status | .reason | .lineEnd => true
  | .fieldStart trailer _ | .field trailer | .valueStart trailer | .value trailer
  | .valueEnd trailer | .headEnd trailer => !trailer
  | .body _ | .chunkSize _ | .chunkStart _ | .chunk _ | .chunkEnd _ | .untilClose => false

theorem headFirst_endHead (response : Bool) (s : State) :
    headFirst (endHead response s).after = true := by
  unfold endHead
  cases (headOf response s).afterHeadersComplete <;> rfl

theorem headersComplete_endHead (response : Bool) (s : State) :
    .headersComplete ∈ (endHead response s).after := by
  unfold endHead
  cases (headOf response s).afterHeadersComplete <;> simp

theorem startField_spec (s : State) (trailer : Bool) (b : UInt8) (before : List Mark) :
    (startField s trailer b before).after = [] ∧
      (startField s trailer b before).next.phase.inHead = !trailer := by
  unfold startField
  split <;> exact ⟨rfl, rfl⟩

theorem startMessage_spec (response : Bool) (b : UInt8) :
    (startMessage response b).after = [] ∧
      (startMessage response b).next.phase.inHead = true := by
  unfold startMessage
  split
  · exact ⟨rfl, rfl⟩
  · cases response <;> exact ⟨rfl, rfl⟩

theorem step_inHead (response : Bool) (s : State) (b : UInt8) (h : s.phase.inHead = true) :
    headFirst (step response s b).after = true ∧
      (.headersComplete ∉ (step response s b).after →
        (step response s b).next.phase.inHead = true) := by
  unfold step
  cases hphase : s.phase with
  | start =>
      obtain ⟨hafter, hnext⟩ := startMessage_spec response b
      simp only [hafter, hnext]
      exact ⟨rfl, fun _ => trivial⟩
  | fieldStart trailer complete =>
      rw [hphase] at h
      obtain ⟨hafter, hnext⟩ :=
        startField_spec s trailer b (if complete then [.headerValueComplete] else [])
      simp only [hafter, hnext]
      exact ⟨rfl, fun _ => h⟩
  | headEnd trailer =>
      rw [hphase] at h
      obtain rfl : trailer = false := by simpa [Phase.inHead] using h
      simp only [Bool.false_eq_true, if_false]
      split
      · exact ⟨headFirst_endHead response s,
          fun hnot => absurd (headersComplete_endHead response s) hnot⟩
      · exact ⟨rfl, fun _ => by simp [reject, hphase, Phase.inHead]⟩
  | body | chunkSize | chunkStart | chunk | chunkEnd | untilClose =>
      rw [hphase] at h
      cases h
  | _ =>
      rw [hphase] at h
      simp only
      repeat' split
      all_goals
        refine ⟨rfl, fun _ => ?_⟩
        simp_all [reject, State.goto, State.take, State.drop, Phase.inHead]

/-- The automaton, for requests or for responses. -/
def llhttp (response : Bool) : Llhttp where
  State := State
  init := {}
  step := step response
  finish s := match s.phase with
    | .start => .safe
    | .untilClose => .safeWithCb
    | _ => .unfinished
  shouldKeepAlive s := !s.close && !(headOf response s).messageNeedsEof
  inHead s := s.phase.inHead
  inHead_init := rfl
  headFirst_step s b h := (step_inHead response s b h).1
  inHead_step s b h := (step_inHead response s b h).2

end Http1
end Dusty
