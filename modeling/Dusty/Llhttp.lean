import Dusty.Http

/-! # llhttp

The incremental parser the library is built on, as a parameter.  `llhttp` is a generated
automaton of some ten thousand lines that runs over its input byte by byte and reports what it
finds through callbacks.  `Llhttp` says just this: a state, what each byte does to it, and what
is called on the way.  What the grammar of HTTP makes of a byte is left open.

A callback comes before its byte is consumed or right behind it.  The two that pause the parser,
at the end of the header section and at the end of the message, always come behind a byte or
behind one another, because the automaton reaches them without looking at another byte. -/

namespace Dusty

/-- `llhttp_errno_t`, without `HPE_OK` and `HPE_PAUSED`. -/
inductive Errno where
  | invalidMethod | invalidUrl | invalidHeaderToken | invalidVersion | invalidStatus
  | invalidChunkSize | unexpectedContentLength | closedConnection
  | cbStatusComplete | cbHeaderValueComplete
  | other (code : ℕ)
deriving DecidableEq, Repr

/-- Why the parser does not go on: a callback paused it (`HPE_PAUSED`), or an error. -/
inductive Halt where
  | paused
  | error (e : Errno)
deriving DecidableEq, Repr

/-- `mapError`. -/
def mapError : Errno → Error
  | .invalidMethod => .invalidMethod
  | .invalidUrl => .invalidUrl
  | .invalidHeaderToken => .invalidHeaderToken
  | .invalidVersion => .invalidVersion
  | .invalidStatus => .invalidStatus
  | .cbStatusComplete => .invalidStatus
  | .invalidChunkSize => .invalidChunkSize
  | .unexpectedContentLength => .unexpectedContentLength
  | .closedConnection => .closedConnection
  | _ => .parseFailed

/-- The parts of a message whose bytes are handed over: `on_url`, `on_header_field`,
`on_header_value`, `on_body`. -/
inductive Span where
  | url | headerField | headerValue | body
deriving DecidableEq, Repr

/-- Callbacks that never pause, with what the parser knows by then. -/
inductive Mark where
  | method (m : Method)
  | version (major minor : ℕ)
  | urlComplete
  | statusComplete (code : ℕ)
  | headerFieldComplete
  | headerValueComplete
deriving DecidableEq, Repr

/-- What happens between two bytes. -/
inductive Event where
  | mark (m : Mark)
  | headersComplete
  | messageComplete
  | fail (e : Errno)
deriving DecidableEq, Repr

/-- What the automaton does with a byte: the callbacks before it is consumed, the span it
belongs to and whether that ends with it, what happens behind it, and the state after it. -/
structure Reaction (σ : Type) where
  next : σ
  before : List Mark := []
  span : Option Span := none
  closes : Bool := false
  after : List Event := []

/-- `llhttp_finish_t`: what the end of the input means in a state. -/
inductive Finish where
  | safe | safeWithCb | unfinished
deriving DecidableEq, Repr

/-- The message does not end before its header section does. -/
def headFirst : List Event → Bool
  | [] => true
  | .headersComplete :: _ => true
  | .messageComplete :: _ => false
  | _ :: rest => headFirst rest

/-- The automaton.  `inHead` are the states up to the end of the header section. -/
structure Llhttp where
  State : Type
  init : State
  step : State → UInt8 → Reaction State
  finish : State → Finish
  shouldKeepAlive : State → Bool
  inHead : State → Bool
  inHead_init : inHead init = true
  headFirst_step : ∀ s b, inHead s = true → headFirst (step s b).after = true
  inHead_step : ∀ s b, inHead s = true → .headersComplete ∉ (step s b).after →
    inHead (step s b).next = true

end Dusty
