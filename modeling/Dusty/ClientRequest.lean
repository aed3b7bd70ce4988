import Dusty.Conn
import Dusty.Http
import Dusty.Uri

/-! # The client's request

`writeRequest` of `client.zig`, and the rule that says which hosts may see the headers that carry
credentials. -/

namespace Dusty

/-- `Protocol`. -/
inductive Protocol where
  | http | https
deriving DecidableEq, Repr

namespace Protocol

/-- `defaultPort`. -/
def defaultPort : Protocol → ℕ
  | .http => 80
  | .https => 443

/-- `fromScheme`. -/
def fromScheme (scheme : Bytes) : Except Error Protocol :=
  if scheme = ascii "http" ∨ scheme = ascii "ws" then .ok .http
  else if scheme = ascii "https" ∨ scheme = ascii "wss" then .ok .https
  else .error .unsupportedScheme

end Protocol

/-- `uriPortAndProtocol`. -/
def uriPortAndProtocol (uri : Uri) : Except Error (ℕ × Protocol) :=
  (Protocol.fromScheme uri.scheme).map fun protocol =>
    (uri.port.getD protocol.defaultPort, protocol)

/-- `uriHost`. -/
def uriHost (uri : Uri) : Except Error Bytes :=
  match uri.getHost 255 with
  | none => .error .invalidUrl
  | some host => .ok host

/-- `uriPath`. -/
def uriPath (uri : Uri) : Bytes := if uri.path = [] then [47] else uri.path

/-- `isDomainOrSubdomain`. -/
def isDomainOrSubdomain (sub parent : Bytes) : Bool :=
  if eqlIgnoreCase sub parent then true
  else if sub.any fun c => c == 58 || c == 37 then false
  else if sub.length ≤ parent.length + 1 then false
  else sub[sub.length - parent.length - 1]? == some 46 &&
    eqlIgnoreCase (sub.drop (sub.length - parent.length)) parent

/-- `WriteRequestOptions`. -/
structure WriteRequestOptions where
  method : Method
  uri : Uri
  host : Bytes
  port : ℕ
  protocol : Protocol
  headers : Option Headers := none
  body : Option Bytes := none
  decompress : Bool := true
  stripSensitiveHeaders : Bool := false
  stripBodyHeaders : Bool := false
  referer : Option Bytes := none
  userAgent : Option Bytes := none

/-- The headers that are not sent on to other sites. -/
def sensitiveHeaders : List Bytes :=
  [ascii "Authorization", ascii "Www-Authenticate", ascii "Cookie", ascii "Cookie2",
    ascii "Proxy-Authorization", ascii "Proxy-Authenticate"]

/-- The headers that say something about a body. -/
def bodyHeaders : List Bytes :=
  [ascii "Content-Encoding", ascii "Content-Language", ascii "Content-Location",
    ascii "Content-Type"]

/-- A name of the list, in any letter case. -/
def isNamed (names : List Bytes) (key : Bytes) : Bool := names.any fun name => eqlIgnoreCase key name

/-- Which automatic headers the user has given. -/
structure GivenHeaders where
  acceptEncoding : Bool := false
  referer : Bool := false
  userAgent : Bool := false
deriving DecidableEq

/-- The user's header is noted. -/
def GivenHeaders.note (given : GivenHeaders) (key : Bytes) : GivenHeaders where
  acceptEncoding := given.acceptEncoding || eqlIgnoreCase key (ascii "Accept-Encoding")
  referer := given.referer || eqlIgnoreCase key (ascii "Referer")
  userAgent := given.userAgent || eqlIgnoreCase key (ascii "User-Agent")

namespace WriteRequestOptions

/-- `validateHeaderName`. -/
def validateHeaderName (name : Bytes) : Act Conn Unit :=
  if validHeaderName name then pure () else Act.fail .invalidHeaderName

/-- `validateHeaderValue`. -/
def validateHeaderValue (value : Bytes) : Act Conn Unit :=
  if validHeaderValue value then pure () else Act.fail .invalidHeaderValue

/-- `{s}: {s}\r\n`. -/
def writeField (name value : Bytes) : Act Conn Unit :=
  Conn.writeAll .head (name ++ ascii ": " ++ value ++ crlf)

/-- A header of the user is left out, as the options say. -/
def strips (opts : WriteRequestOptions) (key : Bytes) : Bool :=
  opts.stripSensitiveHeaders && isNamed sensitiveHeaders key ||
    opts.stripBodyHeaders && isNamed bodyHeaders key

/-- The loop over the user's headers. -/
def writeHeaders (opts : WriteRequestOptions) :
    List HeaderEntry → GivenHeaders → Act Conn GivenHeaders
  | [], given => pure given
  | entry :: rest, given =>
      if isNamed [ascii "Host", ascii "Content-Length"] entry.key then writeHeaders opts rest given
      else if opts.strips entry.key then writeHeaders opts rest (given.note entry.key)
      else do
        validateHeaderName entry.key
        validateHeaderValue entry.value
        writeField entry.key entry.value
        writeHeaders opts rest (given.note entry.key)

/-- The request line. -/
def requestLine (opts : WriteRequestOptions) : Bytes :=
  opts.method.name ++ [32] ++ uriPath opts.uri ++
    (match opts.uri.query with
      | none => []
      | some query => 63 :: query) ++ ascii " HTTP/1.1" ++ crlf

/-- The value of the `Host` header. -/
def hostValue (opts : WriteRequestOptions) : Bytes :=
  if opts.port = opts.protocol.defaultPort then opts.host
  else opts.host ++ [58] ++ fmtNat 10 opts.port

/-- A header that is sent along unless the user has given it. -/
def writeDefault (name : Bytes) (value : Option Bytes) (given : Bool) : Act Conn Unit :=
  match value with
  | none => pure ()
  | some value => Act.when (!given) do
      validateHeaderValue value
      writeField name value

/-- `Content-Length`, for a body. -/
def writeContentLength : Option Bytes → Act Conn Unit
  | none => pure ()
  | some body => writeField (ascii "Content-Length") (fmtNat 10 body.length)

/-- The body. -/
def writeBody : Option Bytes → Act Conn Unit
  | none => pure ()
  | some body => Conn.writeAll .body body

/-- `writeRequest`. -/
def writeRequest (opts : WriteRequestOptions) : Act Conn Unit := do
  validateHeaderValue opts.host
  Conn.writeAll .head opts.requestLine
  writeField (ascii "Host") opts.hostValue
  writeContentLength opts.body
  let given ← opts.writeHeaders (opts.headers.elim [] (·.entries)) {}
  writeDefault (ascii "Referer") opts.referer given.referer
  writeDefault (ascii "User-Agent") opts.userAgent given.userAgent
  Act.when (opts.decompress && !given.acceptEncoding)
    (writeField (ascii "Accept-Encoding") (ascii "gzip, deflate"))
  Conn.writeAll .head crlf
  writeBody opts.body

end WriteRequestOptions
end Dusty
