import Dusty.Act
import Dusty.Numerals

/-! # HTTP vocabulary

Methods, statuses, content types and the `Headers` multimap of `http.zig`, with the checks
every header field passes before it is stored or written. -/

namespace Dusty

/-- Request methods, numbered as `llhttp` numbers them. -/
inductive Method where
  | delete | get | head | post | put | connect | options | trace | copy | lock | mkcol | move
  | propfind | proppatch | search | unlock | bind | rebind | unbind | acl | report | mkactivity
  | checkout | merge | msearch | notify | subscribe | unsubscribe | patch | purge | mkcalendar
  | link | unlink | source | pri | describe | announce | setup | play | pause | teardown
  | getParameter | setParameter | redirect | record | flush | query
deriving DecidableEq, Repr

/-- `llhttp_method_name`. -/
def Method.name : Method → Bytes
  | .delete => ascii "DELETE"
  | .get => ascii "GET"
  | .head => ascii "HEAD"
  | .post => ascii "POST"
  | .put => ascii "PUT"
  | .connect => ascii "CONNECT"
  | .options => ascii "OPTIONS"
  | .trace => ascii "TRACE"
  | .copy => ascii "COPY"
  | .lock => ascii "LOCK"
  | .mkcol => ascii "MKCOL"
  | .move => ascii "MOVE"
  | .propfind => ascii "PROPFIND"
  | .proppatch => ascii "PROPPATCH"
  | .search => ascii "SEARCH"
  | .unlock => ascii "UNLOCK"
  | .bind => ascii "BIND"
  | .rebind => ascii "REBIND"
  | .unbind => ascii "UNBIND"
  | .acl => ascii "ACL"
  | .report => ascii "REPORT"
  | .mkactivity => ascii "MKACTIVITY"
  | .checkout => ascii "CHECKOUT"
  | .merge => ascii "MERGE"
  | .msearch => ascii "M-SEARCH"
  | .notify => ascii "NOTIFY"
  | .subscribe => ascii "SUBSCRIBE"
  | .unsubscribe => ascii "UNSUBSCRIBE"
  | .patch => ascii "PATCH"
  | .purge => ascii "PURGE"
  | .mkcalendar => ascii "MKCALENDAR"
  | .link => ascii "LINK"
  | .unlink => ascii "UNLINK"
  | .source => ascii "SOURCE"
  | .pri => ascii "PRI"
  | .describe => ascii "DESCRIBE"
  | .announce => ascii "ANNOUNCE"
  | .setup => ascii "SETUP"
  | .play => ascii "PLAY"
  | .pause => ascii "PAUSE"
  | .teardown => ascii "TEARDOWN"
  | .getParameter => ascii "GET_PARAMETER"
  | .setParameter => ascii "SET_PARAMETER"
  | .redirect => ascii "REDIRECT"
  | .record => ascii "RECORD"
  | .flush => ascii "FLUSH"
  | .query => ascii "QUERY"

/-- The codes `Status` names and the names `llhttp_status_name` gives them. -/
def statusTable : List (ℕ × String) := [
  (100, "CONTINUE"), (101, "SWITCHING_PROTOCOLS"), (102, "PROCESSING"), (103, "EARLY_HINTS"),
  (110, "RESPONSE_IS_STALE"), (111, "REVALIDATION_FAILED"), (112, "DISCONNECTED_OPERATION"),
  (113, "HEURISTIC_EXPIRATION"), (199, "MISCELLANEOUS_WARNING"), (200, "OK"), (201, "CREATED"),
  (202, "ACCEPTED"), (203, "NON_AUTHORITATIVE_INFORMATION"), (204, "NO_CONTENT"),
  (205, "RESET_CONTENT"), (206, "PARTIAL_CONTENT"), (207, "MULTI_STATUS"),
  (208, "ALREADY_REPORTED"), (214, "TRANSFORMATION_APPLIED"), (226, "IM_USED"),
  (299, "MISCELLANEOUS_PERSISTENT_WARNING"), (300, "MULTIPLE_CHOICES"),
  (301, "MOVED_PERMANENTLY"), (302, "FOUND"), (303, "SEE_OTHER"), (304, "NOT_MODIFIED"),
  (305, "USE_PROXY"), (306, "SWITCH_PROXY"), (307, "TEMPORARY_REDIRECT"),
  (308, "PERMANENT_REDIRECT"), (400, "BAD_REQUEST"), (401, "UNAUTHORIZED"),
  (402, "PAYMENT_REQUIRED"), (403, "FORBIDDEN"), (404, "NOT_FOUND"), (405, "METHOD_NOT_ALLOWED"),
  (406, "NOT_ACCEPTABLE"), (407, "PROXY_AUTHENTICATION_REQUIRED"), (408, "REQUEST_TIMEOUT"),
  (409, "CONFLICT"), (410, "GONE"), (411, "LENGTH_REQUIRED"), (412, "PRECONDITION_FAILED"),
  (413, "PAYLOAD_TOO_LARGE"), (414, "URI_TOO_LONG"), (415, "UNSUPPORTED_MEDIA_TYPE"),
  (416, "RANGE_NOT_SATISFIABLE"), (417, "EXPECTATION_FAILED"), (418, "IM_A_TEAPOT"),
  (419, "PAGE_EXPIRED"), (420, "ENHANCE_YOUR_CALM"), (421, "MISDIRECTED_REQUEST"),
  (422, "UNPROCESSABLE_ENTITY"), (423, "LOCKED"), (424, "FAILED_DEPENDENCY"), (425, "TOO_EARLY"),
  (426, "UPGRADE_REQUIRED"), (428, "PRECONDITION_REQUIRED"), (429, "TOO_MANY_REQUESTS"),
  (430, "REQUEST_HEADER_FIELDS_TOO_LARGE_UNOFFICIAL"), (431, "REQUEST_HEADER_FIELDS_TOO_LARGE"),
  (440, "LOGIN_TIMEOUT"), (444, "NO_RESPONSE"), (449, "RETRY_WITH"),
  (450, "BLOCKED_BY_PARENTAL_CONTROL"), (451, "UNAVAILABLE_FOR_LEGAL_REASONS"),
  (460, "CLIENT_CLOSED_LOAD_BALANCED_REQUEST"), (463, "INVALID_X_FORWARDED_FOR"),
  (494, "REQUEST_HEADER_TOO_LARGE"), (495, "SSL_CERTIFICATE_ERROR"),
  (496, "SSL_CERTIFICATE_REQUIRED"), (497, "HTTP_REQUEST_SENT_TO_HTTPS_PORT"),
  (498, "INVALID_TOKEN"), (499, "CLIENT_CLOSED_REQUEST"), (500, "INTERNAL_SERVER_ERROR"),
  (501, "NOT_IMPLEMENTED"), (502, "BAD_GATEWAY"), (503, "SERVICE_UNAVAILABLE"),
  (504, "GATEWAY_TIMEOUT"), (505, "HTTP_VERSION_NOT_SUPPORTED"),
  (506, "VARIANT_ALSO_NEGOTIATES"), (507, "INSUFFICIENT_STORAGE"), (508, "LOOP_DETECTED"),
  (509, "BANDWIDTH_LIMIT_EXCEEDED"), (510, "NOT_EXTENDED"),
  (511, "NETWORK_AUTHENTICATION_REQUIRED"), (520, "WEB_SERVER_UNKNOWN_ERROR"),
  (521, "WEB_SERVER_IS_DOWN"), (522, "CONNECTION_TIMEOUT"), (523, "ORIGIN_IS_UNREACHABLE"),
  (524, "TIMEOUT_OCCURED"), (525, "SSL_HANDSHAKE_FAILED"), (526, "INVALID_SSL_CERTIFICATE"),
  (527, "RAILGUN_ERROR"), (529, "SITE_IS_OVERLOADED"), (530, "SITE_IS_FROZEN"),
  (561, "IDENTITY_PROVIDER_AUTHENTICATION_ERROR"), (598, "NETWORK_READ_TIMEOUT"),
  (599, "NETWORK_CONNECT_TIMEOUT")]

/-- A status code `Status` names. -/
structure Status where
  code : ℕ
  named : (statusTable.lookup code).isSome = true
deriving DecidableEq

namespace Status

/-- `Status.fromCode`. -/
def fromCode (code : ℕ) : Option Status :=
  if h : (statusTable.lookup code).isSome = true then some ⟨code, h⟩ else none

/-- `Status.name`. -/
def name (s : Status) : Bytes := ascii ((statusTable.lookup s.code).get s.named)

def ok : Status := ⟨200, by decide⟩
def switchingProtocols : Status := ⟨101, by decide⟩
def notFound : Status := ⟨404, by decide⟩
def expectationFailed : Status := ⟨417, by decide⟩
def internalServerError : Status := ⟨500, by decide⟩

end Status

/-- The media types the library names. -/
inductive ContentType where
  | text | html | css | js | xml | json | msgpack | yaml | png | jpeg | webp | gif | mp4 | webm
  | mp3 | wav | ogg | woff | woff2 | ttf | eventStream | form | multipartForm | unknown
deriving DecidableEq, Repr

namespace ContentType

/-- `ContentType.toContentType`. -/
def toContentType : ContentType → Bytes
  | .text => ascii "text/plain; charset=UTF-8"
  | .html => ascii "text/html; charset=UTF-8"
  | .css => ascii "text/css; charset=UTF-8"
  | .js => ascii "application/javascript; charset=UTF-8"
  | .xml => ascii "application/xml; charset=UTF-8"
  | .json => ascii "application/json; charset=UTF-8"
  | .msgpack => ascii "application/vnd.msgpack"
  | .yaml => ascii "application/yaml; charset=UTF-8"
  | .png => ascii "image/png"
  | .jpeg => ascii "image/jpeg"
  | .webp => ascii "image/webp"
  | .gif => ascii "image/gif"
  | .mp4 => ascii "video/mp4"
  | .webm => ascii "video/webm"
  | .mp3 => ascii "audio/mpeg"
  | .wav => ascii "audio/wav"
  | .ogg => ascii "audio/ogg"
  | .woff => ascii "font/woff"
  | .woff2 => ascii "font/woff2"
  | .ttf => ascii "font/ttf"
  | .eventStream => ascii "text/event-stream"
  | .form => ascii "application/x-www-form-urlencoded"
  | .multipartForm => ascii "multipart/form-data"
  | .unknown => ascii "application/octet-stream"

/-- The texts `fromContentType` compares with, in its order.  The hash it tests first only
saves comparisons. -/
def table : List (String × ContentType) := [
  ("text/plain", .text), ("text/html", .html), ("text/css", .css),
  ("application/javascript", .js), ("application/xml", .xml), ("application/json", .json),
  ("application/vnd.msgpack", .msgpack), ("application/yaml", .yaml), ("image/png", .png),
  ("image/jpeg", .jpeg), ("image/webp", .webp), ("image/gif", .gif), ("video/mp4", .mp4),
  ("video/webm", .webm), ("audio/mpeg", .mp3), ("audio/wav", .wav), ("audio/ogg", .ogg),
  ("font/woff", .woff), ("font/woff2", .woff2), ("text/event-stream", .eventStream),
  ("application/x-www-form-urlencoded", .form), ("multipart/form-data", .multipartForm),
  ("font/ttf", .ttf)]

/-- The copy loop of `fromContentType`: the lower-cased text before `;`, `none` when it
outgrows the 33-byte buffer. -/
def mainType : ℕ → Bytes → Option Bytes
  | _, [] => some []
  | room, b :: rest =>
      if b = 59 then some []
      else match room with
        | 0 => none
        | room + 1 => (mainType room rest).map (toLower b :: ·)

/-- `ContentType.fromContentType`. -/
def fromContentType (value : Bytes) : ContentType :=
  match mainType 33 value with
  | none => .unknown
  | some main =>
      if main.length < 8 then .unknown
      else ((table.find? fun row => ascii row.1 == main).map Prod.snd).getD .unknown

end ContentType

/-- Response codings the client can undo. -/
inductive ContentEncoding where
  | identity | gzip | deflate | unknown
deriving DecidableEq, Repr

/-- `ContentEncoding.fromString`. -/
def ContentEncoding.fromString (value : Bytes) : ContentEncoding :=
  if eqlIgnoreCase value (ascii "gzip") then .gzip
  else if eqlIgnoreCase value (ascii "x-gzip") then .gzip
  else if eqlIgnoreCase value (ascii "deflate") then .deflate
  else if eqlIgnoreCase value (ascii "identity") then .identity
  else .unknown

/-! ### Field validation -/

/-- The token bytes of a field name (`tchar_table`). -/
def allowedHeaderNameBytes : Bytes :=
  ascii "!#$%&'*+-.^_`|~0123456789abcdefghijklmnopqrstuvwxyzABCDEFGHIJKLMNOPQRSTUVWXYZ"

/-- `validateHeaderName` succeeds. -/
def validHeaderName (name : Bytes) : Bool :=
  name != [] && name.all fun b => allowedHeaderNameBytes.contains b

/-- `validateHeaderValue` succeeds: no CR, LF or NUL. -/
def validHeaderValue (value : Bytes) : Bool := value.all fun b => b != 13 && b != 10 && b != 0

theorem validHeaderName_ne_cr {name : Bytes} (h : validHeaderName name = true) :
    ∀ b ∈ name, b ≠ 13 := by
  intro b hb
  simp only [validHeaderName, Bool.and_eq_true, List.all_eq_true] at h
  have hmem : b ∈ allowedHeaderNameBytes := by simpa using h.2 b hb
  rintro rfl
  exact absurd hmem (by decide)

theorem validHeaderValue_ne_cr {value : Bytes} (h : validHeaderValue value = true) :
    ∀ b ∈ value, b ≠ 13 := by
  intro b hb
  simp only [validHeaderValue, List.all_eq_true, Bool.and_eq_true, bne_iff_ne] at h
  exact (h b hb).1.1

theorem validHeaderName_ne_nil {name : Bytes} (h : validHeaderName name = true) : name ≠ [] := by
  simp only [validHeaderName, Bool.and_eq_true, bne_iff_ne] at h
  exact h.1

theorem toContentType_valid (ct : ContentType) : validHeaderValue ct.toContentType = true := by
  cases ct <;> decide

/-! ### The header multimap -/

/-- `Headers.hashFn`. -/
def hashFn (name : Bytes) : UInt8 :=
  match name with
  | [] => 0
  | first :: _ => name.length.toUInt8 ||| (toLower first ^^^ toLower (name.getLastD first))

/-- One slot of the parallel arrays `keys`, `values` and `hashes`.  The hash is the one of
the key, so that a lookup by hash first misses nothing. -/
structure HeaderEntry where
  key : Bytes
  value : Bytes
  hash : UInt8
  hash_eq : hash = hashFn key
deriving DecidableEq

/-- The slots in use and the capacity allocated for them. -/
structure Headers where
  cap : ℕ
  entries : List HeaderEntry
  fits : entries.length ≤ cap
deriving DecidableEq

namespace HeaderEntry

/-- A new slot, as `Headers.add` fills it. -/
def make (name value : Bytes) : HeaderEntry := ⟨name, value, hashFn name, rfl⟩

/-- The test of every search loop: the hash, then the name. -/
def isFor (e : HeaderEntry) (name : Bytes) : Bool := e.hash == hashFn name && eqlIgnoreCase e.key name

end HeaderEntry

namespace Headers

/-- `Headers.init`. -/
def init (max : ℕ) : Headers := ⟨max, [], Nat.zero_le _⟩

/-- `Headers.count`. -/
def count (h : Headers) : ℕ := h.entries.length

/-- `Headers.add`. -/
def add (h : Headers) (name value : Bytes) : Except Error Headers :=
  if hlt : h.entries.length < h.cap then
    .ok ⟨h.cap, h.entries ++ [.make name value], by simpa using hlt⟩
  else .error .tooManyHeaders

/-- The loop of `put`: overwrite the value in the first slot for `name`. -/
def setFirst (name value : Bytes) : List HeaderEntry → List HeaderEntry
  | [] => []
  | e :: es => if e.isFor name then { e with value := value } :: es else e :: setFirst name value es

theorem setFirst_length (name value : Bytes) :
    ∀ es : List HeaderEntry, (setFirst name value es).length = es.length
  | [] => rfl
  | e :: es => by
      simp only [setFirst]
      split
      · rfl
      · simp [setFirst_length name value es]

/-- `Headers.put`. -/
def put (h : Headers) (name value : Bytes) : Except Error Headers :=
  if h.entries.any (·.isFor name) then
    .ok ⟨h.cap, setFirst name value h.entries, by rw [setFirst_length]; exact h.fits⟩
  else h.add name value

/-- `Headers.get`. -/
def get (h : Headers) (name : Bytes) : Option Bytes := (h.entries.find? (·.isFor name)).map (·.value)

/-- `Headers.remove`: the slots left, and how many went. -/
def remove (h : Headers) (name : Bytes) : Headers × ℕ :=
  let kept := h.entries.filter fun e => !e.isFor name
  (⟨h.cap, kept, (List.length_filter_le _ _).trans h.fits⟩, h.entries.length - kept.length)

end Headers

theorem getLastD_map_toLower (a : UInt8) (l : Bytes) :
    (l.map toLower).getLastD (toLower a) = toLower (l.getLastD a) := by
  simp only [List.getLastD_eq_getLast?, List.getLast?_map]
  cases l.getLast? <;> rfl

theorem hashFn_eq_of_eqlIgnoreCase {a b : Bytes} (h : eqlIgnoreCase a b = true) :
    hashFn a = hashFn b := by
  rw [eqlIgnoreCase_iff] at h
  have hlen : a.length = b.length := by simpa using congrArg List.length h
  cases a with
  | nil =>
      cases b with
      | nil => rfl
      | cons y ys => simp at hlen
  | cons x xs =>
      cases b with
      | nil => simp at hlen
      | cons y ys =>
          have hx : toLower x = toLower y := by simpa using congrArg List.head? h
          have hlast := congrArg (List.getLastD · (toLower x)) h
          simp only [getLastD_map_toLower] at hlast
          have hy := getLastD_map_toLower y (y :: ys)
          rw [← hx, getLastD_map_toLower] at hy
          simp only [hashFn, hlen, hx, hlast, hy]

namespace HeaderEntry

theorem isFor_iff (e : HeaderEntry) (name : Bytes) :
    e.isFor name = true ↔ eqlIgnoreCase e.key name = true := by
  simp only [isFor, Bool.and_eq_true, beq_iff_eq, and_iff_right_iff_imp]
  intro h
  rw [e.hash_eq, hashFn_eq_of_eqlIgnoreCase h]

theorem isFor_eq (e : HeaderEntry) (name : Bytes) : e.isFor name = eqlIgnoreCase e.key name :=
  Bool.eq_iff_iff.mpr (e.isFor_iff name)

end HeaderEntry

end Dusty
