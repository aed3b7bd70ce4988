import Dusty.Base64Url
import Dusty.Response

/-! # Sessions

`middleware/Session.zig`: the session of a request, the signed text that carries it in a cookie, and
the middleware that reads the one from the other before the handler and writes it back behind it.
What HMAC-SHA256 computes is given from outside. -/

namespace Dusty

open Act

/-- `SessionData.Entry`. -/
structure SessionEntry where
  key : Bytes
  value : Bytes
deriving DecidableEq, Repr

theorem noEntries_fit : ([] : List SessionEntry).length ≤ 16 := Nat.zero_le _

/-- `SessionData`: the entries in use of `max_entries`. -/
structure SessionData where
  entries : List SessionEntry := []
  modified : Bool := false
  fits : entries.length ≤ 16 := by first | exact noEntries_fit | simp
deriving DecidableEq

namespace SessionData

/-- `get`. -/
def get (self : SessionData) (key : Bytes) : Option Bytes :=
  (self.entries.find? (·.key == key)).map (·.value)

/-- The loop of `set`: the value of the first entry with the key. -/
def assign (key value : Bytes) : List SessionEntry → List SessionEntry
  | [] => []
  | entry :: rest =>
      if entry.key = key then { entry with value := value } :: rest else entry :: assign key value rest

theorem length_assign (key value : Bytes) :
    ∀ entries : List SessionEntry, (assign key value entries).length = entries.length
  | [] => rfl
  | entry :: rest => by
      rw [assign]
      split
      · rfl
      · rw [List.length_cons, length_assign, List.length_cons]

/-- `set`. -/
def set (self : SessionData) (key value : Bytes) : Except Error SessionData :=
  if 0 ∈ key ∨ 0 ∈ value then .error .invalidSessionData
  else if self.entries.any (·.key == key) then
    .ok ⟨assign key value self.entries, true, by rw [length_assign]; exact self.fits⟩
  else if h : self.entries.length < 16 then
    .ok ⟨self.entries ++ [⟨key, value⟩], true, by rw [List.length_append]; simpa using h⟩
  else .error .sessionFull

/-- The loop of `remove`: the last entry takes the place of the first one with the key. -/
def swapRemove (key : Bytes) (entries : List SessionEntry) : List SessionEntry :=
  match entries.findIdx? (·.key == key), entries.getLast? with
  | some i, some last => (entries.set i last).dropLast
  | _, _ => entries

theorem length_swapRemove (key : Bytes) (entries : List SessionEntry) :
    (swapRemove key entries).length ≤ entries.length := by
  unfold swapRemove
  split
  · rw [List.length_dropLast, List.length_set]
    omega
  · exact le_rfl

/-- `remove`. -/
def remove (self : SessionData) (key : Bytes) : SessionData :=
  if self.entries.any (·.key == key) then
    ⟨swapRemove key self.entries, true, (length_swapRemove _ _).trans self.fits⟩
  else self

/-- `clear`. -/
def clear (_ : SessionData) : SessionData := ⟨[], true, by simp⟩

end SessionData

/-- `CookieOpts` of a session cookie, unless others are given. -/
def sessionCookieOpts : CookieOpts :=
  { path := ascii "/", httpOnly := true, secure := true, sameSite := some .lax }

/-- `Session`: its `Config`.  `maxAge` is a duration in nanoseconds. -/
structure Session where
  secretKey : Bytes
  cookieName : Bytes := ascii "session"
  maxAge : Option ℤ := none
  cookieOpts : CookieOpts := sessionCookieOpts

/-- `HmacSha256`: what it computes of a key and a message. -/
structure Mac where
  sign : Bytes → Bytes → Bytes
  length_sign : ∀ key message, (sign key message).length = 32

/-- A `u32` in little endian order. -/
def littleEndian32 (n : ℕ) : Bytes :=
  [n.toUInt8, (n / 256).toUInt8, (n / 65536).toUInt8, (n / 16777216).toUInt8]

/-- The number that four bytes in little endian order stand for. -/
def readLittleEndian : Bytes → ℕ
  | [] => 0
  | b :: rest => b.toNat + 256 * readLittleEndian rest

namespace Session

/-- What the middleware works on. -/
structure Context where
  session : SessionData := {}
  res : Response

namespace Context

def onSession {α : Type} (x : Act SessionData α) : Act Context α :=
  Act.zoom (·.session) (fun session self => { self with session := session }) x

def onRes {α : Type} (x : Act Response α) : Act Context α :=
  Act.zoom (·.res) (fun res self => { self with res := res }) x

end Context

/-! ### The signed text -/

/-- `Header`, of version 1. -/
def header (expiresAt : ℕ) : Bytes := [1, 0, 0, 0] ++ littleEndian32 expiresAt

/-- The entries, as they are signed. -/
def payload (entries : List SessionEntry) : Bytes :=
  entries.flatMap fun entry => entry.key ++ [0] ++ entry.value ++ [0]

/-- `expires_at`, for a text that is signed at `now`. -/
def expiresAt {σ : Type} (self : Session) (now : ℕ) : Act σ ℕ :=
  match self.maxAge with
  | none => pure 0
  | some maxAge => do
      let seconds := (now + maxAge).tdiv 1000000000
      Act.assert (decide (-2 ^ 63 ≤ seconds ∧ seconds < 2 ^ 63))
      Act.assert (decide (0 ≤ min seconds (2 ^ 32 - 1)))
      pure (min seconds (2 ^ 32 - 1)).toNat

/-- What is encoded: the header, the signature and the entries. -/
def signed (self : Session) (mac : Mac) (expiresAt : ℕ) (entries : List SessionEntry) : Bytes :=
  header expiresAt ++ mac.sign self.secretKey (header expiresAt ++ payload entries) ++ payload entries

/-- `signSession`. -/
def signSession {σ : Type} (self : Session) (mac : Mac) (session : SessionData) (now : ℕ) :
    Act σ Bytes := do
  let expiresAt ← self.expiresAt now
  pure (Base64Url.encode (self.signed mac expiresAt session.entries))

/-- The loop of `load`: two pieces are an entry, as long as there is room. -/
def addPairs : List Bytes → SessionData → SessionData
  | key :: value :: rest, session =>
      if h : session.entries.length < 16 then
        addPairs rest ⟨session.entries ++ [⟨key, value⟩], session.modified, by
          rw [List.length_append]
          simpa using h⟩
      else session
  | _, session => session

/-- `load`, of a decoded text. -/
def loadDecoded (self : Session) (mac : Mac) (decoded : Bytes) (now : ℕ) : Act SessionData Unit := do
  let header := decoded.take 8
  let payload := decoded.drop 40
  if header.head? ≠ some 1 then Act.fail .unsupportedVersion
  else if (decoded.drop 8).take 32 ≠ mac.sign self.secretKey (header ++ payload) then
    Act.fail .invalidSignature
  else do
    let expiresAt := readLittleEndian (header.drop 4)
    Act.when (expiresAt != 0) do
      Act.assert (decide (now / 1000000000 < 2 ^ 32))
      Act.when (decide (expiresAt < now / 1000000000)) (Act.fail .expired)
    modify (addPairs (splitScalar payload 0))

/-- `load`. -/
def load (self : Session) (mac : Mac) (raw : Bytes) (now : ℕ) : Act SessionData Unit :=
  match Base64Url.decode raw with
  | none => Act.fail .invalidEncoding
  | some decoded =>
      if decoded.length < 40 then Act.fail .invalidEncoding else self.loadDecoded mac decoded now

/-! ### The middleware -/

/-- The part of `execute` before the handler: an error of `load` is noted and no more. -/
def receive (self : Session) (mac : Mac) (cookies : Bytes) (now : ℕ) : Act Context Unit :=
  match Cookie.get cookies self.cookieName with
  | none => pure ()
  | some raw => do
      let _ ← Act.attempt (Context.onSession (self.load mac raw now))
      pure ()

/-- The cookie is to be set: the session was modified, or it lasts from now on again. -/
def shouldSet (self : Session) (session : SessionData) : Bool :=
  session.modified || self.maxAge.isSome && decide (0 < session.entries.length)

/-- The cookie, or its deletion. -/
def setSession (self : Session) (mac : Mac) (session : SessionData) (now : ℕ) : Act Context Unit :=
  if session.entries.length = 0 then
    Context.onRes (Response.setCookie self.cookieName [] { self.cookieOpts with maxAge := some 0 })
  else do
    let signed ← self.signSession mac session now
    Context.onRes (Response.setCookie self.cookieName signed
      { self.cookieOpts with maxAge := self.maxAge.orElse fun _ => self.cookieOpts.maxAge })

/-- The part of `execute` behind the handler: it is no error that the headers are out. -/
def finish (self : Session) (mac : Mac) (now : ℕ) : Act Context Unit := do
  let ctx ← get
  Act.when (self.shouldSet ctx.session) do
    match ← Act.attempt (self.setSession mac ctx.session now) with
    | .ok () => pure ()
    | .error .headersAlreadySent => pure ()
    | .error e => Act.fail e

/-- `execute`, with the clock before and behind the handler. -/
def execute (self : Session) (mac : Mac) (cookies : Bytes) (before behind : ℕ)
    (next : Act Context Unit) : Act Context Unit := do
  self.receive mac cookies before
  next
  self.finish mac behind

end Session
end Dusty
