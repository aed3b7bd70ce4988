import Dusty.Bytes

/-! # What follows a header section

`llhttp__after_headers_complete` of `http.c`: what the parser has noted of a header section decides
whether a body follows.  The one thing that it cannot note of a response is the method of the
request; for that there is a flag, which its user has to set. -/

namespace Dusty

/-- The fields of `llhttp_t` that a header section leaves behind.  `lenient_flags` are zero. -/
structure MessageHead where
  response : Bool
  connect : Bool := false
  statusCode : ℕ := 0
  contentLength : ℕ := 0
  chunkedFlag : Bool := false
  contentLengthFlag : Bool := false
  transferEncodingFlag : Bool := false
  upgradeFlag : Bool := false
  connectionUpgradeFlag : Bool := false
  skipBodyFlag : Bool := false

/-- What `llhttp__after_headers_complete` returns. -/
inductive AfterHead where
  | noBody | upgraded | chunkSizeStart | bodyIdentity | bodyIdentityEof | invalidTransferEncoding
deriving DecidableEq, Repr

namespace MessageHead

/-- `upgrade`, as `llhttp__before_headers_complete` sets it. -/
def upgrade (self : MessageHead) : Bool :=
  if self.upgradeFlag && self.connectionUpgradeFlag then !self.response || self.statusCode == 101
  else self.connect

/-- `llhttp_message_needs_eof`. -/
def messageNeedsEof (self : MessageHead) : Bool :=
  if !self.response then false
  else if self.statusCode / 100 == 1 || self.statusCode == 204 || self.statusCode == 304 ||
      self.skipBodyFlag then false
  else if self.transferEncodingFlag && !self.chunkedFlag then true
  else !(self.chunkedFlag || self.contentLengthFlag)

/-- The status codes of responses that have no body. -/
def bodiless (self : MessageHead) : Bool :=
  self.response && [102, 103, 204, 304].contains self.statusCode

/-- `llhttp__after_headers_complete`. -/
def afterHeadersComplete (self : MessageHead) : AfterHead :=
  let hasBody := self.chunkedFlag || decide (0 < self.contentLength)
  if self.upgrade && (self.connect || self.skipBodyFlag || !hasBody) ||
      self.response && self.statusCode == 101 then .upgraded
  else if self.response && self.statusCode == 100 then .noBody
  else if self.skipBodyFlag || self.bodiless then .noBody
  else if self.chunkedFlag then .chunkSizeStart
  else if self.transferEncodingFlag then
    if !self.response then .invalidTransferEncoding else .bodyIdentityEof
  else if !self.contentLengthFlag then
    if !self.messageNeedsEof then .noBody else .bodyIdentityEof
  else if self.contentLength = 0 then .noBody
  else .bodyIdentity

/-- The message ends with its header section. -/
def ends (self : MessageHead) : Bool :=
  self.afterHeadersComplete == .noBody || self.afterHeadersComplete == .upgraded

/-- **When a response ends with its header section.**  Without the flag, it does so if its status
says that there is no body or if the only thing said about a body is that it has no bytes. -/
theorem ends_response_iff {self : MessageHead} (hresponse : self.response = true)
    (hconnect : self.connect = false) (hskip : self.skipBodyFlag = false) :
    self.ends = true ↔
      (self.statusCode = 204 ∨ self.statusCode = 304 ∨ 100 ≤ self.statusCode ∧ self.statusCode ≤ 103) ∨
      self.chunkedFlag = false ∧ self.transferEncodingFlag = false ∧
        (self.contentLengthFlag = true ∧ self.contentLength = 0 ∨
          self.contentLengthFlag = false ∧ self.statusCode / 100 = 1) := by
  have hupgrade : self.upgrade = true → self.statusCode = 101 := by
    unfold upgrade
    rw [hresponse, hconnect]
    split <;> simp
  unfold ends afterHeadersComplete messageNeedsEof bodiless
  rw [hresponse, hconnect, hskip]
  cases hup : self.upgrade with
  | true =>
      have := hupgrade hup
      simp [this]
  | false =>
      by_cases hbodiless : self.statusCode = 204 ∨ self.statusCode = 304 ∨
          100 ≤ self.statusCode ∧ self.statusCode ≤ 103
      · have hcodes : self.statusCode = 204 ∨ self.statusCode = 304 ∨ self.statusCode = 100 ∨
            self.statusCode = 101 ∨ self.statusCode = 102 ∨ self.statusCode = 103 := by omega
        rcases hcodes with h | h | h | h | h | h <;> simp [h]
      · -- only what the fields say about a body is left
        have h204 : self.statusCode ≠ 204 := by omega
        have h304 : self.statusCode ≠ 304 := by omega
        have h100 : self.statusCode ≠ 100 := by omega
        have h101 : self.statusCode ≠ 101 := by omega
        have h102 : self.statusCode ≠ 102 := by omega
        have h103 : self.statusCode ≠ 103 := by omega
        rw [or_iff_right hbodiless]
        cases self.chunkedFlag <;> cases self.transferEncodingFlag <;>
          cases self.contentLengthFlag <;> by_cases hone : self.statusCode / 100 = 1 <;>
          by_cases hlength : self.contentLength = 0 <;>
          simp [h204, h304, h100, h101, h102, h103, hone, hlength]

end MessageHead

end Dusty
