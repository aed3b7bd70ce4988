import Dusty.Act
import Dusty.Numerals

/-! # Cookies

`Cookie.get` and `serializeCookie` of `cookie.zig`. -/

namespace Dusty

inductive SameSite where
  | lax | strict | none
deriving DecidableEq, Repr

/-- `CookieOpts`.  `maxAge` is a duration in nanoseconds. -/
structure CookieOpts where
  path : Bytes := []
  domain : Bytes := []
  maxAge : Option ℤ := .none
  secure : Bool := false
  httpOnly : Bool := false
  partitioned : Bool := false
  sameSite : Option SameSite := .none
deriving DecidableEq, Repr

namespace Cookie

/-- The value of a pair with the name. -/
def valueOf (name pair : Bytes) : Option Bytes :=
  if pair.length ≤ name.length then .none
  else if !name.isPrefixOf pair then .none
  else if pair[name.length]? ≠ some 61 then .none
  else some (pair.drop (name.length + 1))

/-- The pairs of a `Cookie` header. -/
def pairs (header : Bytes) : List Bytes := (splitScalar header 59).map (·.dropWhile (· == 32))

/-- `get`. -/
def get (header name : Bytes) : Option Bytes := (pairs header).findSome? (valueOf name)

/-- `validateCookieName` succeeds. -/
def validCookieName (name : Bytes) : Bool :=
  name != [] && name.all fun c =>
    !(c ≤ 32 || 127 ≤ c) && !(ascii "()<>@,;:\\\"/[]?=\x7b\x7d").contains c

/-- `validateCookieValue` succeeds. -/
def validCookieValue (value : Bytes) : Bool :=
  value.all fun c => !(c < 32 || 127 ≤ c) && !(ascii ";\\\"").contains c

/-- The text `{d}` gives a signed number. -/
def fmtInt (n : ℤ) : Bytes := if n < 0 then 45 :: fmtNat 10 n.natAbs else fmtNat 10 n.natAbs

/-- The value, quoted if it holds a space or a comma. -/
def quoted (value : Bytes) : Bytes :=
  if value.any fun c => c == 44 || c == 32 then 34 :: value ++ [34] else value

/-- The attribute of `max_age`; `toSeconds` panics outside the range of `i64`. -/
def maxAgeAttribute {σ : Type} (maxAge : Option ℤ) : Act σ Bytes :=
  match maxAge with
  | .none => pure []
  | some nanoseconds => do
      let seconds := nanoseconds.tdiv 1000000000
      Act.assert (decide (-2 ^ 63 ≤ seconds ∧ seconds < 2 ^ 63))
      pure (ascii "; Max-Age=" ++ fmtInt seconds)

/-- The attribute of `same_site`. -/
def sameSiteAttribute : Option SameSite → Bytes
  | .none => []
  | some .lax => ascii "; SameSite=Lax"
  | some .strict => ascii "; SameSite=Strict"
  | some .none => ascii "; SameSite=None"

/-- `serializeCookie`. -/
def serializeCookie {σ : Type} (name value : Bytes) (opts : CookieOpts) : Act σ Bytes := do
  if !validCookieName name then Act.fail .invalidCookieName
  else if !validCookieValue value then Act.fail .invalidCookieValue
  else
    let maxAge ← maxAgeAttribute opts.maxAge
    pure (name ++ [61] ++ quoted value
      ++ (if opts.path.length ≠ 0 then ascii "; Path=" ++ opts.path else [])
      ++ (if opts.domain.length ≠ 0 then ascii "; Domain=" ++ opts.domain else [])
      ++ maxAge
      ++ (if opts.httpOnly then ascii "; HttpOnly" else [])
      ++ (if opts.secure then ascii "; Secure" else [])
      ++ (if opts.partitioned then ascii "; Partitioned" else [])
      ++ sameSiteAttribute opts.sameSite)

end Cookie
end Dusty
