import Dusty.Numerals

/-! # Locators

`std.Uri` as far as the client uses it: `parse`, the resolution of a reference against a base,
the host of a locator and the text of one.  Every component is kept as it is written, with its
percent escapes. -/

namespace Dusty

/-- `std.Uri`. -/
structure Uri where
  scheme : Bytes
  user : Option Bytes := none
  password : Option Bytes := none
  host : Option Bytes := none
  port : Option ℕ := none
  path : Bytes := []
  query : Option Bytes := none
  fragment : Option Bytes := none
deriving DecidableEq, Repr

/-- `std.mem.lastIndexOfScalar`. -/
def lastIndexOf (s : Bytes) (b : UInt8) : Option ℕ :=
  (indexOfScalar s.reverse b).map (s.length - 1 - ·)

namespace Uri

/-- `std.ascii.isAlphanumeric`. -/
def isAlphanumeric (c : UInt8) : Bool := (65 ≤ c && c ≤ 90) || (97 ≤ c && c ≤ 122) || (48 ≤ c && c ≤ 57)

/-- `isSchemeChar`. -/
def isSchemeChar (c : UInt8) : Bool := isAlphanumeric c || c == 43 || c == 45 || c == 46

/-! ### Parsing -/

/-- The user and the password in front of a host. -/
def withUserInfo (uri : Uri) (userInfo : Bytes) : Uri :=
  match indexOfScalar userInfo 58 with
  | none => { uri with user := some userInfo }
  | some i =>
      { uri with
        user := some (userInfo.take i)
        password := if i < userInfo.length - 1 then some (userInfo.drop (i + 1)) else uri.password }

/-- A host of the given length, and the port behind the colon at `colon`, if there is one. -/
def withHostAt (uri : Uri) (text : Bytes) (length : ℕ) (colon : Option ℕ) : Option Uri :=
  match colon with
  | none => if length = 0 then none else some { uri with host := some (text.take length) }
  | some i =>
      match parseInt 65536 10 (text.drop (i + 1)) with
      | none => none
      | some port =>
          if min length i = 0 then none
          else some { uri with host := some (text.take (min length i)), port := some port }

/-- What follows the user information. -/
def withHostPort (uri : Uri) (text : Bytes) : Option Uri :=
  match text with
  | [] => some uri
  | 93 :: _ => none
  | 91 :: _ =>
      match lastIndexOf text 93 with
      | none => none
      | some i => uri.withHostAt text (i + 1) ((lastIndexOf text 58).filter (i + 1 ≤ ·))
  | _ => uri.withHostAt text text.length (lastIndexOf text 58)

/-- The part between `//` and the path. -/
def withAuthority (uri : Uri) (authority : Bytes) : Option Uri :=
  match indexOfScalar authority 64 with
  | none => uri.withHostPort authority
  | some i => (uri.withUserInfo (authority.take i)).withHostPort (authority.drop (i + 1))

/-- The path and what follows it. -/
def withPath (uri : Uri) (text : Bytes) : Uri :=
  let path := text.takeWhile fun c => c != 63 && c != 35
  let uri := { uri with path := path }
  match text.drop path.length with
  | 63 :: rest =>
      let query := rest.takeWhile (· != 35)
      { uri with
        query := some query
        fragment := match rest.drop query.length with
          | 35 :: fragment => some fragment
          | _ => uri.fragment }
  | 35 :: fragment => { uri with fragment := some fragment }
  | _ => uri

/-- `parseAfterScheme`. -/
def parseAfterScheme (scheme text : Bytes) : Option Uri :=
  let uri : Uri := { scheme := scheme }
  match text with
  | 47 :: 47 :: rest =>
      let authority := rest.takeWhile fun c => c != 47 && c != 63 && c != 35
      if authority = [] then
        if rest.head? = some 47 then some (uri.withPath rest) else none
      else (uri.withAuthority authority).map (·.withPath (rest.drop authority.length))
  | _ => some (uri.withPath text)

/-- `parse`. -/
def parse (text : Bytes) : Option Uri :=
  let scheme := text.takeWhile isSchemeChar
  match text.drop scheme.length with
  | 58 :: rest => parseAfterScheme scheme rest
  | _ => none

/-! ### Resolution -/

/-- The output of `remove_dot_segments` without its last segment; it is kept in reverse. -/
def popSegment (out : Bytes) : Bytes := (out.dropWhile (· != 47)).drop 1

/-- The loop of `remove_dot_segments`, one turn for each unit of fuel. -/
def removeDots : ℕ → Bytes → Bytes → Bytes
  | 0, _, out => out
  | fuel + 1, path, out =>
      match path with
      | [] => out
      | 46 :: 47 :: rest => removeDots fuel rest out
      | 46 :: 46 :: 47 :: rest => removeDots fuel rest out
      | 47 :: 46 :: 47 :: rest => removeDots fuel (47 :: rest) out
      | [47, 46] => removeDots fuel [47] out
      | 47 :: 46 :: 46 :: 47 :: rest => removeDots fuel (47 :: rest) (popSegment out)
      | [47, 46, 46] => removeDots fuel [47] (popSegment out)
      | [46] => out
      | [46, 46] => out
      | c :: rest =>
          let segment := c :: rest.takeWhile (· != 47)
          removeDots fuel (path.drop segment.length) (segment.reverse ++ out)

/-- `remove_dot_segments`: every turn takes at least a byte. -/
def removeDotSegments (path : Bytes) : Bytes := (removeDots path.length path []).reverse

/-- `merge_paths`, with the room that is left in the buffer. -/
def mergePaths (base new : Bytes) (room : ℕ) : Option Bytes :=
  if base = [] then
    if new.length + 1 ≤ room then some (removeDotSegments (47 :: new)) else none
  else if room < base.length then none
  else match lastIndexOf base 47 with
    | none => some (removeDotSegments new)
    | some i =>
        if i + (new.length + 1) ≤ room then some (removeDotSegments (base.take i ++ 47 :: new))
        else none

/-- A label of a host name: at most 63 letters, digits and hyphens, with no hyphen at either end. -/
def isHostLabel (label : Bytes) : Bool :=
  0 < label.length && label.length ≤ 63 && label.all (fun c => isAlphanumeric c || c == 45) &&
    label.head?.all isAlphanumeric && label.getLast?.all isAlphanumeric

/-- `HostName.validate`: at most 255 bytes, and a dot behind the last label does not count. -/
def isHostName (name : Bytes) : Bool :=
  let name := if name.getLast? = some 46 then name.dropLast else name
  name.length ≤ 255 && (name.splitOn 46).all isHostLabel

/-- `validateHostComponent`. -/
def hasValidHost (uri : Uri) : Bool := uri.host.all isHostName

/-- `resolveInPlace`, for a reference that stands at the beginning of a buffer.  The host that comes out is
checked, wherever it comes from. -/
def resolveInPlace (base : Uri) (reference : Bytes) (bufferSize : ℕ) : Option Uri :=
  (((parse reference).orElse fun _ => parseAfterScheme [] reference).bind fun new =>
    if new.scheme ≠ [] then some { new with path := removeDotSegments new.path }
    else if new.host.isSome then
      some { new with scheme := base.scheme, path := removeDotSegments new.path }
    else
      let inherit (path : Bytes) (query : Option Bytes) : Uri :=
        { base with path := path, query := query, fragment := new.fragment }
      match new.path with
      | [] => some (inherit base.path (new.query.orElse fun _ => base.query))
      | 47 :: _ => some (inherit (removeDotSegments new.path) new.query)
      | _ =>
          (mergePaths base.path new.path (bufferSize - reference.length)).map fun path =>
            inherit path new.query).filter hasValidHost

/-! ### The host and the text -/

/-- `Component.formatRaw`: the escapes that are well formed, decoded. -/
def percentDecode : Bytes → Bytes
  | [] => []
  | 37 :: x :: y :: rest =>
      match parseInt 256 16 [x, y] with
      | some n => n.toUInt8 :: percentDecode rest
      | none => 37 :: percentDecode (x :: y :: rest)
  | c :: rest => c :: percentDecode rest

/-- `getHost`, into a buffer for a host with escapes. -/
def getHost (uri : Uri) (bufferSize : ℕ) : Option Bytes :=
  uri.host.bind fun host =>
    if host.contains 37 then
      if (percentDecode host).length ≤ bufferSize then some (percentDecode host) else none
    else some host

/-- `writeToStream` without the user information and the fragment. -/
def text (uri : Uri) : Bytes :=
  uri.scheme ++ [58] ++
    (match uri.host with
      | none => []
      | some host => ascii "//" ++ host ++
          match uri.port with
          | none => []
          | some port => 58 :: fmtNat 10 port) ++
    (if uri.path = [] then [47] else uri.path) ++
    match uri.query with
    | none => []
    | some query => 63 :: query

end Uri

example : (Uri.parse (ascii "http://a@b.c:80/x/../y?q#f")).map Uri.text =
    some (ascii "http://b.c:80/x/../y?q") := by decide +kernel

example : ((Uri.parse (ascii "http://a/b/c/d;p?q")).bind
    (·.resolveInPlace (ascii "../g/./h") 64)).map Uri.text = some (ascii "http://a/b/g/h") := by
  decide +kernel

example : (Uri.parse (ascii "http://a/")).bind (·.resolveInPlace (ascii "//b_c/") 64) = none := by decide +kernel

end Dusty
