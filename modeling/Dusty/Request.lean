import Dusty.Http
import Dusty.FieldMap

/-! # The request

The fields of `Request` that the modelled functions read or write, and the decoding of
percent escapes and query strings.  A string hash map is a `Finmap`: its iteration order is
unspecified and nothing modelled here depends on it. -/

namespace Dusty

/-- `std.StringHashMapUnmanaged([]const u8)`. -/
abbrev StringMap := Finmap fun _ : Bytes => Bytes

/-- `Params.count`. -/
def StringMap.count (m : StringMap) : ℕ := m.keys.card

/-- The keys that `ensureTotalCapacity` finds room for.  Past it `capacityForSize` panics: it adds a quarter and
one, and rounds up to a power of two in 32 bits. -/
def StringMap.maxReserved : ℕ := 1717986918

example (size : ℕ) : size ≤ StringMap.maxReserved ↔ size * 100 / 80 + 1 ≤ 2 ^ 31 := by
  unfold StringMap.maxReserved
  omega

theorem StringMap.keys_insert (m : StringMap) (key value : Bytes) :
    (m.insert key value).keys = insert key m.keys := FieldMap.keys_insert m key value

theorem StringMap.count_insert_le (m : StringMap) (key value : Bytes) :
    StringMap.count (m.insert key value) ≤ m.count + 1 := FieldMap.card_keys_insert_le m key value

/-- `ServerConfig.Request`. -/
structure RequestConfig where
  maxBodySize : ℕ := 1048576
  bufferSize : ℕ := 4096
  maxHeaderCount : ℕ := 32
  maxParamCount : ℕ := 8
  maxQueryCount : ℕ := 32
  maxFormCount : ℕ := 32
  maxMultiformCount : ℕ := 32

/-- `MultipartForm.Entry`. -/
structure MultipartEntry where
  value : Bytes
  filename : Option Bytes := none
deriving DecidableEq, Repr

/-- `std.StringHashMapUnmanaged(MultipartForm.Entry)`. -/
abbrev MultipartMap := Finmap fun _ : Bytes => MultipartEntry

/-- `count`. -/
def MultipartMap.count (m : MultipartMap) : ℕ := m.keys.card

/-- The request being served.  `method` is undefined until a request line was parsed. -/
structure Request where
  method : Method := .delete
  url : Slice := ⟨0, []⟩
  versionMajor : ℕ := 0
  versionMinor : ℕ := 0
  headers : Headers := .init 0
  contentType : Option ContentType := none
  params : StringMap := ∅
  query : StringMap := ∅
  config : RequestConfig := {}
  cachedBody : Option Bytes := none
  bodyRead : Bool := false
  fd : StringMap := ∅
  fdRead : Bool := false
  mfd : MultipartMap := ∅
  mfdRead : Bool := false
  expectsContinue : Bool := false

namespace Request

/-- `Request.reset`: what belongs to the connection stays. -/
def reset (req : Request) : Request := { config := req.config }

def setParams (req : Request) (params : StringMap) : Request := { req with params := params }

def setQuery (req : Request) (query : StringMap) : Request := { req with query := query }

section setters
variable (req : Request) (p q : StringMap)

@[simp] theorem setParams_params : (req.setParams p).params = p := rfl

@[simp] theorem setParams_config : (req.setParams p).config = req.config := rfl

@[simp] theorem setParams_method : (req.setParams p).method = req.method := rfl

@[simp] theorem setParams_setParams : (req.setParams p).setParams q = req.setParams q := rfl

end setters

/-! ### Percent decoding -/

/-- `std.ascii.isHex`. -/
def isHex (c : UInt8) : Bool :=
  (48 ≤ c && c ≤ 57) || (65 ≤ c && c ≤ 70) || (97 ≤ c && c ≤ 102)

/-- `decodeHex`. -/
def decodeHex (c : UInt8) : UInt8 :=
  if 48 ≤ c ∧ c ≤ 57 then c - 48
  else if 65 ≤ c ∧ c ≤ 70 then c - 55
  else if 97 ≤ c ∧ c ≤ 102 then c - 87
  else 0

/-- First pass of `urlUnescape`: whether there is a `+`, and the length of the output.
`none` is `InvalidEscapeSequence`. -/
def measureEscapes : Bytes → Option (Bool × ℕ)
  | [] => some (false, 0)
  | 37 :: hi :: lo :: rest =>
      if isHex hi && isHex lo then (measureEscapes rest).map fun (p, n) => (p, n + 1) else none
  | 37 :: _ => none
  | 43 :: rest => (measureEscapes rest).map fun (_, n) => (true, n + 1)
  | _ :: rest => (measureEscapes rest).map fun (p, n) => (p, n + 1)

/-- Second pass of `urlUnescape`: fill an output of the given length.  `none` stands for an
index past the end of the input. -/
def fillUnescaped : ℕ → Bytes → Option Bytes
  | 0, _ => some []
  | n + 1, 37 :: hi :: lo :: rest =>
      (fillUnescaped n rest).map ((decodeHex hi <<< 4 ||| decodeHex lo) :: ·)
  | _ + 1, 37 :: _ => none
  | n + 1, 43 :: rest => (fillUnescaped n rest).map (32 :: ·)
  | n + 1, b :: rest => (fillUnescaped n rest).map (b :: ·)
  | _ + 1, [] => none

/-- `Request.urlUnescape`. -/
def urlUnescape {σ : Type} (input : Bytes) : Act σ Bytes :=
  match measureEscapes input with
  | none => Act.fail .invalidEscapeSequence
  | some (hasPlus, unescapedLen) =>
      if unescapedLen = input.length ∧ hasPlus = false then pure input
      else match fillUnescaped unescapedLen input with
        | none => Act.die .assertion
        | some out => pure out

/-! ### Query strings -/

/-- `putAssumeCapacity` on a map with room for `reserved` keys. -/
def putAssumeCapacity (reserved : ℕ) (m : StringMap) (key value : Bytes) : Act Request StringMap :=
  if key ∈ m ∨ m.count < reserved then pure (m.insert key value) else Act.die .assertion

/-- The key and the value of one piece. -/
def parsePair (pair : Bytes) : Act Request (Bytes × Bytes) :=
  match indexOfScalar pair 61 with
  | some sep => do
      let key ← urlUnescape (pair.take sep)
      let value ← urlUnescape (pair.drop (sep + 1))
      pure (key, value)
  | none => do
      let key ← urlUnescape pair
      pure (key, [])

/-- The loop of `parseQueryString` over the pieces between the `&`. -/
def parsePairs (reserved : ℕ) : List Bytes → Act Request Unit
  | [] => pure ()
  | pair :: rest => do
      if pair.length = 0 then parsePairs reserved rest
      else
        let req ← get
        if req.config.maxQueryCount ≤ req.query.count then Act.fail .tooManyQueryParams
        else
          let pair ← parsePair pair
          let query ← putAssumeCapacity reserved req.query pair.1 pair.2
          modify fun req => req.setQuery query
          parsePairs reserved rest

/-- `Router.parseQueryString`.  The map is empty and gets room for `max_params` keys. -/
def parseQueryString (queryString : Bytes) : Act Request Unit := do
  if queryString.length = 0 then pure ()
  else
    let req ← get
    let maxParams := min (queryString.count 38 + 1) req.config.maxQueryCount
    Act.assert (decide (maxParams ≤ StringMap.maxReserved))
    parsePairs maxParams (splitScalar queryString 38)

end Request

end Dusty
