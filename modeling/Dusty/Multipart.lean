import Dusty.Exchange
import Dusty.View

/-! # Multipart forms

`Request.multiFormData` and `MultipartForm` of `request.zig`.  The body is read, and in a quoted
value also rewritten, in the buffer it is cached in: an action on the bytes of that buffer. -/

namespace Dusty

open Act

/-! ### The boundary -/

namespace Boundary

/-- The body of the loop over the directive: the delimiter, if a boundary that can be used begins at
the index. -/
def boundaryAt {σ : Type} (directive : Bytes) (i : ℕ) : Act σ (Option Bytes) := do
  match directive[i]? with
  | none => Act.die .assertion
  | some b =>
      if b = 32 ∨ b = 59 then pure none
      else if !startsWithIgnoreCase (directive.drop i) (ascii "boundary=") then pure none
      else do
        Act.assert (decide (9 + i ≤ directive.length))
        let rawBoundary := directive.drop (9 + i)
        if rawBoundary.length = 0 ∨ 70 < rawBoundary.length then pure none
        else if rawBoundary.head? = some 34 then
          if 2 < rawBoundary.length ∧ rawBoundary.getLast? = some 34 then do
            let stop := rawBoundary.length
            Act.assert (decide (2 ≤ stop ∧ stop ≤ 72 ∧ stop - 2 = rawBoundary.tail.dropLast.length))
            pure (some (ascii "--" ++ rawBoundary.tail.dropLast))
          else pure none
        else do
          let stop := 2 + rawBoundary.length
          Act.assert (decide (stop ≤ 72))
          pure (some (ascii "--" ++ rawBoundary))

/-- The loop over the directive, with the indices still to come. -/
def scan {σ : Type} (directive : Bytes) : List ℕ → Act σ Bytes
  | [] => Act.fail .invalidMultiPartFormDataHeader
  | i :: rest => do
      match ← boundaryAt directive i with
      | some boundary => pure boundary
      | none => scan directive rest

/-- The delimiter for a `Content-Type`. -/
def find {σ : Type} (contentType : Bytes) : Act σ Bytes := do
  Act.assert (decide (19 ≤ contentType.length))
  let directive := contentType.drop 19
  scan directive (List.range directive.length)

end Boundary

namespace MultipartForm

/-- `ContentDispositionAttributes`. -/
structure ContentDispositionAttributes where
  name : View
  filename : Option View := none
deriving DecidableEq, Repr

/-- `Field`, with the fields of its `Entry`. -/
structure Field where
  name : View
  value : View
  filename : Option View := none
deriving DecidableEq, Repr

/-! ### Blanks -/

/-- A space or a tab. -/
def isBlank (b : UInt8) : Bool := b == 32 || b == 9

/-- One space comes first, and no other blank behind it. -/
def oneSpace (input : View) : Act Bytes Bool :=
  if 1 < input.len then do
    let first ← input.load 0
    if first = 32 then do
      let n ← input.load 1
      pure (!isBlank n)
    else pure false
  else pure false

/-- `trimLeadingSpaceCount`. -/
def trimLeadingSpaceCount (input : View) : Act Bytes (View × ℕ) := do
  if ← oneSpace input then
    let out ← input.slice 1 input.len
    pure (out, 1)
  else
    let text ← input.bytes
    let i := (text.takeWhile isBlank).length
    if i < input.len then
      let out ← input.slice i input.len
      pure (out, i)
    else pure (⟨0, 0⟩, input.len)

/-- `trimLeadingSpace`. -/
def trimLeadingSpace (input : View) : Act Bytes View := do
  let (out, _) ← trimLeadingSpaceCount input
  pure out

/-! ### Attributes -/

/-- The characters that a backslash escapes. -/
def isEscapable (c : UInt8) : Bool := (ascii "()<>@,;:\"/[]?=").contains c

/-- Where the loop over a quoted value is: behind its end, or at the next byte to read and the next
byte to write. -/
inductive QuotedPos where
  | closed (value : View) (pos : ℕ)
  | next (pos writePos : ℕ)
deriving DecidableEq, Repr

/-- The body of the loop over a quoted value. -/
def quotedStep (fields : View) (valueStart pos writePos : ℕ) : Act Bytes QuotedPos := do
  let b ← fields.load pos
  if b = 92 then
    if fields.len ≤ pos + 1 then Act.fail .invalidMultiPartEncoding
    else do
      let n ← fields.load (pos + 1)
      if isEscapable n then do
        fields.store writePos n
        pure (.next (pos + 2) (writePos + 1))
      else do
        fields.store writePos 92
        pure (.next (pos + 1) (writePos + 1))
  else if b = 34 then do
    let value ← fields.slice (valueStart + 1) writePos
    pure (.closed value (pos + 1))
  else do
    fields.store writePos b
    pure (.next (pos + 1) (writePos + 1))

/-- The loop over a quoted value. -/
def quotedLoop (fields : View) (valueStart : ℕ) : ℕ → ℕ → ℕ → Act Bytes (View × ℕ)
  | 0, _, _ => Act.die .outOfFuel
  | fuel + 1, pos, writePos =>
      if pos < fields.len then do
        match ← quotedStep fields valueStart pos writePos with
        | .closed value pos => pure (value, pos)
        | .next pos writePos => quotedLoop fields valueStart fuel pos writePos
      else Act.fail .invalidMultiPartEncoding

/-- The value behind the `=`, and where the next attribute can begin. -/
def attributeValue (fields : View) (valueStart : ℕ) : Act Bytes (View × ℕ) := do
  let first ← fields.load valueStart
  if first ≠ 34 then do
    let text ← fields.bytes
    let valueEnd := (indexOfScalarPos text valueStart 59).getD fields.len
    let value ← fields.slice valueStart valueEnd
    pure (value, valueEnd)
  else quotedLoop fields valueStart (fields.len + 1) (valueStart + 1) (valueStart + 1)

/-- Where the loop over the attributes is: at the end, behind a separator, or behind an attribute. -/
inductive AttributePos where
  | ended
  | separator
  | attribute (key : Bytes) (value : View) (pos : ℕ)
deriving DecidableEq, Repr

/-- The body of the loop of `getContentDispositionAttributes`. -/
def attributeStep (fields : View) (pos : ℕ) : Act Bytes AttributePos := do
  if pos < fields.len then do
    let b ← fields.load pos
    if b = 59 ∨ b = 32 ∨ b = 9 then pure .separator
    else do
      let text ← fields.bytes
      match indexOfScalarPos text pos 61 with
      | none => Act.fail .invalidMultiPartEncoding
      | some sep => do
          let fieldName ← fields.slice pos sep
          let valueStart := sep + 1
          if valueStart = fields.len then Act.fail .invalidMultiPartEncoding
          else do
            let (value, pos) ← attributeValue fields valueStart
            let key ← fieldName.bytes
            pure (.attribute key value pos)
  else pure .ended

/-- The loop of `getContentDispositionAttributes`. -/
def attributesLoop (fields : View) :
    ℕ → ℕ → Option View → Option View → Act Bytes (Option View × Option View)
  | 0, _, _, _ => Act.die .outOfFuel
  | fuel + 1, pos, name, filename => do
      match ← attributeStep fields pos with
      | .ended => pure (name, filename)
      | .separator => attributesLoop fields fuel (pos + 1) name filename
      | .attribute key value pos =>
          if key = ascii "name" then attributesLoop fields fuel pos (some value) filename
          else if key = ascii "filename" then attributesLoop fields fuel pos name (some value)
          else attributesLoop fields fuel pos name filename

/-- `getContentDispositionAttributes`. -/
def getContentDispositionAttributes (fields : View) : Act Bytes ContentDispositionAttributes := do
  match ← attributesLoop fields (fields.len + 1) 0 none none with
  | (none, _) => Act.fail .invalidMultiPartEncoding
  | (some name, filename) => pure ⟨name, filename⟩

/-! ### Parts -/

/-- What a header line of a part says about its name. -/
def dispositionLine (line : View) (attributes : Option ContentDispositionAttributes) :
    Act Bytes (Option ContentDispositionAttributes) := do
  let text ← line.bytes
  if !startsWithIgnoreCase text (ascii "content-disposition:") then pure attributes
  else do
    let rest ← line.slice 20 line.len
    let value ← trimLeadingSpace rest
    let valueText ← value.bytes
    if !startsWithIgnoreCase valueText (ascii "form-data;") then Act.fail .invalidMultiPartEncoding
    else do
      -- without the trailing \r
      let valueEnd ← View.minus value.len 1
      let fields ← value.slice 10 valueEnd
      let fields ← trimLeadingSpace fields
      let attributes ← getContentDispositionAttributes fields
      pure (some attributes)

/-- The loop of `parseMultiPartEntry` over the header lines: where they end, and the attributes. -/
def headerLoop (entry : View) :
    ℕ → ℕ → Option ContentDispositionAttributes → Act Bytes (ℕ × Option ContentDispositionAttributes)
  | 0, _, _ => Act.die .outOfFuel
  | fuel + 1, pos, attributes => do
      let text ← entry.bytes
      match indexOfScalarPos text pos 10 with
      | none => Act.fail .invalidMultiPartEncoding
      | some endLinePos => do
          let line ← entry.slice pos endLinePos
          if line.len = 0 then Act.fail .invalidMultiPartEncoding
          else do
            let lastPos ← View.minus line.len 1
            let last ← line.load lastPos
            if last ≠ 13 then Act.fail .invalidMultiPartEncoding
            else if line.len = 1 then pure (endLinePos + 1, attributes)
            else do
              let attributes ← dispositionLine line attributes
              headerLoop entry fuel (endLinePos + 1) attributes

/-- `parseMultiPartEntry`. -/
def parseMultiPartEntry (entry : View) : Act Bytes Field := do
  let (pos, attributes) ← headerLoop entry (entry.len + 1) 0 none
  let value ← entry.slice pos entry.len
  if value.len < 2 then Act.fail .invalidMultiPartEncoding
  else do
    let i ← View.minus value.len 2
    let j ← View.minus value.len 1
    let b ← value.load i
    let c ← value.load j
    if b ≠ 13 ∨ c ≠ 10 then Act.fail .invalidMultiPartEncoding
    else match attributes with
      | none => Act.fail .invalidMultiPartEncoding
      | some attr => do
          let valueEnd ← View.minus value.len 2
          let value ← value.slice 0 valueEnd
          pure ⟨attr.name, value, attr.filename⟩

end MultipartForm

/-! ### The form -/

namespace Request

def setCachedBody (req : Request) (body : Bytes) : Request := { req with cachedBody := some body }

def setMultipart (req : Request) (mfd : MultipartMap) : Request := { req with mfd := mfd }

/-- Run an action on the buffer of the body. -/
def onBody {α : Type} (x : Act Bytes α) : Act Request α :=
  Act.zoom (fun req => req.cachedBody.getD []) (fun body req => req.setCachedBody body) x

/-- What the map takes of a field. -/
def fieldEntry (field : MultipartForm.Field) : Act Bytes (Bytes × MultipartEntry) := do
  let name ← field.name.bytes
  let value ← field.value.bytes
  match field.filename with
  | none => pure (name, ⟨value, none⟩)
  | some filename => do
      let filename ← filename.bytes
      pure (name, ⟨value, some filename⟩)

/-- `SplitIterator.next`, of the pieces between the delimiters, from an index on. -/
def nextPiece (boundary : Bytes) (index : ℕ) : Act Bytes (View × Option ℕ) := do
  let buffer ← get
  match indexOfPos buffer index boundary with
  | some stop => do
      let piece ← View.slice ⟨0, buffer.length⟩ index stop
      pure (piece, some (stop + boundary.length))
  | none => do
      let piece ← View.slice ⟨0, buffer.length⟩ index buffer.length
      pure (piece, none)

/-- The body of the loop of `multiFormData`: whether it goes on. -/
def takePart (entry : View) : Act Request Bool := do
  let text ← onBody entry.bytes
  -- the body ends with -- after a final boundary
  if text = ascii "--\r\n" then pure false
  else do
    let req ← get
    if req.config.maxMultiformCount ≤ req.mfd.count then Act.fail .tooManyMultiFormFields
    else if entry.len < 2 then Act.fail .invalidMultiPartEncoding
    else do
      let b ← onBody (entry.load 0)
      let c ← onBody (entry.load 1)
      if b ≠ 13 ∨ c ≠ 10 then Act.fail .invalidMultiPartEncoding
      else do
        let rest ← entry.slice 2 entry.len
        let field ← onBody (MultipartForm.parseMultiPartEntry rest)
        let (name, value) ← onBody (fieldEntry field)
        modify fun req => req.setMultipart (req.mfd.insert name value)
        pure true

/-- The loop of `multiFormData` over the pieces, from an index on. -/
def parseParts (boundary : Bytes) : ℕ → Option ℕ → Act Request Unit
  | _, none => pure ()
  | 0, some _ => Act.die .outOfFuel
  | fuel + 1, some index => do
      let (entry, next) ← onBody (nextPiece boundary index)
      if ← takePart entry then parseParts boundary fuel next else pure ()

/-- What `multiFormData` does with a body. -/
def parseMultipart (boundary : Bytes) : Act Request Unit := do
  let req ← get
  let (first, next) ← onBody (nextPiece boundary 0)
  if first.len ≠ 0 then Act.fail .invalidMultiPartEncoding
  else parseParts boundary ((req.cachedBody.getD []).length + 1) next

end Request

namespace Exchange

variable {L : Llhttp}

/-- `Request.multiFormData`. -/
def multiFormData (room : ℕ → ℕ) : Act (Exchange L) MultipartMap := do
  let self ← get
  if self.request.mfdRead then pure self.request.mfd
  else if self.request.contentType ≠ some .multipartForm then Act.fail .notMultipartForm
  else
    match ← body room with
    | none => pure ()
    | some _ => do
        let self ← get
        match self.request.headers.get (ascii "Content-Type") with
        | none => Act.die .assertion
        | some contentType => do
            let boundary ← Boundary.find contentType
            onRequest (Request.parseMultipart boundary)
    modify fun self => self.setRequest { self.request with mfdRead := true }
    let self ← get
    pure self.request.mfd

end Exchange
end Dusty
