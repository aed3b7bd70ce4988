import Dusty.Request
import Dusty.SegmentMatch

/-! # The router

The routing tree of `router.zig`, one per method: `insertRoute` adds a pattern and
`findHandler` looks a request up.  A tree node has the fields of the source's `Node`; a
`?*Node` is a `Node` whose `null` is the constructor `Node.null`, and the siblings of a
static child are chained through `nextSibling`, the latest first. -/

namespace Dusty

inductive NodeKind where
  | static | param | wildcard
deriving DecidableEq, Repr

/-- What `insertRoute` stores at the end of a pattern. -/
structure Route (H M : Type) where
  action : H
  middlewares : List M
deriving DecidableEq, Repr

inductive Node (H M : Type) where
  | null
  | mk (segment : Bytes) (kind : NodeKind) (paramName : Option Bytes)
      (staticChildren paramChild wildcardChild nextSibling : Node H M)
      (route : Option (Route H M))

namespace Node

variable {H M : Type}

def isNull : Node H M → Bool
  | null => true
  | mk .. => false

def segment : Node H M → Bytes
  | null => []
  | mk s .. => s

def paramName : Node H M → Option Bytes
  | null => none
  | mk _ _ n .. => n

def staticChildren : Node H M → Node H M
  | null => null
  | mk _ _ _ st .. => st

def paramChild : Node H M → Node H M
  | null => null
  | mk _ _ _ _ pa .. => pa

def wildcardChild : Node H M → Node H M
  | null => null
  | mk _ _ _ _ _ wi .. => wi

def nextSibling : Node H M → Node H M
  | null => null
  | mk _ _ _ _ _ _ nx _ => nx

def route : Node H M → Option (Route H M)
  | null => none
  | mk _ _ _ _ _ _ _ rt => rt

def setStaticChildren : Node H M → Node H M → Node H M
  | null, _ => null
  | mk s k n _ pa wi nx rt, st => mk s k n st pa wi nx rt

def setParamChild : Node H M → Node H M → Node H M
  | null, _ => null
  | mk s k n st _ wi nx rt, pa => mk s k n st pa wi nx rt

def setWildcardChild : Node H M → Node H M → Node H M
  | null, _ => null
  | mk s k n st pa _ nx rt, wi => mk s k n st pa wi nx rt

def setNextSibling : Node H M → Node H M → Node H M
  | null, _ => null
  | mk s k n st pa wi _ rt, nx => mk s k n st pa wi nx rt

def setRoute : Node H M → Route H M → Node H M
  | null, _ => null
  | mk s k n st pa wi nx _, rt => mk s k n st pa wi nx (some rt)

/-- A node without children, siblings or route. -/
def leaf (segment : Bytes) (kind : NodeKind) (paramName : Option Bytes) : Node H M :=
  mk segment kind paramName null null null null none

/-- The search of `findChild` along the siblings. -/
def findSibling (segment : Bytes) : Node H M → Node H M
  | null => null
  | mk s k n st pa wi nx rt =>
      if s = segment then mk s k n st pa wi nx rt else findSibling segment nx

/-- `findChild`. -/
def findChild (parent : Node H M) (segment : Bytes) : NodeKind → Node H M
  | .static => findSibling segment parent.staticChildren
  | .param => parent.paramChild
  | .wildcard => parent.wildcardChild

/-- Write `child` back over the sibling `findSibling` found. -/
def replaceSibling (segment : Bytes) (child : Node H M) : Node H M → Node H M
  | null => null
  | mk s k n st pa wi nx rt =>
      if s = segment then child.setNextSibling nx
      else mk s k n st pa wi (replaceSibling segment child nx) rt

/-- Store a child that was just created. -/
def attachChild (parent child : Node H M) : NodeKind → Node H M
  | .static => parent.setStaticChildren (child.setNextSibling parent.staticChildren)
  | .param => parent.setParamChild child
  | .wildcard => parent.setWildcardChild child

/-- Store a child that was already there. -/
def updateChild (parent : Node H M) (segment : Bytes) (child : Node H M) : NodeKind → Node H M
  | .static => parent.setStaticChildren (replaceSibling segment child parent.staticChildren)
  | .param => parent.setParamChild child
  | .wildcard => parent.setWildcardChild child

end Node

/-- The kind of a pattern's segment, by its first byte. -/
def segmentKind (segment : Bytes) : NodeKind :=
  match segment with
  | 42 :: _ => .wildcard
  | 58 :: _ => .param
  | _ => .static

/-- The name of a parameter or wildcard, without its first byte. -/
def segmentParamName (segment : Bytes) : Option Bytes :=
  match segmentKind segment with
  | .static => none
  | _ => some (segment.drop 1)

/-- The non-empty pieces of a path. -/
def pathSegments (path : Bytes) : List Bytes := (splitScalar path 47).filter fun s => s.length ≠ 0

namespace Node

variable {H M : Type}

/-- The descent of `insertRoute`: find or create the child of each segment, then set the
route of the node reached. -/
def insert (rt : Route H M) : List Bytes → Node H M → Node H M
  | [], current => current.setRoute rt
  | segment :: rest, current =>
      let kind := segmentKind segment
      let child := findChild current segment kind
      if child.isNull then
        attachChild current (insert rt rest (leaf segment kind (segmentParamName segment))) kind
      else updateChild current segment (insert rt rest child) kind

/-- The loop of `matchRecursive` over the static children. -/
def tryStatic (descend : Node H M → Act Request (Option (Node H M))) (segment : Bytes) :
    Node H M → Act Request (Option (Node H M))
  | null => pure none
  | mk s k n st pa wi nx rt =>
      if s = segment then do
        match ← descend (mk s k n st pa wi nx rt) with
        | some result => pure (some result)
        | none => tryStatic descend segment nx
      else tryStatic descend segment nx

/-- `if (req.params.count() >= req.config.max_param_count) return error.TooManyParams`. -/
def checkParamCount : Act Request Unit := do
  let req ← get
  if req.config.maxParamCount ≤ req.params.count then Act.fail .tooManyParams else pure ()

/-- `c.param_name.?`. -/
def requireName (c : Node H M) : Act Request Bytes :=
  match c.paramName with
  | some name => pure name
  | none => Act.die .unwrapNull

/-- The parameter branch of `matchRecursive`. -/
def tryParam (descend : Node H M → Act Request (Option (Node H M))) (segment : Bytes)
    (c : Node H M) : Act Request (Option (Node H M)) :=
  if c.isNull then pure none
  else do
    checkParamCount
    let name ← requireName c
    modify fun req => req.setParams (req.params.insert name segment)
    match ← descend c with
    | some result => pure (some result)
    | none =>
        modify fun req => req.setParams (req.params.erase name) -- backtrack
        pure none

/-- The wildcard branch of `matchRecursive`. -/
def tryWildcard (remaining : Bytes) (c : Node H M) : Act Request (Option (Node H M)) :=
  if c.isNull then pure none
  else do
    checkParamCount
    let name ← requireName c
    modify fun req => req.setParams (req.params.insert name remaining)
    pure (some c)

/-- `matchRecursive` on the segments not consumed yet, each with its offset in the path. -/
def matchRecursive (path : Bytes) :
    List (Bytes × ℕ) → Node H M → Act Request (Option (Node H M))
  | [], node => pure (if node.route.isNone then none else some node)
  | (segment, offset) :: rest, node => do
      match ← tryStatic (matchRecursive path rest) segment node.staticChildren with
      | some result => pure (some result)
      | none =>
          match ← tryParam (matchRecursive path rest) segment node.paramChild with
          | some result => pure (some result)
          | none => tryWildcard (path.drop offset) node.wildcardChild

end Node

/-- One tree per method; a tree is `null` until a route of its method is registered. -/
structure Router (H M : Type) where
  trees : Method → Node H M

namespace Router

variable {H M : Type}

/-- `Router.init`. -/
def init : Router H M := ⟨fun _ => .null⟩

/-- The tree of a method, created if need be. -/
def rootFor (self : Router H M) (method : Method) : Node H M :=
  if (self.trees method).isNull then .leaf [] .static none else self.trees method

/-- `Router.insertRoute`. -/
def insertRoute (self : Router H M) (path : Bytes) (method : Method) (handler : H)
    (middlewares : List M) : Router H M :=
  let tree := (self.rootFor method).insert ⟨handler, middlewares⟩ (pathSegments path)
  ⟨fun m => if m = method then tree else self.trees m⟩

/-- The split loop of `findHandler`: the non-empty pieces, each with its offset. -/
def segmentsFrom : ℕ → List Bytes → List (Bytes × ℕ)
  | _, [] => []
  | offset, segment :: rest =>
      if segment.length > 0 then (segment, offset) :: segmentsFrom (offset + segment.length + 1) rest
      else segmentsFrom (offset + segment.length + 1) rest

/-- `Router.matchIn`. -/
def matchIn (self : Router H M) (method : Method) (path : Bytes) (segments : List (Bytes × ℕ)) :
    Act Request (Option (Route H M)) :=
  if (self.trees method).isNull then pure none
  else do
    match ← (self.trees method).matchRecursive path segments with
    | none => pure none
    | some node => pure node.route

/-- The path of the request's URL, its query string decoded on the way. -/
def splitUrl : Act Request Bytes := do
  modify fun req => req.setQuery ∅
  let req ← get
  match indexOfScalar req.url.bytes 63 with
  | some queryStart => do
      Request.parseQueryString (req.url.bytes.drop (queryStart + 1))
      pure (req.url.bytes.take queryStart)
  | none => pure req.url.bytes

/-- `Router.findHandler`. -/
def findHandler (self : Router H M) : Act Request (Option (Route H M)) := do
  let path ← splitUrl
  let segments := segmentsFrom 0 (splitScalar path 47)
  let req ← get
  match ← self.matchIn req.method path segments with
  | some route => pure (some route)
  | none =>
      -- a HEAD with no route of its own is answered by the GET one
      if req.method = .head then self.matchIn .get path segments else pure none

end Router

end Dusty
