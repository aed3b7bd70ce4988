import Dusty.Cors
import Dusty.RouterParams

/-! # Registering routes

The methods of `Router` and of its groups, `router.zig`, and the programs an application fills a router with.  Such a
program is a sequence of `insertRoute` calls, each with the middlewares that are global when the route is registered and
those of its group behind them (`run_eq_build`); so the middlewares a request gets are known from the program alone
(`chain_of_request`), and what is global before the first route is in front of every chain, with or without a route
(`globals_first`). -/

namespace Dusty

open Act

variable {H M : Type}

/-- A router as it is being filled: what it has stored, and `router.middlewares`. -/
structure Registry (H M : Type) where
  router : Router H M := Router.init
  middlewares : List M := []

namespace Registry

/-- `Router.all_methods`. -/
def allMethods : List Method := [.get, .post, .put, .delete, .head, .patch, .options]

/-- `insertRoute` on the router. -/
def insertRoute (self : Registry H M) (path : Bytes) (method : Method) (handler : H) (middlewares : List M) :
    Registry H M :=
  { self with router := self.router.insertRoute path method handler middlewares }

section verbs
variable (self : Registry H M) (path : Bytes) (handler : H)

def get : Registry H M := self.insertRoute path .get handler self.middlewares

def head : Registry H M := self.insertRoute path .head handler self.middlewares

def post : Registry H M := self.insertRoute path .post handler self.middlewares

def put : Registry H M := self.insertRoute path .put handler self.middlewares

def delete : Registry H M := self.insertRoute path .delete handler self.middlewares

def patch : Registry H M := self.insertRoute path .patch handler self.middlewares

def options : Registry H M := self.insertRoute path .options handler self.middlewares

/-- `Router.any`. -/
def any : Registry H M :=
  allMethods.foldl (fun self method => self.insertRoute path method handler self.middlewares) self

end verbs
end Registry

/-- `Router.Group`, without the router. -/
structure Group (M : Type) where
  pathPrefix : Bytes
  middlewares : List M

namespace Group

/-- `Group.mergeMiddlewares`. -/
def mergeMiddlewares (g : Group M) (router : Registry H M) : List M :=
  if router.middlewares.length = 0 then g.middlewares
  else if g.middlewares.length = 0 then router.middlewares
  else router.middlewares ++ g.middlewares

/-- `Group.concatPath`. -/
def concatPath (g : Group M) (path : Bytes) : Bytes := g.pathPrefix ++ path

/-- `Group.register`. -/
def register (g : Group M) (method : Method) (path : Bytes) (handler : H) (router : Registry H M) : Registry H M :=
  router.insertRoute (g.concatPath path) method handler (g.mergeMiddlewares router)

section verbs
variable (g : Group M) (path : Bytes) (handler : H)

def get : Registry H M → Registry H M := g.register .get path handler

def head : Registry H M → Registry H M := g.register .head path handler

def post : Registry H M → Registry H M := g.register .post path handler

def put : Registry H M → Registry H M := g.register .put path handler

def delete : Registry H M → Registry H M := g.register .delete path handler

def patch : Registry H M → Registry H M := g.register .patch path handler

def options : Registry H M → Registry H M := g.register .options path handler

/-- `Group.any`. -/
def any (router : Registry H M) : Registry H M :=
  Registry.allMethods.foldl (fun router method => g.register method path handler router) router

end verbs

/-- The cases of `mergeMiddlewares` only save memory. -/
theorem mergeMiddlewares_eq (g : Group M) (router : Registry H M) :
    g.mergeMiddlewares router = router.middlewares ++ g.middlewares := by
  unfold mergeMiddlewares
  split
  · next hnone => rw [List.eq_nil_of_length_eq_zero hnone, List.nil_append]
  · split
    · next hnone => rw [List.eq_nil_of_length_eq_zero hnone, List.append_nil]
    · rfl

end Group

/-! ### Programs -/

/-- The methods that register a route. -/
inductive Verb where
  | get | head | post | put | delete | patch | options | any
deriving DecidableEq, Repr

/-- What an application does with a router before it listens. -/
inductive Registration (H M : Type) where
  | setMiddlewares (middlewares : List M)
  | route (verb : Verb) (path : Bytes) (handler : H)
  | grouped (g : Group M) (verb : Verb) (path : Bytes) (handler : H)

/-- The methods a verb registers the route for. -/
def Verb.methods : Verb → List Method
  | .get => [.get]
  | .head => [.head]
  | .post => [.post]
  | .put => [.put]
  | .delete => [.delete]
  | .patch => [.patch]
  | .options => [.options]
  | .any => Registry.allMethods

namespace Registration

def exec : Registration H M → Registry H M → Registry H M
  | .setMiddlewares middlewares, self => { self with middlewares := middlewares }
  | .route .get path handler, self => self.get path handler
  | .route .head path handler, self => self.head path handler
  | .route .post path handler, self => self.post path handler
  | .route .put path handler, self => self.put path handler
  | .route .delete path handler, self => self.delete path handler
  | .route .patch path handler, self => self.patch path handler
  | .route .options path handler, self => self.options path handler
  | .route .any path handler, self => self.any path handler
  | .grouped g .get path handler, self => g.get path handler self
  | .grouped g .head path handler, self => g.head path handler self
  | .grouped g .post path handler, self => g.post path handler self
  | .grouped g .put path handler, self => g.put path handler self
  | .grouped g .delete path handler, self => g.delete path handler self
  | .grouped g .patch path handler, self => g.patch path handler self
  | .grouped g .options path handler, self => g.options path handler self
  | .grouped g .any path handler, self => g.any path handler self

def run (script : List (Registration H M)) (self : Registry H M) : Registry H M :=
  script.foldl (fun self registration => registration.exec self) self

/-- The middlewares that are global behind a registration. -/
def globals (before : List M) : Registration H M → List M
  | .setMiddlewares middlewares => middlewares
  | _ => before

/-- The middlewares that are global behind a program. -/
def globalsOf (script : List (Registration H M)) : List M := script.foldl globals []

/-- The path of a registration. -/
def path : Registration H M → Bytes
  | .setMiddlewares _ => []
  | .route _ path _ => path
  | .grouped g _ path _ => g.concatPath path

/-- The methods of a registration. -/
def methods : Registration H M → List Method
  | .setMiddlewares _ => []
  | .route verb _ _ => verb.methods
  | .grouped _ verb _ _ => verb.methods

/-- The middlewares behind the global ones. -/
def ownMiddlewares : Registration H M → List M
  | .grouped g _ _ _ => g.middlewares
  | _ => []

def handler : Registration H M → Option H
  | .setMiddlewares _ => none
  | .route _ _ handler => some handler
  | .grouped _ _ _ handler => some handler

/-- The `insertRoute` calls of a registration. -/
def calls (before : List M) (registration : Registration H M) : List (Call H M) :=
  match registration.handler with
  | none => []
  | some handler => registration.methods.map fun method =>
      ⟨registration.path, method, handler, before ++ registration.ownMiddlewares⟩

/-- The `insertRoute` calls of a program. -/
def callsOf : List M → List (Registration H M) → List (Call H M)
  | _, [] => []
  | before, registration :: rest => registration.calls before ++ callsOf (registration.globals before) rest

/-! ### A program is its calls -/

theorem foldl_insertRoute (methods : List Method) (path : Bytes) (handler : H) (middlewares : List M)
    (self : Registry H M) (add : Registry H M → Method → Registry H M)
    (hadd : ∀ (r : Registry H M) method, r.middlewares = self.middlewares →
      add r method = r.insertRoute path method handler middlewares) :
    methods.foldl add self = { self with
      router := (methods.map fun method => (⟨path, method, handler, middlewares⟩ : Call H M)).foldl
        (fun router c => router.insertRoute c.path c.method c.handler c.middlewares) self.router } := by
  induction methods generalizing self with
  | nil => rfl
  | cons method methods ih =>
      rw [List.foldl_cons, hadd self method rfl, ih (self.insertRoute path method handler middlewares) hadd]
      rfl

theorem exec_eq (registration : Registration H M) (self : Registry H M) :
    registration.exec self =
      ⟨(registration.calls self.middlewares).foldl
        (fun router c => router.insertRoute c.path c.method c.handler c.middlewares) self.router,
        registration.globals self.middlewares⟩ := by
  cases registration with
  | setMiddlewares middlewares => rfl
  | route verb path handler =>
      have hall := foldl_insertRoute verb.methods path handler self.middlewares self
        (fun self method => self.insertRoute path method handler self.middlewares)
        fun r method hr => by rw [hr]
      have hexec : exec (.route verb path handler) self = verb.methods.foldl
          (fun self method => self.insertRoute path method handler self.middlewares) self := by
        cases verb <;> rfl
      have hcalls : calls self.middlewares (.route verb path handler) = verb.methods.map fun method =>
          (⟨path, method, handler, self.middlewares⟩ : Call H M) := by
        show (verb.methods.map fun method => (⟨path, method, handler, self.middlewares ++ []⟩ : Call H M)) = _
        rw [List.append_nil]
      rw [hexec, hall, hcalls]
      rfl
  | grouped g verb path handler =>
      have hall := foldl_insertRoute verb.methods (g.concatPath path) handler (self.middlewares ++ g.middlewares) self
        (fun self method => g.register method path handler self)
        fun r method hr => by rw [Group.register, Group.mergeMiddlewares_eq, hr]
      have hexec : exec (.grouped g verb path handler) self = verb.methods.foldl
          (fun self method => g.register method path handler self) self := by
        cases verb <;> rfl
      rw [hexec, hall]
      rfl

theorem run_calls (script : List (Registration H M)) (self : Registry H M) :
    run script self = ⟨(callsOf self.middlewares script).foldl
      (fun router c => router.insertRoute c.path c.method c.handler c.middlewares) self.router,
      script.foldl globals self.middlewares⟩ := by
  induction script generalizing self with
  | nil => rfl
  | cons registration rest ih =>
      show run rest (registration.exec self) = _
      rw [ih, exec_eq, callsOf, List.foldl_append]
      rfl

/-- **A program is its calls**, each with the middlewares that are global when it is made. -/
theorem run_eq_build (script : List (Registration H M)) :
    run script {} = ⟨Router.build (callsOf [] script), globalsOf script⟩ := run_calls script {}

/-- The registration a call comes from, and those behind it. -/
theorem split_callsOf {before : List M} {script : List (Registration H M)} {pre post : List (Call H M)} {c : Call H M}
    (h : callsOf before script = pre ++ c :: post) :
    ∃ first registration rest, script = first ++ registration :: rest ∧
      c ∈ registration.calls (first.foldl globals before) ∧
      ∀ d ∈ callsOf (registration.globals (first.foldl globals before)) rest, d ∈ post := by
  induction script generalizing before pre with
  | nil => simp [callsOf] at h
  | cons registration rest ih =>
      rcases List.append_eq_append_iff.mp h with ⟨more, hpre, hcalls⟩ | ⟨more, hcalls, hpost⟩
      · obtain ⟨first, registration', rest', rfl, hc, hlater⟩ := ih hcalls
        exact ⟨registration :: first, registration', rest', rfl, hc, hlater⟩
      · cases more with
        | nil =>
            have hrest : callsOf (registration.globals before) rest = [] ++ c :: post := hpost.symm
            obtain ⟨first, registration', rest', rfl, hc, hlater⟩ := ih hrest
            exact ⟨registration :: first, registration', rest', rfl, hc, hlater⟩
        | cons c' more =>
            obtain ⟨rfl, rfl⟩ := List.cons.inj hpost
            refine ⟨[], registration, rest, rfl, ?_, fun d hd => List.mem_append_right _ hd⟩
            show c ∈ registration.calls before
            rw [hcalls]
            exact List.mem_append_right _ List.mem_cons_self

/-- Every registration with the method has its call. -/
theorem mem_callsOf {before : List M} {script : List (Registration H M)} {registration : Registration H M} {m : Method}
    (hmem : registration ∈ script) (hm : m ∈ registration.methods) :
    ∃ c ∈ callsOf before script, c.method = m ∧ c.path = registration.path := by
  induction script generalizing before with
  | nil => cases hmem
  | cons head rest ih =>
      rcases List.mem_cons.mp hmem with rfl | hrest
      · cases hhandler : registration.handler with
        | none =>
            cases registration with
            | setMiddlewares _ => cases hm
            | route _ _ _ => cases hhandler
            | grouped _ _ _ _ => cases hhandler
        | some handler =>
            refine ⟨⟨registration.path, m, handler, before ++ registration.ownMiddlewares⟩, ?_, rfl, rfl⟩
            refine List.mem_append_left _ ?_
            unfold calls
            rw [hhandler]
            exact List.mem_map_of_mem hm
      · have hcall : ∃ c ∈ callsOf (head.globals before) rest, c.method = m ∧ c.path = registration.path := ih hrest
        obtain ⟨c, hc, hmethod, hpath⟩ := hcall
        exact ⟨c, List.mem_append_right _ hc, hmethod, hpath⟩

theorem path_callsOf {before : List M} {script : List (Registration H M)} {c : Call H M}
    (h : c ∈ callsOf before script) : ∃ registration ∈ script, c.path = registration.path := by
  obtain ⟨pre, post, hcalls⟩ := List.append_of_mem h
  obtain ⟨first, registration, rest, rfl, hc, -⟩ := split_callsOf hcalls
  refine ⟨registration, by simp, ?_⟩
  unfold calls at hc
  cases hhandler : registration.handler with
  | none =>
      rw [hhandler] at hc
      cases hc
  | some handler =>
      rw [hhandler] at hc
      obtain ⟨method, -, rfl⟩ := List.mem_map.mp hc
      rfl

/-! ### What a request gets -/

/-- The route a request finds is that of the call its table answers with; that of `GET` is asked for a `HEAD` if that
of `HEAD` has none. -/
theorem found_answers {calls : List (Call H M)} {req req' : Request} {route : Route H M}
    (h : Router.findHandler (Router.build calls) req = .ok (some route) req') :
    ∃ m c, (m = req.method ∨ req.method = .head ∧ m = .get ∧
        ((∀ d ∈ calls, WildcardLast (pathSegments d.path)) →
          ∀ d ∈ calls, d.method = .head → Seg.Matches d.pattern (pathSegments (Router.urlPath req)) = false)) ∧
      Router.Answers calls m (pathSegments (Router.urlPath req)) c ∧ route = c.route := by
  obtain ⟨req₁, -, -, hrun⟩ := Router.findHandler_ok h
  rcases hrun with ⟨hmatch, -⟩ | ⟨req₂, hhead, hnone, hmatch⟩
  · obtain ⟨c, hc, hroute, -⟩ := Router.matchIn_some hmatch
    exact ⟨req.method, c, .inl rfl, hc, hroute⟩
  · obtain ⟨c, hc, hroute, -⟩ := Router.matchIn_some hmatch
    exact ⟨.get, c, .inr ⟨hhead, rfl, fun hlast => Router.matchIn_none hlast hnone⟩, hc, hroute⟩

/-- The server of a program. -/
def serverOf (config : ServerConfig) (script : List (Registration H M)) : Server H M :=
  ⟨config, (run script {}).router, (run script {}).middlewares⟩

/-- What a registration registers for a method. -/
def pattern (registration : Registration H M) : List (Seg Bytes) := shape (pathSegments registration.path)

/-- The registration whose route a request finds, among those of a program: it is for the method of the request, or for
`GET` instead of `HEAD`, which with wildcards at the end of patterns only means that no pattern for `HEAD` matches; its
pattern matches and is the least that does; and nothing behind it registers the same. -/
structure Serves (first : List (Registration H M)) (registration : Registration H M) (rest : List (Registration H M))
    (req : Request) (m : Method) : Prop where
  has : m ∈ registration.methods
  method : m = req.method ∨ req.method = .head ∧ m = .get ∧
    ((∀ other ∈ first ++ registration :: rest, WildcardLast (pathSegments other.path)) →
      ∀ other ∈ first ++ registration :: rest, .head ∈ other.methods →
        Seg.Matches other.pattern (pathSegments (Router.urlPath req)) = false)
  applies : Seg.Matches registration.pattern (pathSegments (Router.urlPath req)) = true
  least : ∀ other ∈ first ++ registration :: rest, m ∈ other.methods →
    Seg.Matches other.pattern (pathSegments (Router.urlPath req)) = true →
      Seg.ranks registration.pattern ≤ Seg.ranks other.pattern
  last : ∀ later ∈ rest, m ∈ later.methods → later.pattern ≠ registration.pattern

theorem found_registration {script : List (Registration H M)} {req req' : Request} {r : Route H M}
    (h : (run script {}).router.findHandler req = .ok (some r) req') :
    ∃ first registration rest m, script = first ++ registration :: rest ∧ registration.Serves first rest req m ∧
      registration.handler = some r.action ∧ r.middlewares = globalsOf first ++ registration.ownMiddlewares := by
  rw [run_eq_build] at h
  obtain ⟨m, c, hm, ⟨pre, post, hcalls, happlies, hleast, hpost⟩, rfl⟩ := found_answers h
  obtain ⟨first, registration, rest, rfl, hc, hlater⟩ := split_callsOf hcalls
  obtain ⟨hmethod, hmatches⟩ := Bool.and_eq_true_iff.mp happlies
  unfold calls at hc
  cases hhandler : registration.handler with
  | none =>
      rw [hhandler] at hc
      cases hc
  | some handler =>
      rw [hhandler] at hc
      obtain ⟨method, hverb, rfl⟩ := List.mem_map.mp hc
      obtain rfl : method = m := of_decide_eq_true hmethod
      refine ⟨first, registration, rest, method, rfl, ⟨hverb, hm.imp_right fun hget => ⟨hget.1, hget.2.1, ?_⟩,
        hmatches, ?_, ?_⟩, hhandler, rfl⟩
      · intro hlast other hother hothers
        have hcall : ∃ d ∈ callsOf [] (first ++ registration :: rest), d.method = .head ∧ d.path = other.path :=
          mem_callsOf hother hothers
        obtain ⟨d, hd, hdmethod, hdpath⟩ := hcall
        have hdpattern : d.pattern = other.pattern := congrArg (fun path => shape (pathSegments path)) hdpath
        rw [← hdpattern]
        refine hget.2.2 (fun c hc => ?_) d hd hdmethod
        obtain ⟨_, hregistered, hcpath⟩ := path_callsOf hc
        rw [hcpath]
        exact hlast _ hregistered
      · intro other hother hothers hothermatches
        have hcall : ∃ d ∈ callsOf [] (first ++ registration :: rest), d.method = method ∧ d.path = other.path :=
          mem_callsOf hother hothers
        obtain ⟨d, hd, hdmethod, hdpath⟩ := hcall
        have hdpattern : d.pattern = other.pattern := congrArg (fun path => shape (pathSegments path)) hdpath
        rw [← hdpattern]
        refine hleast d hd (Bool.and_eq_true_iff.mpr ⟨decide_eq_true hdmethod, ?_⟩)
        rw [hdpattern]
        exact hothermatches
      · intro later hin hlaters heq
        obtain ⟨d, hd, hdmethod, hdpath⟩ := mem_callsOf hin hlaters
        exact hpost d (hlater d hd) hdmethod ((congrArg (fun path => shape (pathSegments path)) hdpath).trans heq)

/-- **The chain of a request.**  A request without a route gets the middlewares that are global in the end.  One with a
route gets those that were global when the route was registered, with those of its group behind them. -/
theorem chain_of_request (config : ServerConfig) (script : List (Registration H M)) {req req' : Request}
    {found : Option (Route H M)} (h : (serverOf config script).router.findHandler req = .ok found req') :
    (found = none → Exchange.middlewaresOf (serverOf config script) found = globalsOf script) ∧
      ∀ r, found = some r → ∃ first registration rest m, script = first ++ registration :: rest ∧
        registration.Serves first rest req m ∧ registration.handler = some r.action ∧
        Exchange.middlewaresOf (serverOf config script) found = globalsOf first ++ registration.ownMiddlewares := by
  constructor
  · rintro rfl
    show (run script {}).middlewares = globalsOf script
    rw [run_eq_build]
  · rintro r rfl
    exact found_registration h

/-- The registration leaves the global middlewares alone. -/
def Leaves : Registration H M → Prop
  | .setMiddlewares _ => False
  | _ => True

theorem globalsOf_leaves {middlewares : List M} {script : List (Registration H M)} (h : ∀ r ∈ script, r.Leaves) :
    script.foldl globals middlewares = middlewares := by
  induction script with
  | nil => rfl
  | cons registration rest ih =>
      have hsame : registration.globals middlewares = middlewares := by
        cases registration with
        | setMiddlewares _ => exact (h _ List.mem_cons_self).elim
        | route _ _ _ => rfl
        | grouped _ _ _ _ => rfl
      rw [List.foldl_cons, hsame]
      exact ih fun r hr => h r (List.mem_cons_of_mem _ hr)

/-- **What is global first comes first.**  If the middlewares are set before any route is registered, and only then, every
chain begins with them, also that of a request without a route. -/
theorem globals_first (config : ServerConfig) (middlewares : List M) {rest : List (Registration H M)}
    (hleaves : ∀ r ∈ rest, r.Leaves) {req req' : Request} {found : Option (Route H M)}
    (h : (serverOf config (.setMiddlewares middlewares :: rest)).router.findHandler req = .ok found req') :
    ∃ own, Exchange.middlewaresOf (serverOf config (.setMiddlewares middlewares :: rest)) found = middlewares ++ own ∧
      (found = none ∧ own = [] ∨ ∃ r registration, found = some r ∧ registration ∈ rest ∧
        registration.handler = some r.action ∧ own = registration.ownMiddlewares) := by
  cases found with
  | none =>
      refine ⟨[], ?_, .inl ⟨rfl, rfl⟩⟩
      show (run (.setMiddlewares middlewares :: rest) {}).middlewares = _
      rw [run_eq_build, List.append_nil]
      exact globalsOf_leaves hleaves
  | some r =>
      obtain ⟨first, registration, after, m, hscript, hserves, hhandler, hchain⟩ := found_registration h
      cases first with
      | nil =>
          obtain ⟨rfl, rfl⟩ := List.cons.inj hscript
          cases hhandler
      | cons head first =>
          obtain ⟨rfl, rfl⟩ := List.cons.inj hscript
          refine ⟨registration.ownMiddlewares, ?_, .inr ⟨r, registration, rfl, ?_, hhandler, rfl⟩⟩
          · show r.middlewares = _
            rw [hchain]
            congr 1
            exact globalsOf_leaves fun r hr => hleaves r (List.mem_append_left _ hr)
          · exact List.mem_append_right _ List.mem_cons_self

/-- Two global middlewares, the second set behind the first route. -/
def program : List (Registration ℕ ℕ) :=
  [.setMiddlewares [1], .route .get (ascii "/a") 10, .setMiddlewares [1, 2],
    .grouped ⟨ascii "/b", [3]⟩ .any (ascii "/c") 20]

theorem chain_of_request_sample : ∃ first registration rest, program = first ++ registration :: rest ∧
    registration.handler = some 20 ∧ [1, 2, 3] = globalsOf first ++ registration.ownMiddlewares := by
  have hrun : yields (fun found _ => decide (found = some ⟨20, [1, 2, 3]⟩)) (serverOf {} program).router.findHandler
      { method := .put, url := ⟨0, ascii "/b/c"⟩ } = true := by
    decide +kernel
  obtain ⟨found, req', h, hfound⟩ := yields_iff.mp hrun
  obtain rfl := of_decide_eq_true hfound
  obtain ⟨first, registration, rest, m, hscript, -, hhandler, hchain⟩ := (chain_of_request {} program h).2 _ rfl
  exact ⟨first, registration, rest, hscript, hhandler, hchain⟩

end Registration

namespace Cors

open Act Chain Exchange Registration Response

variable {L : Llhttp}

theorem chooseRoute_found {server : Server (Handler L) (Middleware L)} {requestCount : ℕ} {self routed : Exchange L}
    {found : Option (Route (Handler L) (Middleware L))} (h : chooseRoute server requestCount self = .ok found routed) :
    ∃ req req', server.router.findHandler req = .ok found req' := by
  obtain ⟨_, limited, -, hfind⟩ := bind_eq_ok.mp h
  unfold onRequest zoom at hfind
  cases hrun : server.router.findHandler limited.request with
  | error f req' =>
      rw [hrun] at hfind
      cases hfind
  | ok found' req' =>
      rw [hrun] at hfind
      cases hfind
      exact ⟨_, req', hrun⟩

/-- Nobody else in a program sets the field. -/
structure Alone (middlewares : List (Middleware L)) (rest : List (Registration (Handler L) (Middleware L))) : Prop where
  middlewares : ∀ middleware ∈ middlewares, ∀ exchange, Performs (SetsNot allowOrigin) (middleware exchange)
  own : ∀ r ∈ rest, ∀ middleware ∈ r.ownMiddlewares, ∀ exchange, Performs (SetsNot allowOrigin) (middleware exchange)
  handlers : ∀ r ∈ rest, ∀ handler, r.handler = some handler → ∀ exchange, Performs (SetsNot allowOrigin) (handler exchange)

/-- **The origin is allowed in every response** of a server whose first registration puts the middleware in front of the
global ones, if nobody else sets the field: the header block of a response, if it is sent, has the line, also where the
request is a preflight or has no route, and where the response is that of a handler that failed. -/
theorem origin_allowed (self : Cors) {server : Server (Handler L) (Middleware L)} {middlewares : List (Middleware L)}
    {rest : List (Registration (Handler L) (Middleware L))}
    (hserver : server = serverOf server.config (.setMiddlewares (self.execute :: middlewares) :: rest))
    (hleaves : ∀ r ∈ rest, r.Leaves) (halone : Alone middlewares rest) (hvalid : validHeaderValue self.origin = true)
    (hmax : 0 < server.config.request.maxHeaderCount) (requestCount : ℕ) (shuttingDown : Bool) {parsed : Exchange L}
    (hfaults : parsed.res.conn.faults = []) (hknown : expectsUnknown parsed.request = false) :
    (final (serveChain server requestCount shuttingDown) parsed).res.headersWritten = true →
      ∃ pieces, (final (serveChain server requestCount shuttingDown) parsed).res.conn.log =
        parsed.res.conn.log ++ pieces ∧ (Part.head, fieldLine allowOrigin self.origin ++ crlf) ∈ pieces := by
  have hserve : final (serveChain server requestCount shuttingDown) parsed =
      final (chooseRoute server requestCount >>= fun found => nameCause (executeChain server found) >>= fun _ =>
        finish server.config.request shuttingDown) (opening server.config parsed) := by
    unfold final
    rw [serveChain_known server requestCount shuttingDown hknown]
  have hopening := fresh_opening server.config parsed
  rw [hserve]
  cases hroute : chooseRoute server requestCount (opening server.config parsed) with
  | error f failed =>
      rw [final_of_error (bind_error hroute)]
      intro hw
      cases ((keeps_fresh_choose _ _).error hopening hroute).headersWritten.symm.trans hw
  | ok found routed =>
      obtain ⟨req, req', hfind⟩ := chooseRoute_found hroute
      rw [hserver] at hfind
      obtain ⟨own, hchain, hown⟩ := globals_first server.config (self.execute :: middlewares) hleaves hfind
      rw [← hserver] at hchain
      rw [final_bind_ok hroute]
      have hallowed := allowed_routed self shuttingDown ((keeps_fresh_choose _ _).ok hopening hroute) hmax hfaults hchain
        (fun middleware hmiddleware => ?_) (fun route hfound => ?_) hvalid
      · obtain ⟨pieces, hlog, hsent⟩ := hallowed.announces
        exact fun hw => ⟨pieces, hlog, hsent hw⟩
      · rcases List.mem_append.mp hmiddleware with hmem | hmem
        · exact halone.middlewares middleware hmem
        · rcases hown with ⟨-, rfl⟩ | ⟨r, registration, -, hrest, -, rfl⟩
          · cases hmem
          · exact halone.own registration hrest middleware hmem
      · rcases hown with ⟨hnone, -⟩ | ⟨r, registration, hr, hrest, hhandler, -⟩
        · cases hnone.symm.trans hfound
        · obtain rfl : r = route := Option.some.inj (hr.symm.trans hfound)
          exact halone.handlers registration hrest _ hhandler

/-- A handler that answers with its name. -/
def greeting : Handler L := fun _ => .step (.res (.setBody (ascii "hello"))) fun _ _ => .finish none

/-- A program with a route in a group; nobody in it sets the field again. -/
def openProgram : List (Registration (Handler L) (Middleware L)) :=
  [.grouped ⟨ascii "/api", [passing]⟩ .get (ascii "/hello") greeting]

theorem openProgram_alone : Alone (L := L) [passing] openProgram where
  middlewares := by
    intro middleware hmiddleware _
    obtain rfl := List.mem_singleton.mp hmiddleware
    exact fun _ _ => trivial
  own := by
    intro r hr middleware hmiddleware _
    obtain rfl := List.mem_singleton.mp hr
    obtain rfl := List.mem_singleton.mp hmiddleware
    exact fun _ _ => trivial
  handlers := by
    intro r hr handler hhandler _
    obtain rfl := List.mem_singleton.mp hr
    obtain rfl := Option.some.inj hhandler
    exact ⟨trivial, fun _ _ => trivial⟩

/-- The server of the program, for any origin. -/
def openServer : Server (Handler (Http1.llhttp false)) (Middleware (Http1.llhttp false)) :=
  serverOf {} (.setMiddlewares [anyOrigin.execute, passing] :: openProgram)

theorem origin_allowed_sample : ∃ parsed pieces, awaitRequest twoRequests = .ok true parsed ∧
    (final (serveChain openServer 1 false) parsed).res.conn.log = parsed.res.conn.log ++ pieces ∧
      (Part.head, fieldLine allowOrigin (ascii "*") ++ crlf) ∈ pieces := by
  have hrun : yields (fun more parsed => more && !expectsUnknown parsed.request && parsed.res.conn.faults.isEmpty &&
      (final (serveChain openServer 1 false) parsed).res.headersWritten) awaitRequest twoRequests = true := by
    decide +kernel
  obtain ⟨more, parsed, hparsed, hrun⟩ := yields_iff.mp hrun
  simp only [Bool.and_eq_true, Bool.not_eq_true', List.isEmpty_iff] at hrun
  obtain ⟨⟨⟨rfl, hknown⟩, hfaults⟩, hwritten⟩ := hrun
  have hleaves : ∀ r ∈ (openProgram : List (Registration (Handler (Http1.llhttp false)) _)), r.Leaves := by
    intro r hr
    obtain rfl := List.mem_singleton.mp hr
    trivial
  have hserver : openServer = serverOf openServer.config (.setMiddlewares [anyOrigin.execute, passing] :: openProgram) := rfl
  obtain ⟨pieces, hlog, hmem⟩ := origin_allowed anyOrigin hserver hleaves openProgram_alone (by decide) (by decide) 1 false
    hfaults hknown hwritten
  exact ⟨parsed, pieces, hparsed, hlog, hmem⟩

end Cors
end Dusty
