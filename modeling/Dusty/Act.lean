import Mathlib.Tactic.Common

/-! # Actions with errors and panics

The stateful functions of the library are translated into `Act σ α`, a computation on a
state `σ` that returns a value, fails with one of the source's error values, or panics.
The state survives an error, as the objects behind the source's pointers do, so a caller
that catches an error goes on from the state the failed call left behind (`attempt`), and
an `errdefer` is a state change applied on the way out (`onError`).  A panic (a failed
`std.debug.assert`, an unwrapped `null`) ends the process and cannot be caught. -/

namespace Dusty

/-- The error values the modelled functions return.  `app n` stands for an error of the
application's own, which a handler may return. -/
inductive Error where
  | outOfMemory | canceled | readFailed | writeFailed | endOfStream
  | tooManyHeaders | invalidHeaderName | invalidHeaderValue | headersAlreadySent
  | invalidContentLength | contentLengthMismatch | invalidEventField
  | invalidCookieName | invalidCookieValue
  | invalidEscapeSequence | tooManyQueryParams | tooManyParams
  | bodyTooBig | responseTooLarge | incompleteRequest | incompleteResponse
  | invalidMethod | invalidUrl | invalidHeaderToken | invalidVersion | invalidStatus
  | invalidChunkSize | unexpectedContentLength | closedConnection | parseFailed
  | unsupportedScheme | unsupportedContentEncoding | http2NotImplemented
  | tlsNotConfigured | tlsInitializationFailed | nameTooLong | connectionRefused
  | connectionResetByPeer | brokenPipe
  | reservedFlags | largeControlFrame | invalidOpcode | unexpectedContinuation | nestedFragment
  | invalidUtf8 | messageTooLarge | unmaskedClientFrame | maskedServerFrame
  | webSocketUpgradeFailed
  | notForm | tooManyFormFields | notMultipartForm | invalidMultiPartFormDataHeader
  | invalidMultiPartEncoding | tooManyMultiFormFields
  | sessionFull | invalidSessionData | invalidEncoding | unsupportedVersion | invalidSignature | expired
  | app (n : ℕ)
deriving DecidableEq, Repr

/-- Ways the process dies: a reader asked to fill a buffer without room, a failed assertion
or a `null` unwrapped.  `outOfFuel` marks a model loop cut short; it is no behaviour of the
source. -/
inductive Panic where
  | fillMoreCapacity
  | assertion
  | unwrapNull
  | outOfFuel
deriving DecidableEq, Repr

inductive Fault where
  | err (e : Error)
  | panic (p : Panic)
deriving DecidableEq, Repr

/-- A computation on `σ` with errors and panics. -/
abbrev Act (σ α : Type) := EStateM Fault σ α

namespace Act

variable {σ τ α β : Type}

/-- Return the error value `e`. -/
def fail (e : Error) : Act σ α := fun s => .error (.err e) s

/-- Die. -/
def die (p : Panic) : Act σ α := fun s => .error (.panic p) s

/-- `std.debug.assert`. -/
def assert (b : Bool) : Act σ Unit := if b then pure () else die .assertion

/-- `if (b) x;`. -/
def when (b : Bool) (x : Act σ Unit) : Act σ Unit := if b then x else pure ()

/-- Run `x` and hand its error value, if any, to the caller; a panic is not caught. -/
def attempt (x : Act σ α) : Act σ (Except Error α) := fun s =>
  match x s with
  | .ok a s' => .ok (.ok a) s'
  | .error (.err e) s' => .ok (.error e) s'
  | .error (.panic p) s' => .error (.panic p) s'

/-- `errdefer`: apply `f` to the state when `x` fails. -/
def onError (f : σ → σ) (x : Act σ α) : Act σ α := fun s =>
  match x s with
  | .ok a s' => .ok a s'
  | .error e s' => .error e (f s')

/-- Run an action on a part of the state. -/
def zoom (get : τ → σ) (set : σ → τ → τ) (x : Act σ α) : Act τ α := fun t =>
  match x (get t) with
  | .ok a s => .ok a (set s t)
  | .error e s => .error e (set s t)

/-- The state an action ends in, whatever the outcome. -/
def final (x : Act σ α) (s : σ) : σ :=
  match x s with
  | .ok _ s' => s'
  | .error _ s' => s'

theorem final_of_ok {x : Act σ α} {s s' : σ} {a : α} (h : x s = .ok a s') : final x s = s' := by
  simp [final, h]

theorem final_of_error {x : Act σ α} {s s' : σ} {e : Fault} (h : x s = .error e s') : final x s = s' := by
  simp [final, h]

/-- The action returns a value. -/
def returns (x : Act σ α) (s : σ) : Bool :=
  match x s with
  | .ok .. => true
  | .error .. => false

theorem returns_iff {x : Act σ α} {s : σ} : returns x s = true ↔ ∃ a s', x s = .ok a s' := by
  unfold returns
  cases h : x s with
  | ok a s' => exact ⟨fun _ => ⟨a, s', rfl⟩, fun _ => rfl⟩
  | error e s' => simp

/-- The action ends with the fault. -/
def faults (f : Fault) (x : Act σ α) (s : σ) : Bool :=
  match x s with
  | .ok .. => false
  | .error e _ => decide (e = f)

theorem faults_iff {f : Fault} {x : Act σ α} {s : σ} :
    faults f x s = true ↔ ∃ s', x s = .error f s' := by
  unfold faults
  cases h : x s with
  | ok a s' => simp
  | error e s' =>
      constructor
      · intro hf
        obtain rfl : e = f := by simpa using hf
        exact ⟨s', rfl⟩
      · rintro ⟨s'', hs⟩
        cases hs
        simp

/-- The action returns the value. -/
def gives [DecidableEq α] (a : α) (x : Act σ α) (s : σ) : Bool :=
  match x s with
  | .ok b _ => decide (b = a)
  | .error .. => false

theorem gives_iff [DecidableEq α] {a : α} {x : Act σ α} {s : σ} :
    gives a x s = true ↔ ∃ s', x s = .ok a s' := by
  unfold gives
  cases h : x s with
  | error e s' => simp
  | ok b s' =>
      constructor
      · intro hb
        obtain rfl : b = a := by simpa using hb
        exact ⟨s', rfl⟩
      · rintro ⟨s'', hs⟩
        cases hs
        simp

/-- The action returns a value, and value and state pass the test. -/
def yields (p : α → σ → Bool) (x : Act σ α) (s : σ) : Bool :=
  match x s with
  | .ok a s' => p a s'
  | .error .. => false

theorem yields_iff {p : α → σ → Bool} {x : Act σ α} {s : σ} :
    yields p x s = true ↔ ∃ a s', x s = .ok a s' ∧ p a s' = true := by
  unfold yields
  cases x s with
  | error e s' => simp
  | ok a s' =>
      constructor
      · intro h
        exact ⟨a, s', rfl, h⟩
      · rintro ⟨b, s'', hs, h⟩
        cases hs
        exact h

/-! ### Evaluation rules -/

@[simp] theorem pure_run (a : α) (s : σ) : (pure a : Act σ α) s = .ok a s := rfl

@[simp] theorem fail_run (e : Error) (s : σ) : (fail e : Act σ α) s = .error (.err e) s := rfl

@[simp] theorem die_run (p : Panic) (s : σ) : (die p : Act σ α) s = .error (.panic p) s := rfl

@[simp] theorem get_run (s : σ) : (get : Act σ σ) s = .ok s s := rfl

@[simp] theorem modify_run (f : σ → σ) (s : σ) : (modify f : Act σ PUnit) s = .ok ⟨⟩ (f s) := rfl

theorem bind_run (x : Act σ α) (f : α → Act σ β) (s : σ) :
    (x >>= f) s = match x s with
      | .ok a s' => f a s'
      | .error e s' => .error e s' := by
  cases hx : x s <;> simp [bind, EStateM.bind, hx]

theorem bind_ok {x : Act σ α} {f : α → Act σ β} {s s' : σ} {a : α} (h : x s = .ok a s') :
    (x >>= f) s = f a s' := by
  rw [bind_run, h]

theorem bind_error {x : Act σ α} {f : α → Act σ β} {s s' : σ} {e : Fault}
    (h : x s = .error e s') : (x >>= f) s = .error e s' := by
  rw [bind_run, h]

theorem final_bind_ok {x : Act σ α} {f : α → Act σ β} {s s' : σ} {a : α} (h : x s = .ok a s') :
    final (x >>= f) s = final (f a) s' := by
  unfold final
  rw [bind_ok h]

theorem bind_eq_ok {x : Act σ α} {f : α → Act σ β} {s s' : σ} {b : β} :
    (x >>= f) s = .ok b s' ↔ ∃ a s₁, x s = .ok a s₁ ∧ f a s₁ = .ok b s' := by
  rw [bind_run]
  constructor
  · intro h
    cases hx : x s with
    | ok a s₁ => exact ⟨a, s₁, rfl, by simpa [hx] using h⟩
    | error e s₁ => simp [hx] at h
  · rintro ⟨a, s₁, hx, hf⟩
    rw [hx]
    exact hf

theorem assert_run (b : Bool) (s : σ) :
    (assert b : Act σ Unit) s = if b then .ok () s else .error (.panic .assertion) s := by
  cases b <;> rfl

@[simp] theorem when_true (x : Act σ Unit) : when true x = x := rfl

@[simp] theorem when_false (x : Act σ Unit) : when false x = pure () := rfl

theorem assert_true {b : Bool} (h : b = true) (s : σ) : (assert b : Act σ Unit) s = .ok () s := by
  rw [assert_run, if_pos h]

theorem attempt_congr {x y : Act σ α} {s t : σ} (h : x s = y t) : attempt x s = attempt y t := by
  unfold attempt
  rw [h]

theorem attempt_ok {x : Act σ α} {s s' : σ} {a : α} (h : x s = .ok a s') :
    attempt x s = .ok (.ok a) s' := by
  unfold attempt
  rw [h]

theorem attempt_error {x : Act σ α} {s s' : σ} {e : Error} (h : x s = .error (.err e) s') :
    attempt x s = .ok (.error e) s' := by
  unfold attempt
  rw [h]

theorem final_attempt (x : Act σ α) (s : σ) : final (attempt x) s = final x s := by
  unfold attempt final
  simp only
  cases x s with
  | ok a s' => rfl
  | error f s' => cases f <;> rfl

theorem final_of_attempt {x : Act σ α} {s s' : σ} {result : Except Error α}
    (h : attempt x s = .ok result s') : s' = final x s := by
  rw [← final_attempt, final_of_ok h]

theorem attempt_eq_ok {x : Act σ α} {s s' : σ} {a : α} :
    attempt x s = .ok (.ok a) s' ↔ x s = .ok a s' := by
  unfold attempt
  cases hx : x s with
  | ok b t => simp
  | error f t => cases f <;> simp

theorem attempt_eq_error {x : Act σ α} {s s' : σ} {e : Error} :
    attempt x s = .ok (.error e) s' ↔ x s = .error (.err e) s' := by
  unfold attempt
  cases hx : x s with
  | ok b t => simp
  | error f t => cases f <;> simp

end Act

end Dusty
