import Dusty.BodyRead
import Dusty.HeadEnd

/-! # Reading a message

From the first byte of a message to its last: the header section is taken when it fits into the
buffer, and then the body is about to be read.  A body whose end has been met leaves the message
complete. -/

namespace Dusty
namespace Inbound

open Act Dusty.Parser

variable {L : Llhttp} {M : Type}

/-! ### What the peer has still to send -/

/-- What comes is in pieces that are not empty, and it ends in this way. -/
def Pieces (failure : Option Error) (s : Inbound L M) : Prop :=
  (∀ chunk ∈ s.net.chunks, chunk ≠ []) ∧ s.net.failure = failure

variable {failure : Option Error}

variable (T : Target M)

variable {T}

/-- What follows a header section that ends with `b` in the state `st`: what is left of the
message is `body` and, behind it, `after`. -/
def Follows (L : Llhttp) (failure : Option Error) (st : L.State) (b : UInt8) (rest : Bytes)
    (final : Error) (after body : Bytes) : Prop :=
  ((L.step st b).left = none ∨ (L.step st b).left = some .body) ∧
    (behindHead (L.step st b).after = [] ∧
        Message L failure (L.step st b).next rest final after body ∨
      behindHead (L.step st b).after = [.messageComplete] ∧ final = .endOfStream ∧
        after = rest ∧ body = [])

/-- The header section has been read into the message, and the body is about to be read. -/
structure HeadRead (p : Parser L M) (failure : Option Error) (cap : ℕ) (final : Error)
    (after body : Bytes) (s : Inbound L M) : Prop where
  msg : s.parser.msg = p.msg
  begun : Begun final after body s
  pieces : Pieces failure s
  cap_eq : s.reader.cap = cap
  complete : s.parser.isBodyComplete = true ↔ p.pending = [.messageComplete]

theorem HeadDone.read {msg : M} {base cap k : ℕ} {stream : Bytes} {s : Inbound L M}
    (h : HeadDone T (Parser.init msg) base cap stream k s) (hpieces : Pieces failure s)
    {st : L.State} {b : UInt8} {rest : Bytes} (hend : L.headEnd L.init stream = some (st, b, rest))
    {final : Error} {after body : Bytes} (hfollows : Follows L failure st b rest final after body) :
    ∃ s', enterBody T k s = .ok () s' ∧ HeadRead s.parser failure (cap - k) final after body s' := by
  obtain ⟨st', b', rest', hend', -, -, hopen, hpending, hdrop⟩ := h.ended
  rw [hend] at hend'
  cases hend'
  obtain ⟨hspan, hmsg⟩ := hfollows
  have hincoming : s.incoming.drop k = rest := by
    rw [← hdrop, ← h.stream_eq]
    rfl
  have hmsg' : s.parser.pending = [] ∧
        Message L s.net.failure s.parser.core (s.incoming.drop k) final after body ∨
      s.parser.pending = [.messageComplete] ∧ final = .endOfStream ∧
        after = s.incoming.drop k ∧ body = [] := by
    rw [hpending, hincoming, hopen.core_eq, hpieces.2]
    exact hmsg
  obtain ⟨s', hrun, hbegun, hnet, hcap, hsame, hcomplete⟩ :=
    enterBody_begun T h (hopen.span_eq ▸ hspan) hopen.complete hmsg'
  refine ⟨s', hrun, hsame, hbegun, ⟨?_, ?_⟩, hcap, hcomplete⟩
  · rw [hnet]
    exact hpieces.1
  · rw [hnet]
    exact hpieces.2

variable (T)

/-- The action finds the end of the stream only where the message is complete. -/
def EndsComplete {α : Type} (x : Act (Inbound L M) α) : Prop :=
  Triple (fun _ => True) x (fun _ _ => True)
    fun f s => f = .err .endOfStream → s.parser.isBodyComplete = true

section ends
variable {α β : Type} {x : Act (Inbound L M) α}

theorem EndsComplete.bind {f : α → Act (Inbound L M) β} (hx : EndsComplete x)
    (hf : ∀ a, EndsComplete (f a)) : EndsComplete (x >>= f) := Triple.bind hx hf

theorem endsComplete_of_spares (h : Spares (.err .endOfStream) x) : EndsComplete x := by
  intro s _
  cases hrun : x s with
  | ok a s' => exact trivial
  | error f s' =>
      intro hf
      rw [hf] at hrun
      exact absurd hrun (h s s')

theorem endsComplete_attempt : EndsComplete (attempt x) := by
  refine endsComplete_of_spares fun s s' h => ?_
  unfold attempt at h
  cases hrun : x s with
  | ok a t =>
      rw [hrun] at h
      cases h
  | error f t =>
      rw [hrun] at h
      cases f <;> cases h

theorem endsComplete_fail {e : Error} (he : e ≠ .endOfStream) :
    EndsComplete (fail e : Act (Inbound L M) α) :=
  endsComplete_of_spares (spares_fail fun h => he (Fault.err.inj h).symm)

theorem endsComplete_die (p : Panic) : EndsComplete (die p : Act (Inbound L M) α) :=
  triple_die fun _ _ h => nomatch h

theorem endsComplete_pure (a : α) : EndsComplete (pure a : Act (Inbound L M) α) :=
  triple_pure fun _ h => h

theorem endsComplete_get_bind {f : Inbound L M → Act (Inbound L M) α}
    (h : ∀ r, EndsComplete (f r)) : EndsComplete (get >>= f) :=
  triple_get_bind fun r => (h r).weaken (fun _ _ => trivial) (fun _ _ h => h) fun _ _ h => h

/-- The end of the stream where the flag has just been read. -/
theorem endsComplete_flag (x : Act (Inbound L M) α) (hx : EndsComplete x) :
    EndsComplete (do
      let self ← get
      if self.parser.isBodyComplete then fail .endOfStream else x) := by
  refine triple_get_bind fun r => ?_
  split
  · next hcomplete =>
      rintro s ⟨-, rfl⟩ -
      exact hcomplete
  · exact hx.weaken (fun _ _ => trivial) (fun _ _ h => h) fun _ _ h => h

end ends

theorem endOfBody_endsComplete : EndsComplete (endOfBody : Act (Inbound L M) Unit) := by
  refine endsComplete_attempt.bind fun result => ?_
  match result with
  | .error _ => exact endsComplete_fail nofun
  | .ok () => exact endsComplete_flag _ (endsComplete_fail nofun)

theorem fillBody_endsComplete : EndsComplete (fillBody : Act (Inbound L M) Unit) := by
  refine endsComplete_get_bind fun r => ?_
  unfold Act.when
  split
  · refine endsComplete_attempt.bind fun result => ?_
    match result with
    | .ok () => exact endsComplete_pure _
    | .error e =>
        cases e
        case endOfStream => exact endOfBody_endsComplete
        all_goals exact endsComplete_fail nofun
  · exact endsComplete_pure _

theorem toss_endsComplete (n : ℕ) : EndsComplete (toss n : Act (Inbound L M) Unit) := by
  refine endsComplete_get_bind fun r => ?_
  split
  · exact endsComplete_of_spares (spares_modify _)
  · exact endsComplete_die _

theorem feedBody_endsComplete (n : ℕ) : EndsComplete (feedBody T n : Act (Inbound L M) Unit) := by
  refine endsComplete_get_bind fun r => endsComplete_attempt.bind fun result => ?_
  match result with
  | .ok false => exact toss_endsComplete n
  | .ok true => exact endsComplete_get_bind fun _ => toss_endsComplete _
  | .error _ => exact endsComplete_fail nofun

theorem streamLoop_endsComplete (dest fuel : ℕ) :
    EndsComplete (streamLoop T dest fuel : Act (Inbound L M) Bytes) := by
  induction fuel with
  | zero => exact endsComplete_die _
  | succ fuel ih =>
      refine triple_get_bind fun r => ?_
      split
      · exact triple_pure fun _ _ => trivial
      · split
        · next hcomplete =>
            rintro s ⟨-, rfl⟩ -
            exact hcomplete
        · have hrest : EndsComplete (do
              fillBody
              let self ← get
              if self.reader.data.length = 0 then pure []
              else do
                feedBody T (min self.reader.data.length (dest - self.parser.state.body.length))
                streamLoop T dest fuel : Act (Inbound L M) Bytes) := by
            refine fillBody_endsComplete.bind fun _ => endsComplete_get_bind fun r' => ?_
            split
            · exact endsComplete_pure _
            · exact (feedBody_endsComplete T _).bind fun _ => ih
          exact hrest.weaken (fun _ _ => trivial) (fun _ _ h => h) fun _ _ h => h

theorem stream_endsComplete (dest : ℕ) :
    EndsComplete (stream T dest : Act (Inbound L M) Bytes) := by
  unfold stream
  split
  · exact endsComplete_pure _
  · refine endsComplete_flag _ ?_
    exact (endsComplete_of_spares (spares_modify _)).bind fun _ =>
      endsComplete_get_bind fun _ => streamLoop_endsComplete T dest _

end Inbound
end Dusty
