import Dusty.BodyRead

/-! # Trailers

The fields behind a chunked body are reported through the callbacks that fill the request while
its header section is read.  What the automaton reports of them is decoded on the side, as
`Trailing`; the request stays as `parseHeaders` left it exactly when there are none, or when its
table of headers has no slot left (`readBody_head_iff`). -/

namespace Dusty

open Act

/-! ### What is reported behind the body -/

/-- The fields of a trailer section as far as they were reported: the name and the value that
are being read, the span of the last byte, and the fields that are complete. -/
structure Trailing where
  field : Bytes := []
  value : Bytes := []
  hasField : Bool := false
  last : Option Span := none
  fields : List (Bytes × Bytes) := []
deriving DecidableEq

namespace Trailing

/-- A callback without data. -/
def mark (t : Trailing) : Mark → Option Trailing
  | .headerFieldComplete => if t.field = [] then none else some { t with hasField := true }
  | .headerValueComplete =>
      if t.hasField then some { last := t.last, fields := t.fields ++ [(t.field, t.value)] }
      else none
  | _ => none

/-- The callbacks in front of a byte. -/
def marks (t : Trailing) : List Mark → Option Trailing
  | [] => some t
  | m :: rest => (t.mark m).bind (·.marks rest)

/-- A byte of the body, of its framing, or of a field.  The bytes of a name or a value come one
behind the other. -/
def byte (t : Trailing) (b : UInt8) : Option Span → Option Trailing
  | none => some { t with last := none }
  | some .body => some { t with last := some .body }
  | some .headerField =>
      if t.field = [] ∨ t.last = some .headerField then
        some { t with field := t.field ++ [b], last := some .headerField }
      else none
  | some .headerValue =>
      if t.value = [] ∨ t.last = some .headerValue then
        some { t with value := t.value ++ [b], last := some .headerValue }
      else none
  | some .url => none

theorem mark_fields {t t' : Trailing} {m : Mark} (h : t.mark m = some t') :
    t.fields <+: t'.fields := by
  cases m with
  | headerFieldComplete =>
      rw [mark] at h
      split at h
      · cases h
      · cases h
        exact List.prefix_rfl
  | headerValueComplete =>
      rw [mark] at h
      split at h
      · cases h
        exact List.prefix_append _ _
      · cases h
  | method | version | urlComplete | statusComplete => cases h

theorem marks_fields {ms : List Mark} {t t' : Trailing} (h : t.marks ms = some t') :
    t.fields <+: t'.fields := by
  induction ms generalizing t with
  | nil =>
      cases h
      exact List.prefix_rfl
  | cons m rest ih =>
      obtain ⟨t₁, hm, hrest⟩ := Option.bind_eq_some_iff.mp h
      exact (mark_fields hm).trans (ih hrest)

theorem byte_fields {t t' : Trailing} {b : UInt8} {span : Option Span}
    (h : t.byte b span = some t') : t'.fields = t.fields := by
  unfold byte at h
  split at h
  · cases h
    rfl
  · cases h
    rfl
  · split at h
    · cases h
      rfl
    · cases h
  · split at h
    · cases h
      rfl
    · cases h
  · cases h

end Trailing

namespace Llhttp

variable (L : Llhttp)

/-- A body with what follows it up to the end of the message: the fields behind it, and the bytes
behind those. -/
def decodeTrailers : L.State → Trailing → Bytes → Option (Trailing × Bytes)
  | _, _, [] => none
  | s, t, b :: rest =>
      ((t.marks (L.step s b).before).bind (·.byte b (L.step s b).span)).bind fun t' =>
        match (L.step s b).after with
        | [] => decodeTrailers (L.step s b).next t' rest
        | [.messageComplete] => some (t', rest)
        | _ => none

variable {L}

theorem decodeTrailers_cons {s : L.State} {t last : Trailing} {b : UInt8} {rest after : Bytes}
    (h : L.decodeTrailers s t (b :: rest) = some (last, after)) :
    ∃ t₁ t', t.marks (L.step s b).before = some t₁ ∧ t₁.byte b (L.step s b).span = some t' ∧
      ((L.step s b).after = [] ∧ L.decodeTrailers (L.step s b).next t' rest = some (last, after) ∨
        (L.step s b).after = [.messageComplete] ∧ last = t' ∧ after = rest) := by
  rw [decodeTrailers] at h
  obtain ⟨t', ht, hafter⟩ := Option.bind_eq_some_iff.mp h
  obtain ⟨t₁, hmarks, hbyte⟩ := Option.bind_eq_some_iff.mp ht
  refine ⟨t₁, t', hmarks, hbyte, ?_⟩
  split at hafter
  · next hnil => exact .inl ⟨hnil, hafter⟩
  · next hcomplete =>
      cases hafter
      exact .inr ⟨hcomplete, rfl, rfl⟩
  · cases hafter

theorem decodeTrailers_fields {s : L.State} {t last : Trailing} {bytes after : Bytes}
    (h : L.decodeTrailers s t bytes = some (last, after)) : t.fields <+: last.fields := by
  induction bytes generalizing s t with
  | nil => cases h
  | cons b rest ih =>
      obtain ⟨t₁, t', hmarks, hbyte, ⟨-, hrest⟩ | ⟨-, rfl, -⟩⟩ := decodeTrailers_cons h
      · refine (Trailing.marks_fields hmarks).trans ?_
        rw [← Trailing.byte_fields hbyte]
        exact ih hrest
      · rw [Trailing.byte_fields hbyte]
        exact Trailing.marks_fields hmarks

end Llhttp

namespace Headers

/-- No slot is left. -/
def Full (self : Headers) : Prop := self.cap ≤ self.entries.length

theorem add_full {self : Headers} (h : self.Full) (name value : Bytes) :
    self.add name value = .error .tooManyHeaders := by
  unfold Full at h
  rw [add, dif_neg (by omega)]

end Headers

/-! ### A request that stays as it is -/

namespace Parser

variable {L : Llhttp}

/-- What is to come brings no field that there is a slot for. -/
def Quiet (L : Llhttp) (msg : Request) (core : L.State) (rest : Bytes) : Prop :=
  ∃ t last after, L.decodeTrailers core t rest = some (last, after) ∧
    (last.fields = [] ∨ msg.headers.Full)

/-- The request is `msg`, and unless the parser has stopped nothing that is to come will change
that. -/
structure Holds (msg : Request) (rest : Bytes) (p : Parser L Request) : Prop where
  msg_eq : p.msg = msg
  goesOn : p.errno = none → p.pending = [] ∧ Quiet L msg p.core rest

/-- An assertion has failed, and the request is `msg`. -/
def Dies (msg : Request) (f : Fault) (p : Parser L Request) : Prop :=
  p.msg = msg ∧ f = .panic .assertion

/-- The parser is between two callbacks, in the given state. -/
structure Between (msg : Request) (core : L.State) (p : Parser L Request) : Prop where
  msg_eq : p.msg = msg
  goesOn : p.errno = none → p.pending = [] ∧ p.core = core

section hidden
variable {msg : Request} {core : L.State}

theorem Holds.stopped {rest : Bytes} {p : Parser L Request} (hmsg : p.msg = msg)
    (herrno : p.errno ≠ none) : Holds msg rest p :=
  ⟨hmsg, fun h => absurd h herrno⟩

theorem onMark_hidden {m : Mark} {t t' : Trailing} (hm : t.mark m = some t')
    (hquiet : t'.fields = [] ∨ msg.headers.Full) (pos : ℕ) :
    Triple (Between msg core) (onMark .request pos m) (fun _ => Between msg core)
      (Dies msg) := by
  cases m with
  | headerFieldComplete =>
      refine triple_get_bind fun p => ?_
      refine Triple.bind (triple_assert (Q := fun _ => Between msg core) (fun s hs _ => hs.1)
        fun s hs => ⟨hs.1.msg_eq, rfl⟩) fun _ => ?_
      exact triple_modify fun s hs => ⟨hs.msg_eq, hs.goesOn⟩
  | headerValueComplete =>
      have hfull : msg.headers.Full := by
        rw [Trailing.mark] at hm
        split at hm
        · cases hm
          rcases hquiet with hnil | hfull
          · exact absurd (List.append_eq_nil_iff.mp hnil).2 (List.cons_ne_nil _ _)
          · exact hfull
        · cases hm
      refine triple_get_bind fun p => ?_
      refine Triple.bind (triple_assert (Q := fun _ s => Between msg core s ∧ s = p)
        (fun s hs _ => hs) fun s hs => ⟨hs.1.msg_eq, rfl⟩) fun _ => ?_
      rintro s ⟨hs, rfl⟩
      have hadd : (Target.request.headers s.msg).add s.state.headerField.bytes
          s.state.headerValue.bytes = .error .tooManyHeaders := by
        rw [hs.msg_eq]
        exact Headers.add_full hfull _ _
      rw [hadd]
      exact ⟨hs.msg_eq, fun h => absurd h (Option.some_ne_none _)⟩
  | method | version | urlComplete | statusComplete => cases hm

theorem runMarks_hidden {ms : List Mark} {t t' : Trailing} (hm : t.marks ms = some t')
    (hquiet : t'.fields = [] ∨ msg.headers.Full) (pos : ℕ) :
    Triple (Between msg core) (runEvents .request pos (ms.map .mark)) (fun _ => Between msg core)
      (Dies msg) := by
  induction ms generalizing t with
  | nil => exact triple_pure fun p hp => hp
  | cons m rest ih =>
      obtain ⟨t₁, hmark, hrest⟩ := Option.bind_eq_some_iff.mp hm
      have hquiet₁ : t₁.fields = [] ∨ msg.headers.Full := by
        refine hquiet.imp (fun hnil => ?_) id
        have hprefix := Trailing.marks_fields hrest
        rw [hnil] at hprefix
        exact List.prefix_nil.mp hprefix
      refine Triple.bind (onMark_hidden hmark hquiet₁ pos) fun _ => triple_get_bind fun q => ?_
      rintro s ⟨hs, rfl⟩
      by_cases herrno : s.errno = none
      · have hnot : ¬s.errno.isSome = true := by simp [herrno]
        rw [if_neg hnot]
        exact ih hrest s hs
      · have hsome : s.errno.isSome = true := Option.isSome_iff_ne_none.mpr herrno
        rw [if_pos hsome]
        exact ⟨hs.msg_eq, fun h => absurd h herrno⟩

theorem onByte_hidden {b : UInt8} {span : Option Span} {t t' : Trailing}
    (hbyte : t.byte b span = some t') (pos : ℕ) :
    Triple (Between msg core) (onByte .request pos b span) (fun _ => Between msg core)
      (Dies msg) := by
  have happend (target : Slice) : Triple (Between msg core)
      (appendSlice target pos [b] : Act (Parser L Request) Slice) (fun _ => Between msg core)
        (Dies msg) := by
    unfold appendSlice
    split
    · exact triple_pure fun p hp => hp
    · exact Triple.bind (triple_assert (Q := fun _ => Between msg core) (fun s hs _ => hs)
        fun s hs => ⟨hs.msg_eq, rfl⟩) fun _ => triple_pure fun p hp => hp
  cases span with
  | none => exact triple_pure fun p hp => hp
  | some span =>
      cases span with
      | url => cases hbyte
      | headerField =>
          refine triple_get_bind fun p => Triple.weaken (Triple.bind (happend _) fun slice => ?_)
            (fun s hs => hs.1) (fun _ _ h => h) fun _ _ h => h
          exact triple_modify fun s hs => ⟨hs.msg_eq, hs.goesOn⟩
      | headerValue =>
          refine triple_get_bind fun p => Triple.weaken (Triple.bind (happend _) fun slice => ?_)
            (fun s hs => hs.1) (fun _ _ h => h) fun _ _ h => h
          exact triple_modify fun s hs => ⟨hs.msg_eq, hs.goesOn⟩
      | body =>
          refine triple_modify fun p hp => ?_
          split
          · exact ⟨hp.msg_eq, hp.goesOn⟩
          · exact hp

/-- **One byte behind the header section.** -/
theorem eatByte_hidden (pos : ℕ) (b : UInt8) (rest : Bytes) :
    Triple (Holds msg (b :: rest)) (eatByte (L := L) .request pos b) (fun _ => Holds msg rest)
      (Dies msg) := by
  refine triple_get_bind fun p => ?_
  rintro s ⟨hs, rfl⟩
  by_cases herrno : s.errno = none
  · have hnot : ¬s.errno.isSome = true := by simp [herrno]
    obtain ⟨hpending, t, last, after, hdecode, hquiet⟩ := hs.goesOn herrno
    obtain ⟨t₁, t', hmarks, hbyte, hend⟩ := Llhttp.decodeTrailers_cons hdecode
    have hprefix : t₁.fields <+: last.fields := by
      rw [← Trailing.byte_fields hbyte]
      rcases hend with ⟨-, hrest⟩ | ⟨-, rfl, -⟩
      · exact Llhttp.decodeTrailers_fields hrest
      · exact List.prefix_rfl
    have hquiet₁ : t₁.fields = [] ∨ msg.headers.Full := by
      refine hquiet.imp (fun hnil => ?_) id
      rw [hnil] at hprefix
      exact List.prefix_nil.mp hprefix
    rw [if_neg hnot]
    refine Triple.bind (P := Between msg s.core) (runMarks_hidden hmarks hquiet₁ pos)
      (fun _ => triple_get_bind fun q => ?_) s ⟨hs.msg_eq, fun _ => ⟨hpending, rfl⟩⟩
    rintro r ⟨hr, rfl⟩
    by_cases hrerrno : r.errno = none
    · have hnot' : ¬r.errno.isSome = true := by simp [hrerrno]
      rw [if_neg hnot']
      refine Triple.bind (onByte_hidden hbyte pos) (fun _ => ?_) r hr
      refine Triple.bind (Q := fun _ => Between msg (L.step s.core b).next)
        (triple_modify fun u hu => ⟨hu.msg_eq, fun h => ⟨(hu.goesOn h).1, rfl⟩⟩) fun _ => ?_
      rcases hend with ⟨hafter, hrest⟩ | ⟨hafter, -, -⟩
      · rw [hafter]
        refine triple_pure fun u hu => ⟨hu.msg_eq, fun h => ?_⟩
        obtain ⟨hpending', hcore⟩ := hu.goesOn h
        exact ⟨hpending', hcore ▸ ⟨t', last, after, hrest, hquiet⟩⟩
      · rw [hafter]
        intro u hu
        exact Holds.stopped hu.msg_eq (Option.some_ne_none _)
    · have hsome : r.errno.isSome = true := Option.isSome_iff_ne_none.mpr hrerrno
      rw [if_pos hsome]
      exact Holds.stopped hr.msg_eq hrerrno
  · have hsome : s.errno.isSome = true := Option.isSome_iff_ne_none.mpr herrno
    rw [if_pos hsome]
    exact Holds.stopped hs.msg_eq herrno

theorem eat_hidden (pos : ℕ) (fed more : Bytes) :
    Triple (Holds msg (fed ++ more)) (eat (L := L) .request pos fed) (fun _ => Holds msg more)
      (Dies msg) := by
  induction fed generalizing pos with
  | nil => exact triple_pure fun p hp => hp
  | cons b rest ih => exact Triple.bind (eatByte_hidden pos b (rest ++ more)) fun _ => ih (pos + 1)

theorem restartSpan_same (p : Parser L Request) (pos : ℕ) :
    Triple (fun s => s = p) (restartSpan .request pos) (fun _ s => s = p)
      (fun f s => s = p ∧ f = .panic .assertion) := by
  refine triple_get_bind fun q => ?_
  split
  · exact triple_pure fun s hs => hs.1
  · refine Triple.bind (Q := fun _ s => s = p) ?_ fun _ => triple_pure fun s hs => hs
    unfold appendSlice
    split
    · exact triple_pure fun s hs => hs.1
    · exact Triple.bind (triple_assert (Q := fun _ s => s = p) (fun s hs _ => hs.1)
        fun s hs => ⟨hs.1, rfl⟩) fun _ => triple_pure fun s hs => hs

theorem execute_hidden (pos : ℕ) (fed more : Bytes) :
    Triple (Holds msg (fed ++ more)) (execute (L := L) .request pos fed) (fun _ => Holds msg more)
      (Dies msg) := by
  refine triple_get_bind fun p => ?_
  rintro s ⟨hs, rfl⟩
  by_cases herrno : s.errno = none
  · have hnot : ¬s.errno.isSome = true := by simp [herrno]
    have hcatch : catchUp .request pos s = .ok () s := by
      rw [catchUp, bind_ok (get_run s), bind_ok (modify_run ..), (hs.goesOn herrno).1]
      show EStateM.Result.ok () { s with pending := [] } = _
      rw [← (hs.goesOn herrno).1]
    rw [if_neg hnot]
    refine Triple.bind ((restartSpan_same s pos).weaken (fun _ h => h) (fun _ _ h => h)
      fun f r hr => ⟨hr.1 ▸ hs.msg_eq, hr.2⟩) (fun _ => ?_) s rfl
    rintro r rfl
    rw [bind_ok hcatch]
    exact eat_hidden pos fed more r hs
  · have hsome : s.errno.isSome = true := Option.isSome_iff_ne_none.mpr herrno
    rw [if_pos hsome]
    exact Holds.stopped hs.msg_eq herrno

/-- **Feeding the parser behind the header section.** -/
theorem feed_hidden (pos : ℕ) (fed more : Bytes) :
    Triple (Holds msg (fed ++ more)) (feed (L := L) .request pos fed)
      (fun paused p => Holds msg more p ∧ (paused = true → p.errno ≠ none))
      (fun f p => Dies msg f p ∨ p.msg = msg ∧ p.errno ≠ none) := by
  refine Triple.bind ((execute_hidden pos fed more).weaken (fun _ h => h) (fun _ _ h => h)
    fun _ _ h => .inl h) fun _ => triple_get_bind fun p => ?_
  rintro s ⟨hs, rfl⟩
  cases herrno : s.errno with
  | none => exact ⟨hs, fun h => nomatch h⟩
  | some halt =>
      have hne : s.errno ≠ none := by
        rw [herrno]
        exact Option.some_ne_none _
      cases halt with
      | paused => exact ⟨hs, fun _ => hne⟩
      | error e => exact .inr ⟨hs.msg_eq, hne⟩

theorem finish_hidden (rest : Bytes) :
    Triple (Holds msg rest) (finish : Act (Parser L Request) Unit) (fun _ => Holds msg rest)
      (fun _ => Holds msg rest) := by
  refine triple_get_bind fun p => Triple.weaken (P := Holds msg rest) ?_ (fun _ h => h.1)
    (fun _ _ h => h) fun _ _ h => h
  split
  · exact triple_pure fun _ h => h
  · split
    · exact triple_pure fun _ h => h
    · exact triple_modify fun _ h => ⟨h.msg_eq, h.goesOn⟩
    · exact triple_fail fun _ h => h

end hidden

end Parser

namespace Inbound

open Dusty.Parser

variable {L : Llhttp} {msg : Request}

/-- The request of the connection is `msg` and stays so. -/
def Keeping (msg : Request) (s : Inbound L Request) : Prop := Holds msg s.incoming s.parser

/-- The request stays as it is, whatever the outcome. -/
def Hides {α : Type} (msg : Request) (x : Act (Inbound L Request) α) : Prop :=
  Triple (Keeping msg) x (fun _ => Keeping msg)
    (fun f s => Keeping msg s ∨ s.parser.msg = msg ∧ f = .panic .assertion)

section hides
variable {α β : Type}

theorem Hides.bind {x : Act (Inbound L Request) α} {f : α → Act (Inbound L Request) β}
    (hx : Hides msg x) (hf : ∀ a, Hides msg (f a)) : Hides msg (x >>= f) :=
  Triple.bind hx hf

theorem hides_pure (a : α) : Hides msg (pure a : Act (Inbound L Request) α) := fun _ h => h

theorem hides_get : Hides msg (get : Act (Inbound L Request) (Inbound L Request)) := fun _ h => h

theorem hides_fail (e : Error) : Hides msg (fail e : Act (Inbound L Request) α) :=
  fun _ h => .inl h

theorem hides_die (p : Panic) : Hides msg (die p : Act (Inbound L Request) α) :=
  fun _ h => .inl h

theorem Hides.attempt {x : Act (Inbound L Request) α} (hx : Hides msg x) :
    Hides msg (attempt x) := by
  intro s hs
  unfold Act.attempt
  cases hrun : x s with
  | ok a s' => exact Triple.ok hx hs hrun
  | error f s' =>
      have herr := Triple.error hx hs hrun
      cases f with
      | panic p => exact herr
      | err e =>
          rcases herr with h | ⟨-, h⟩
          · exact h
          · cases h

theorem Hides.when {x : Act (Inbound L Request) Unit} (hx : Hides msg x) (b : Bool) :
    Hides msg (when b x) := by
  cases b
  · exact hides_pure ()
  · exact hx

theorem fillMore_hides : Hides msg (fillMore : Act (Inbound L Request) Unit) := by
  intro s hs
  have hrebase : s.reader.rebase.data = s.reader.data := by
    unfold Reader.rebase
    split
    · rfl
    · rfl
  have hawaits : Keeping msg s.awaits := by
    unfold Keeping incoming
    show Holds msg (s.reader.rebase.data ++ _) s.parser
    rw [hrebase]
    exact hs
  rw [fillMore, bind_ok (get_run s)]
  by_cases hfull : s.reader.cap ≤ s.reader.data.length
  · rw [if_pos hfull]
    exact .inl hs
  · rw [if_neg hfull, bind_ok (modify_run ..)]
    cases hnet : s.net.chunks with
    | cons chunk rest =>
        show Holds msg (receive chunk rest s.awaits).incoming s.parser
        unfold incoming
        rw [receive_stream (show s.awaits.net.chunks = chunk :: rest from hnet)]
        exact hawaits
    | nil =>
        cases s.net.failure with
        | none => exact .inl hawaits
        | some e => exact .inl hawaits

theorem endOfBody_hides : Hides msg (endOfBody : Act (Inbound L Request) Unit) := by
  have hfinish : Hides msg (onParser finish : Act (Inbound L Request) Unit) := by
    intro s hs
    rw [onParser_run]
    cases hrun : finish s.parser with
    | ok u p => exact Triple.ok (finish_hidden s.incoming) hs hrun
    | error f p => exact .inl (Triple.error (finish_hidden s.incoming) hs hrun)
  refine Hides.bind hfinish.attempt fun r => ?_
  cases r with
  | error e => exact hides_fail _
  | ok u =>
      refine Hides.bind hides_get fun self => ?_
      split
      · exact hides_fail _
      · exact hides_fail _

theorem fillBody_hides : Hides msg (fillBody : Act (Inbound L Request) Unit) := by
  refine Hides.bind hides_get fun self => Hides.when ?_ _
  refine Hides.bind fillMore_hides.attempt fun r => ?_
  cases r with
  | ok u => exact hides_pure _
  | error e => cases e <;> first | exact endOfBody_hides | exact hides_fail _

theorem toss_stopped (n : ℕ) :
    Triple (fun s : Inbound L Request => s.parser.msg = msg ∧ s.parser.errno ≠ none) (toss n)
      (fun _ => Keeping msg) (fun f s => Keeping msg s ∨ s.parser.msg = msg ∧ f = .panic .assertion) := by
  rintro s ⟨hmsg, herrno⟩
  rw [toss, bind_ok (get_run s)]
  by_cases hn : n ≤ s.reader.data.length
  · rw [dif_pos hn]
    exact Holds.stopped hmsg herrno
  · rw [dif_neg hn]
    exact .inr ⟨hmsg, rfl⟩

theorem feedBody_hides (n : ℕ) : Hides msg (feedBody .request n : Act (Inbound L Request) Unit) := by
  intro s hs
  rw [feedBody, bind_ok (get_run s)]
  have hsplit : s.incoming = s.reader.data.take n ++
      (s.reader.data.drop n ++ s.net.chunks.flatten) := by
    rw [← List.append_assoc, List.take_append_drop, incoming]
  have hs' := hs
  unfold Keeping at hs'
  rw [hsplit] at hs'
  cases hrun : feed .request s.reader.pos (s.reader.data.take n) s.parser with
  | ok paused q =>
      have hfeed : attempt (onParser (feed .request s.reader.pos (s.reader.data.take n))) s =
          .ok (.ok paused) (s.setParser q) := by
        rw [attempt, onParser_run, hrun]
      obtain ⟨hq, hpaused⟩ := Triple.ok (feed_hidden _ _ _) hs' hrun
      rw [bind_ok hfeed]
      cases paused with
      | false =>
          dsimp only
          rw [toss, bind_ok (get_run _)]
          by_cases hn : n ≤ (s.setParser q).reader.data.length
          · rw [dif_pos hn]
            exact hq
          · rw [dif_neg hn]
            exact .inr ⟨hq.msg_eq, rfl⟩
      | true =>
          dsimp only
          rw [bind_ok (get_run _)]
          exact toss_stopped _ (s.setParser q) ⟨hq.msg_eq, hpaused rfl⟩
  | error f q =>
      rcases Triple.error (feed_hidden _ _ _) hs' hrun with ⟨hmsg, rfl⟩ | ⟨hmsg, herrno⟩
      · have hfeed : attempt (onParser (feed .request s.reader.pos (s.reader.data.take n))) s =
            .error (.panic .assertion) (s.setParser q) := by
          rw [attempt, onParser_run, hrun]
        rw [bind_error hfeed]
        exact .inr ⟨hmsg, rfl⟩
      · cases f with
        | panic p =>
            have hfeed : attempt (onParser (feed .request s.reader.pos (s.reader.data.take n))) s =
                .error (.panic p) (s.setParser q) := by
              rw [attempt, onParser_run, hrun]
            rw [bind_error hfeed]
            exact .inl (Holds.stopped hmsg herrno)
        | err e =>
            have hfeed : attempt (onParser (feed .request s.reader.pos (s.reader.data.take n))) s =
                .ok (.error e) (s.setParser q) := by
              rw [attempt, onParser_run, hrun]
            rw [bind_ok hfeed]
            exact .inl (Holds.stopped hmsg herrno)

theorem streamLoop_hides (dest fuel : ℕ) :
    Hides msg (streamLoop .request dest fuel : Act (Inbound L Request) Bytes) := by
  induction fuel with
  | zero => exact hides_die _
  | succ fuel ih =>
      refine Hides.bind hides_get fun self => ?_
      split
      · exact hides_pure _
      split
      · exact hides_fail _
      · refine Hides.bind fillBody_hides fun _ => Hides.bind hides_get fun self => ?_
        split
        · exact hides_pure _
        · exact Hides.bind (feedBody_hides _) fun _ => ih

/-- **One call of `stream`.** -/
theorem stream_hides (dest : ℕ) :
    Hides msg (stream .request dest : Act (Inbound L Request) Bytes) := by
  unfold stream
  split
  · exact hides_pure _
  · refine Hides.bind hides_get fun self => ?_
    split
    · exact hides_fail _
    · refine Hides.bind (fun s hs => ?_) fun _ => Hides.bind hides_get fun self => streamLoop_hides _ _
      exact ⟨hs.msg_eq, hs.goesOn⟩

/-- **Any number of calls.** -/
theorem readBody_hides (dests : List ℕ) :
    Hides msg (readBody .request dests : Act (Inbound L Request) _) := by
  induction dests with
  | nil => exact hides_pure _
  | cons dest rest ih =>
      exact Hides.bind (stream_hides dest).attempt fun _ => Hides.bind ih fun _ => hides_pure _

end hides

end Inbound

/-! ### A request that gets fields of the trailer -/

namespace Headers

/-- The slots with fields behind them. -/
def withFields (self : Headers) (fields : List (Bytes × Bytes)) : List HeaderEntry :=
  self.entries ++ fields.map fun field => .make field.1 field.2

theorem withFields_take {self : Headers} {fields all : List (Bytes × Bytes)} {cap : ℕ}
    (h : fields <+: all) (hlen : (self.withFields fields).length = cap) :
    (self.withFields all).take cap = self.withFields fields := by
  obtain ⟨rest, rfl⟩ := h
  rw [← hlen]
  unfold withFields
  rw [List.map_append, ← List.append_assoc, List.take_left]

end Headers

namespace Parser

variable {L : Llhttp}

/-- The parser has stored what was reported, and the complete fields are headers. -/
structure Tracks (headers : Headers) (t : Trailing) (pos : ℕ) (core : L.State)
    (p : Parser L Request) : Prop where
  errno : p.errno = none
  pending : p.pending = []
  core_eq : p.core = core
  hasField : p.state.hasHeaderField = t.hasField
  field : p.state.headerField.bytes = t.field
  fieldEnds : t.last = some .headerField → EndsAt pos p.state.headerField
  value : p.state.headerValue.bytes = t.value
  valueEnds : t.last = some .headerValue → EndsAt pos p.state.headerValue
  cap : p.msg.headers.cap = headers.cap
  entries : p.msg.headers.entries = headers.withFields t.fields

/-- The parser has stopped at a field there was no slot for. -/
structure Overflows (headers : Headers) (fields : List (Bytes × Bytes)) (p : Parser L Request) :
    Prop where
  errno : p.errno = some (.error .cbHeaderValueComplete)
  entries : p.msg.headers.entries = headers.withFields fields
  full : (headers.withFields fields).length = headers.cap

section shown
variable {headers : Headers} {t t' : Trailing} {pos : ℕ} {core : L.State} {p : Parser L Request}

theorem onHeaderValueComplete_added {headers' : Headers} (hassert : p.state.hasHeaderField = true)
    (hadd : p.msg.headers.add p.state.headerField.bytes p.state.headerValue.bytes = .ok headers') :
    onHeaderValueComplete .request pos p =
      .ok () ((p.setMsg (Target.request.setHeaders headers' p.msg)).setState { p.state with
        headerValue := ⟨0, []⟩, headerField := ⟨0, []⟩, hasHeaderField := false }) := by
  rw [onHeaderValueComplete, bind_ok (get_run p), bind_ok (assert_true hassert p)]
  rw [show (Target.request.headers p.msg).add p.state.headerField.bytes p.state.headerValue.bytes =
    .ok headers' from hadd]
  rfl

theorem onHeaderValueComplete_full {e : Error} (hassert : p.state.hasHeaderField = true)
    (hadd : p.msg.headers.add p.state.headerField.bytes p.state.headerValue.bytes = .error e) :
    onHeaderValueComplete .request pos p = .ok () (p.stop (.error .cbHeaderValueComplete) pos) := by
  rw [onHeaderValueComplete, bind_ok (get_run p), bind_ok (assert_true hassert p)]
  rw [show (Target.request.headers p.msg).add p.state.headerField.bytes p.state.headerValue.bytes =
    .error e from hadd]
  rfl

theorem onMark_tracks (h : Tracks headers t pos core p) {m : Mark} (hm : t.mark m = some t') :
    ∃ q, onMark .request pos m p = .ok () q ∧
      (Tracks headers t' pos core q ∨ Overflows headers t.fields q) := by
  cases m with
  | headerFieldComplete =>
      rw [Trailing.mark] at hm
      split at hm
      · cases hm
      · next hne =>
          cases hm
          have hpos : decide (p.state.headerField.bytes.length > 0) = true := by
            rw [h.field]
            simpa using List.length_pos_iff.mpr hne
          refine ⟨p.setState { p.state with hasHeaderField := true }, ?_, .inl ⟨h.errno, h.pending,
            h.core_eq, rfl, h.field, h.fieldEnds, h.value, h.valueEnds, h.cap, h.entries⟩⟩
          show onHeaderFieldComplete p = _
          rw [onHeaderFieldComplete, bind_ok (get_run p), bind_ok (assert_true hpos p)]
          rfl
  | headerValueComplete =>
      rw [Trailing.mark] at hm
      split at hm
      · next hhas =>
          cases hm
          have hassert : p.state.hasHeaderField = true := h.hasField.trans hhas
          by_cases hlt : p.msg.headers.entries.length < p.msg.headers.cap
          · refine ⟨_, onHeaderValueComplete_added hassert (dif_pos hlt), .inl ⟨h.errno, h.pending, h.core_eq, rfl, rfl, fun _ => .inl rfl, rfl,
              fun _ => .inl rfl, h.cap, ?_⟩⟩
            show p.msg.headers.entries ++ [.make p.state.headerField.bytes p.state.headerValue.bytes] = _
            rw [h.entries, h.field, h.value, Headers.withFields, Headers.withFields, List.map_append,
              List.append_assoc]
            rfl
          · refine ⟨_, onHeaderValueComplete_full hassert (dif_neg hlt), .inr ⟨rfl, h.entries, ?_⟩⟩
            have hfits := p.msg.headers.fits
            rw [← h.entries, ← h.cap]
            omega
      · cases hm
  | method | version | urlComplete | statusComplete => cases hm

theorem runMarks_tracks {ms : List Mark} (h : Tracks headers t pos core p)
    (hm : t.marks ms = some t') :
    ∃ q, runEvents .request pos (ms.map .mark) p = .ok () q ∧
      (Tracks headers t' pos core q ∨ ∃ fields, fields <+: t'.fields ∧ Overflows headers fields q) := by
  induction ms generalizing t p with
  | nil =>
      cases hm
      exact ⟨p, rfl, .inl h⟩
  | cons m rest ih =>
      obtain ⟨t₁, hmark, hrest⟩ := Option.bind_eq_some_iff.mp hm
      obtain ⟨q, hq, hnext⟩ := onMark_tracks h hmark
      have hrun : runEvents .request pos ((m :: rest).map .mark) p =
          (if q.errno.isSome then modify fun self => { self with pending := rest.map .mark }
            else runEvents .request pos (rest.map .mark) : Act (Parser L Request) Unit) q := by
        rw [List.map_cons, runEvents]
        show (onMark .request pos m >>= _) p = _
        rw [bind_ok hq, bind_ok (get_run q)]
      rw [hrun]
      rcases hnext with htracks | hover
      · have hnot : ¬q.errno.isSome = true := by simp [htracks.errno]
        rw [if_neg hnot]
        exact ih htracks hrest
      · have hsome : q.errno.isSome = true := by simp [hover.errno]
        rw [if_pos hsome]
        refine ⟨_, rfl, .inr ⟨t.fields, ?_, hover.errno, hover.entries, hover.full⟩⟩
        exact (Trailing.mark_fields hmark).trans (Trailing.marks_fields hrest)

theorem appendSlice_ends {σ : Type} {target : Slice} (h : EndsAt pos target) (b : UInt8) (s : σ) :
    ∃ slice, (appendSlice target pos [b] : Act σ Slice) s = .ok slice s ∧
      slice.bytes = target.bytes ++ [b] ∧ EndsAt (pos + 1) slice := by
  unfold appendSlice
  by_cases hlen : target.bytes.length = 0
  · rw [if_pos hlen]
    refine ⟨_, rfl, ?_, .inr rfl⟩
    rw [List.length_eq_zero_iff.mp hlen, List.nil_append]
  · rw [if_neg hlen]
    have hend : target.ptr + target.bytes.length = pos := by
      rcases h with hzero | hend
      · exact absurd hzero hlen
      · exact hend
    refine ⟨⟨target.ptr, target.bytes ++ [b]⟩, ?_, rfl, .inr ?_⟩
    · rw [bind_ok (assert_true (by simpa using hend) s)]
      rfl
    · show target.ptr + (target.bytes ++ [b]).length = pos + 1
      rw [List.length_append, List.length_singleton]
      omega

theorem onByte_tracks (h : Tracks headers t pos core p) {b : UInt8} {span : Option Span}
    (hbyte : t.byte b span = some t') :
    ∃ q, onByte .request pos b span p = .ok () q ∧ Tracks headers t' (pos + 1) core q := by
  cases span with
  | none =>
      cases hbyte
      exact ⟨p, rfl, h.errno, h.pending, h.core_eq, h.hasField, h.field, nofun, h.value, nofun,
        h.cap, h.entries⟩
  | some span =>
      cases span with
      | url => cases hbyte
      | body =>
          cases hbyte
          refine ⟨_, rfl, ?_⟩
          dsimp only
          split
          · exact ⟨h.errno, h.pending, h.core_eq, h.hasField, h.field, nofun, h.value, nofun, h.cap,
              h.entries⟩
          · exact ⟨h.errno, h.pending, h.core_eq, h.hasField, h.field, nofun, h.value, nofun, h.cap,
              h.entries⟩
      | headerField =>
          rw [Trailing.byte] at hbyte
          split at hbyte
          · next hopen =>
              cases hbyte
              have hends : EndsAt pos p.state.headerField := by
                rcases hopen with hnil | hlast
                · exact .inl (by rw [h.field, hnil, List.length_nil])
                · exact h.fieldEnds hlast
              obtain ⟨slice, hrun, hbytes, hnext⟩ := appendSlice_ends hends b p
              refine ⟨p.setState { p.state with headerField := slice }, ?_, h.errno, h.pending,
                h.core_eq, h.hasField, ?_, fun _ => hnext, h.value, nofun, h.cap, h.entries⟩
              · show onSpanByte .request pos b .headerField p = _
                rw [onSpanByte, bind_ok (get_run p), bind_ok hrun]
                rfl
              · show slice.bytes = _
                rw [hbytes, h.field]
          · cases hbyte
      | headerValue =>
          rw [Trailing.byte] at hbyte
          split at hbyte
          · next hopen =>
              cases hbyte
              have hends : EndsAt pos p.state.headerValue := by
                rcases hopen with hnil | hlast
                · exact .inl (by rw [h.value, hnil, List.length_nil])
                · exact h.valueEnds hlast
              obtain ⟨slice, hrun, hbytes, hnext⟩ := appendSlice_ends hends b p
              refine ⟨p.setState { p.state with headerValue := slice }, ?_, h.errno, h.pending,
                h.core_eq, h.hasField, h.field, nofun, ?_, fun _ => hnext, h.cap, h.entries⟩
              · show onSpanByte .request pos b .headerValue p = _
                rw [onSpanByte, bind_ok (get_run p), bind_ok hrun]
                rfl
              · show slice.bytes = _
                rw [hbytes, h.value]
          · cases hbyte

/-- The message is over, or there was no slot for a field of its trailer: as many fields as there
were slots for are headers. -/
structure Shows (headers : Headers) (fields : List (Bytes × Bytes)) (stop : ℕ)
    (p : Parser L Request) : Prop where
  errno : p.errno ≠ none
  paused : p.errno = some .paused → p.errorPos ≤ stop ∧ p.state.messageComplete = true
  entries : p.msg.headers.entries = (headers.withFields fields).take headers.cap

theorem Overflows.shows {fields all : List (Bytes × Bytes)} (h : Overflows headers fields p)
    (hfields : fields <+: all) (stop : ℕ) : Shows headers all stop p := by
  refine ⟨?_, ?_, ?_⟩
  · rw [h.errno]
    exact Option.some_ne_none _
  · rw [h.errno]
    exact nofun
  · rw [h.entries, Headers.withFields_take hfields h.full]

/-- **A whole trailer section in one piece.** -/
theorem eat_shows {bytes after : Bytes} {last : Trailing} (h : Tracks headers t pos core p)
    (hdecode : L.decodeTrailers core t bytes = some (last, after)) :
    ∃ q, eat .request pos bytes p = .ok () q ∧ Shows headers last.fields (pos + bytes.length) q := by
  induction bytes generalizing pos core t p with
  | nil => cases hdecode
  | cons b rest ih =>
      obtain ⟨t₁, t', hmarks, hbyte, hend⟩ := Llhttp.decodeTrailers_cons hdecode
      have hprefix : t₁.fields <+: last.fields := by
        rw [← Trailing.byte_fields hbyte]
        rcases hend with ⟨-, hrest⟩ | ⟨-, rfl, -⟩
        · exact Llhttp.decodeTrailers_fields hrest
        · exact List.prefix_rfl
      have hnot : ¬p.errno.isSome = true := by simp [h.errno]
      obtain ⟨q, hq, htracks | ⟨fields, hfields, hover⟩⟩ := runMarks_tracks h hmarks
      · have hqnot : ¬q.errno.isSome = true := by simp [htracks.errno]
        obtain ⟨r, hr, hstored⟩ := onByte_tracks htracks hbyte
        let r' := r.enter (L.step core b).next
          (if (L.step core b).closes then none else (L.step core b).span)
        have hentered : Tracks headers t' (pos + 1) (L.step core b).next r' :=
          ⟨hstored.errno, hstored.pending, rfl, hstored.hasField, hstored.field, hstored.fieldEnds,
            hstored.value, hstored.valueEnds, hstored.cap, hstored.entries⟩
        have heat : eatByte .request pos b p = runEvents .request (pos + 1) (L.step core b).after r' := by
          rw [eatByte, bind_ok (get_run p), if_neg hnot]
          simp only [h.core_eq]
          rw [bind_ok hq, bind_ok (get_run q), if_neg hqnot, bind_ok hr, bind_ok (modify_run ..)]
        rw [List.length_cons, show pos + (rest.length + 1) = pos + 1 + rest.length by omega]
        rcases hend with ⟨hafter, hrest⟩ | ⟨hafter, rfl, -⟩
        · rw [hafter] at heat
          have hnone : runEvents .request (pos + 1) [] r' = .ok () r' := rfl
          obtain ⟨u, hu, hshows⟩ := ih hentered hrest
          exact ⟨u, by rw [eat, bind_ok (heat.trans hnone), hu], hshows⟩
        · rw [hafter] at heat
          let u : Parser L Request :=
            { r'.onMessageComplete.stop .paused (pos + 1) with pending := [] }
          have hstop : runEvents .request (pos + 1) [.messageComplete] r' = .ok () u := rfl
          refine ⟨u, ?_, Option.some_ne_none Halt.paused, fun _ => ⟨?_, rfl⟩, ?_⟩
          · rw [eat, bind_ok (heat.trans hstop), eat_stopped _ (Option.some_ne_none _)]
          · show pos + 1 ≤ _
            omega
          · show r'.msg.headers.entries = _
            have hfits := r'.msg.headers.fits
            rw [hentered.cap] at hfits
            rw [hentered.entries] at hfits ⊢
            rw [List.take_of_length_le hfits]
      · have hqsome : q.errno.isSome = true := by simp [hover.errno]
        have hqne : q.errno ≠ none := Option.isSome_iff_ne_none.mp hqsome
        have heat : eatByte .request pos b p = .ok () q := by
          rw [eatByte, bind_ok (get_run p), if_neg hnot]
          simp only [h.core_eq]
          rw [bind_ok hq, bind_ok (get_run q), if_pos hqsome]
          rfl
        refine ⟨q, ?_, hover.shows (hfields.trans hprefix) _⟩
        rw [eat, bind_ok heat, eat_stopped _ hqne]

/-- Nothing of a field is stored. -/
structure Clean (p : Parser L Request) : Prop where
  field : p.state.headerField.bytes = []
  value : p.state.headerValue.bytes = []
  hasField : p.state.hasHeaderField = false

theorem tracks_start (h : InBody core p) (hclean : Clean p) (pos : ℕ) :
    Tracks p.msg.headers {} pos core p := by
  refine ⟨h.errno, h.pending, h.core, hclean.hasField, hclean.field, nofun, hclean.value, nofun,
    rfl, ?_⟩
  rw [Headers.withFields, List.map_nil, List.append_nil]

end shown

end Parser

namespace Inbound

open Dusty.Parser

variable {L : Llhttp}

/-! ### The head of a request -/

section heads
variable {core : L.State} {s : Inbound L Request} {bytes after : Bytes} {last : Trailing}

theorem feedBody_shows (h : InBody core s.parser) (hclean : Clean s.parser)
    (hdata : s.reader.data = bytes) (hdecode : L.decodeTrailers core {} bytes = some (last, after)) :
    ∃ s', s'.parser.msg.headers.entries =
        (s.parser.msg.headers.withFields last.fields).take s.parser.msg.headers.cap ∧
      (feedBody .request bytes.length s = .ok () s' ∧ s'.parser.isBodyComplete = true ∨
        feedBody .request bytes.length s = .error (.err .readFailed) s') := by
  obtain ⟨q, hq, hshows⟩ := eat_shows (tracks_start h hclean s.reader.pos) hdecode
  have htake : s.reader.data.take bytes.length = bytes := by rw [hdata, List.take_length]
  have hexecute : execute .request s.reader.pos bytes s.parser = .ok () q := by
    rw [execute_inBody _ h, hq]
  cases herrno : q.errno with
  | none => exact absurd herrno hshows.errno
  | some halt =>
      cases halt with
      | paused =>
          obtain ⟨hstop, hcomplete⟩ := hshows.paused herrno
          have hfeed : attempt (onParser (feed .request s.reader.pos bytes)) s =
              .ok (.ok true) (s.setParser q) := by
            rw [attempt, onParser_run, feed, bind_ok hexecute, bind_ok (get_run q), herrno]
            rfl
          have hle : q.getConsumedBytes s.reader.pos ≤ (s.setParser q).reader.data.length := by
            show q.errorPos - s.reader.pos ≤ s.reader.data.length
            rw [hdata]
            omega
          refine ⟨(s.setParser q).setReader ((s.setParser q).reader.advance _ hle), hshows.entries,
            .inl ⟨?_, hcomplete⟩⟩
          rw [feedBody, bind_ok (get_run s), htake, bind_ok hfeed]
          dsimp only
          rw [bind_ok (get_run _)]
          exact toss_run hle
      | error e =>
          have hfeed : attempt (onParser (feed .request s.reader.pos bytes)) s =
              .ok (.error (mapError e)) (s.setParser q) := by
            rw [attempt, onParser_run, feed, bind_ok hexecute, bind_ok (get_run q), herrno]
            rfl
          refine ⟨s.setParser q, hshows.entries, .inr ?_⟩
          rw [feedBody, bind_ok (get_run s), htake, bind_ok hfeed]
          rfl

/-- A read into a destination that has room for the rest of the message. -/
theorem readBody_shows (h : InBody core s.parser) (hclean : Clean s.parser)
    (hdata : s.reader.data = bytes) (hdecode : L.decodeTrailers core {} bytes = some (last, after)) :
    ∃ results s', readBody .request [bytes.length] s = .ok results s' ∧
      s'.parser.msg.headers.entries =
        (s.parser.msg.headers.withFields last.fields).take s.parser.msg.headers.cap := by
  have hpos : 0 < bytes.length := by
    cases bytes with
    | nil => cases hdecode
    | cons b rest => exact Nat.succ_pos _
  let s₁ := s.setParser (s.parser.prepareBodyRead bytes.length)
  have hnot : ¬s.parser.isBodyComplete = true := by
    rw [isBodyComplete, h.complete]
    exact Bool.false_ne_true
  have hnot₁ : ¬s₁.parser.isBodyComplete = true := hnot
  have hempty : ¬s₁.parser.state.body.length > 0 := Nat.lt_irrefl 0
  have hfill : fillBody s₁ = .ok () s₁ := by
    have hfalse : (s₁.reader.bufferedLen == 0) = false := by
      show (s.reader.data.length == 0) = false
      rw [hdata]
      simp only [beq_eq_false_iff_ne]
      omega
    rw [fillBody, bind_ok (get_run s₁), hfalse]
    rfl
  have hsome : ¬s₁.reader.data.length = 0 := by
    show ¬s.reader.data.length = 0
    rw [hdata]
    omega
  have hall : min s₁.reader.data.length (bytes.length - s₁.parser.state.body.length) = bytes.length := by
    show min s.reader.data.length (bytes.length - 0) = bytes.length
    rw [hdata, Nat.sub_zero, Nat.min_self]
  have hin : InBody core s₁.parser := ⟨h.errno, h.pending, h.core, h.span, h.complete⟩
  obtain ⟨s₂, hentries, hfeed⟩ := feedBody_shows (s := s₁) hin
    ⟨hclean.field, hclean.value, hclean.hasField⟩ hdata hdecode
  have hloop (fuel : ℕ) : streamLoop .request bytes.length (fuel + 1) s₁ =
      (feedBody .request bytes.length >>= fun _ => streamLoop .request bytes.length fuel) s₁ := by
    rw [streamLoop, bind_ok (get_run s₁), if_neg hempty, if_neg hnot₁, bind_ok hfill,
      bind_ok (get_run s₁), if_neg hsome, hall]
  have hstream : ∃ result, attempt (stream .request bytes.length) s = .ok result s₂ := by
    have hrun : stream .request bytes.length s =
        (feedBody .request bytes.length >>= fun _ => streamLoop .request bytes.length
          (s.net.weight + s.reader.data.length + 1)) s₁ := by
      rw [stream, if_neg (by omega), bind_ok (get_run s), if_neg hnot, bind_ok (modify_run ..),
        bind_ok (get_run _)]
      exact hloop _
    rcases hfeed with ⟨hfeed, hcomplete⟩ | hfeed
    · rw [bind_ok hfeed, streamLoop, bind_ok (get_run s₂)] at hrun
      by_cases hbody : s₂.parser.state.body.length > 0
      · rw [if_pos hbody] at hrun
        exact ⟨_, attempt_ok hrun⟩
      · rw [if_neg hbody, if_pos hcomplete] at hrun
        exact ⟨_, attempt_error hrun⟩
    · rw [bind_error hfeed] at hrun
      exact ⟨_, attempt_error hrun⟩
  obtain ⟨result, hresult⟩ := hstream
  refine ⟨[result], s₂, ?_, hentries⟩
  rw [readBody, bind_ok hresult]
  rfl

/-- The part of a request that `parseHeaders` has filled. -/
structure SameHead (req req' : Request) : Prop where
  method : req'.method = req.method
  url : req'.url = req.url
  headers : req'.headers.entries.map (fun e => (e.key, e.value)) =
    req.headers.entries.map fun e => (e.key, e.value)

/-- The fields behind the body of the message that a parser is in, given its bytes. -/
inductive Trails (p : Parser L Request) (bytes : Bytes) : List (Bytes × Bytes) → Prop where
  | body {core : L.State} {last : Trailing} {after : Bytes} : InBody core p → Clean p →
      L.decodeTrailers core {} bytes = some (last, after) → Trails p bytes last.fields
  | none : p.isBodyComplete = true → Trails p bytes []

/-- **When the head of a request stays as it is.**  A parser is behind the header section of a
request, and the rest of the message is to come.  However it is cut into reads and however large
the destinations are, reading the body leaves the method, the URL and the headers alone, if and
only if no field follows the body or the table of headers has no slot left. -/
theorem readBody_head_iff {p : Parser L Request} {fields : List (Bytes × Bytes)}
    (h : Trails p bytes fields) :
    (∀ s : Inbound L Request, s.parser = p → s.incoming = bytes → ∀ dests results s',
      readBody .request dests s = .ok results s' → SameHead p.msg s'.parser.msg) ↔
        fields = [] ∨ p.msg.headers.Full := by
  cases h with
  | none hcomplete =>
      refine ⟨fun _ => .inl rfl, fun _ s hparser hincoming dests results s' hrun => ?_⟩
      obtain ⟨results', hidle⟩ :=
        readBody_idle .request (s := s) dests (.inl (by rw [hparser]; exact hcomplete))
      rw [hidle] at hrun
      cases hrun
      rw [hparser]
      exact ⟨rfl, rfl, rfl⟩
  | body hin hclean hdecode =>
      rename_i core last after
      constructor
      · intro hsame
        let s : Inbound L Request :=
          { parser := p
            reader := { cap := bytes.length, data := bytes, fits := by omega } }
        obtain ⟨results, s', hrun, hentries⟩ := readBody_shows (s := s) hin hclean rfl hdecode
        have hheaders := (hsame s rfl (List.append_nil _) [bytes.length] results s' hrun).headers
        have hlen := congrArg List.length hheaders
        rw [List.length_map, List.length_map, hentries, List.length_take, Headers.withFields,
          List.length_append, List.length_map] at hlen
        by_cases hfull : p.msg.headers.Full
        · exact .inr hfull
        · have hnone : last.fields.length = 0 := by
            have hroom : s.parser.msg.headers.entries.length < s.parser.msg.headers.cap :=
              Nat.lt_of_not_le hfull
            have hp : s.parser.msg.headers.entries.length = p.msg.headers.entries.length := rfl
            omega
          exact .inl (List.length_eq_zero_iff.mp hnone)
      · intro hquiet s hparser hincoming dests results s' hrun
        have hkeeping : Keeping p.msg s := by
          refine ⟨by rw [hparser], fun _ => ?_⟩
          rw [hparser, hincoming, hin.core]
          exact ⟨hin.pending, {}, last, after, hdecode, hquiet⟩
        have hmsg : s'.parser.msg = p.msg := (Triple.ok (readBody_hides dests) hkeeping hrun).msg_eq
        rw [hmsg]
        exact ⟨rfl, rfl, rfl⟩

end heads

theorem clean_of_decide {p : Parser (Http1.llhttp false) Request}
    (h : p.state.headerField.bytes = [] ∧ p.state.headerValue.bytes = [] ∧
      p.state.hasHeaderField = false) : Clean p :=
  ⟨h.1, h.2.1, h.2.2⟩

/-- A chunked body without a trailer section: its request keeps its headers. -/
theorem readBody_head_iff_sample : ∃ results s',
    readBody .request [9, 9] chunkedSample = .ok results s' ∧
      SameHead chunkedSample.parser.msg s'.parser.msg := by
  have htrails : Trails chunkedSample.parser chunkedSample.incoming [] :=
    .body (inBody_of_decide (by decide +kernel)) (clean_of_decide (by decide +kernel))
      (show Llhttp.decodeTrailers _ _ {} _ = some (({} : Trailing), ascii "GET") by decide +kernel)
  obtain ⟨results, s', hrun⟩ : ∃ results s', readBody .request [9, 9] chunkedSample = .ok results s' :=
    returns_iff.mp (by decide +kernel)
  exact ⟨results, s', hrun, (readBody_head_iff htrails).mpr (.inl rfl) _ rfl rfl _ _ _ hrun⟩

/-- A message whose trailer section has a cookie. -/
def cookieSample : Inbound (Http1.llhttp false) Request :=
  afterHead 128 [ascii "PUT / HTTP/1.1\r\nTransfer-Encoding: chunked\r\n\r\n",
    ascii "1\r\na\r\n0\r\nCookie: id=7\r\n\r\n"]

/-- A cookie behind the body is a header once the body has been read. -/
theorem readBody_head_trailer :
    Trails cookieSample.parser cookieSample.incoming [(ascii "Cookie", ascii "id=7")] ∧
      cookieSample.parser.msg.headers.get (ascii "Cookie") = none ∧
      ∃ s', readBody .request [9, 9] cookieSample = .ok [.ok (ascii "a"), .error .endOfStream] s' ∧
        s'.parser.msg.headers.get (ascii "Cookie") = some (ascii "id=7") ∧
        ¬SameHead cookieSample.parser.msg s'.parser.msg := by
  obtain ⟨s', hrun⟩ : ∃ s', readBody .request [9, 9] cookieSample =
      .ok [.ok (ascii "a"), .error .endOfStream] s' := gives_iff.mp (by decide +kernel)
  have hfinal : Act.final (readBody .request [9, 9]) cookieSample = s' := final_of_ok hrun
  have hafter : (Act.final (readBody .request [9, 9]) cookieSample).parser.msg.headers.get
      (ascii "Cookie") = some (ascii "id=7") := by decide +kernel
  have hcount : (Act.final (readBody .request [9, 9]) cookieSample).parser.msg.headers.count ≠
      cookieSample.parser.msg.headers.count := by decide +kernel
  rw [hfinal] at hafter hcount
  refine ⟨?_, by decide +kernel, s', hrun, hafter, fun hsame => hcount ?_⟩
  · exact .body (inBody_of_decide (by decide +kernel)) (clean_of_decide (by decide +kernel))
      (show Llhttp.decodeTrailers _ _ {} _ =
        some (({ fields := [(ascii "Cookie", ascii "id=7")] } : Trailing), []) by decide +kernel)
  · have hlen := congrArg List.length hsame.headers
    rw [List.length_map, List.length_map] at hlen
    exact hlen

end Inbound
end Dusty
