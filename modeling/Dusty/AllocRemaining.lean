import Dusty.Bytes
import Dusty.Hoare

/-! # Reading to the end

`std.Io.Reader.allocRemaining` over any source (`allocRemaining_run`), and a function that caches what it
has read.  When such a function is called again after an error, it goes on where the failed call
stopped: `wholeOrRefused_iff` is when no call takes what is left for the whole. -/

namespace Dusty

open Act

variable {σ : Type} {stream : ℕ → Act σ Bytes} {whole : Prop} {P : σ → Prop} {n : ℕ} {text : Bytes} {s : σ}

/-- The loop of `allocRemaining`, up to a limit, where the list grows by `room` of its length. -/
def allocRemaining (stream : ℕ → Act σ Bytes) (tooLong : Error) (room : ℕ → ℕ) :
    ℕ → ℕ → Bytes → Act σ Bytes
  | 0, _, _ => Act.die .outOfFuel
  | fuel + 1, remaining, got =>
      if remaining = 0 then Act.fail tooLong
      else do
        match ← Act.attempt (stream (min remaining (room got.length + 1))) with
        | .error .endOfStream => pure got
        | .error .writeFailed => Act.fail .outOfMemory
        | .error e => Act.fail e
        | .ok part => allocRemaining stream tooLong room fuel (remaining - part.length) (got ++ part)

/-! ### What a source has to give -/

/-- One read: a piece that fits, or an error; of a text that is whole it is a piece of the text, or at its
end the end of the stream, which is no error of a text that is not. -/
def OneRead (stream : ℕ → Act σ Bytes) (whole : Prop) (R : ℕ → Bytes → σ → Prop) (n : ℕ) (text : Bytes)
    (s : σ) : Prop :=
  ∀ dest, 0 < dest →
    (∃ part rest n' s', stream dest s = .ok part s' ∧ part.length ≤ dest ∧ (whole → text = part ++ rest) ∧
      R n' rest s' ∧ n' ≤ n ∧ (part = [] → n' < n)) ∨
    ∃ e rest s', stream dest s = .error (.err e) s' ∧ (whole → text = [] ∧ rest = []) ∧ R n rest s' ∧
      (whole ↔ e = .endOfStream)

/-- Reading from the source comes to the text if that is whole, with at most `n` empty pieces, in whatever
pieces it is read, and to an error if it is not; `P` holds meanwhile. -/
def Reads (P : σ → Prop) (stream : ℕ → Act σ Bytes) (whole : Prop) (n : ℕ) (text : Bytes) (s : σ) : Prop :=
  ∃ R : ℕ → Bytes → σ → Prop, R n text s ∧ ∀ n text s, R n text s → P s ∧ OneRead stream whole R n text s

theorem Reads.keeps (h : Reads P stream whole n text s) : P s := by
  obtain ⟨R, hR, hnext⟩ := h
  exact (hnext n text s hR).1

theorem Reads.next (h : Reads P stream whole n text s) :
    OneRead stream whole (Reads P stream whole) n text s := by
  obtain ⟨R, hR, hnext⟩ := h
  intro dest hdest
  rcases (hnext n text s hR).2 dest hdest with
    ⟨part, rest, n', s', hrun, hfits, htext, hrest, hless⟩ | ⟨e, rest, s', hrun, htext, hrest, hwhole⟩
  · exact .inl ⟨part, rest, n', s', hrun, hfits, htext, ⟨R, hrest, hnext⟩, hless⟩
  · exact .inr ⟨e, rest, s', hrun, htext, ⟨R, hrest, hnext⟩, hwhole⟩

theorem Reads.weaken {Q : σ → Prop} (h : Reads P stream whole n text s) (hPQ : ∀ s, P s → Q s) :
    Reads Q stream whole n text s := by
  obtain ⟨R, hR, hnext⟩ := h
  exact ⟨R, hR, fun n text s hs => ⟨hPQ s (hnext n text s hs).1, (hnext n text s hs).2⟩⟩

theorem Reads.keeping {Q : σ → Prop} (h : Reads P stream whole n text s)
    (hstream : ∀ dest, Keeps Q (stream dest)) (hs : Q s) :
    Reads (fun s => P s ∧ Q s) stream whole n text s := by
  refine ⟨fun n text s => Reads P stream whole n text s ∧ Q s, ⟨h, hs⟩, ?_⟩
  rintro n text s ⟨h, hs⟩
  refine ⟨⟨h.keeps, hs⟩, fun dest hdest => ?_⟩
  rcases h.next dest hdest with
    ⟨part, rest, n', s', hrun, hfits, htext, hrest, hless⟩ | ⟨e, rest, s', hrun, htext, hrest, hwhole⟩
  · exact .inl ⟨part, rest, n', s', hrun, hfits, htext, ⟨hrest, (hstream dest).ok hs hrun⟩, hless⟩
  · exact .inr ⟨e, rest, s', hrun, htext, ⟨hrest, (hstream dest).error hs hrun⟩, hwhole⟩

/-- **The loop** returns the text if it is whole and shorter than the limit, or it fails; of a text that
is whole, it has then taken as much as the limit. -/
theorem allocRemaining_run (tooLong : Error) (room : ℕ → ℕ) :
    ∀ {fuel remaining : ℕ} {got : Bytes} {n : ℕ} {text : Bytes} {s : σ}, Reads P stream whole n text s →
      remaining + n < fuel →
      (whole ∧ text.length < remaining ∧ ∃ n' s', Reads P stream whole n' [] s' ∧
        allocRemaining stream tooLong room fuel remaining got s = .ok (got ++ text) s') ∨
      ∃ e taken rest n' s', allocRemaining stream tooLong room fuel remaining got s = .error (.err e) s' ∧
        (whole → text = taken ++ rest ∧ taken.length = remaining) ∧ Reads P stream whole n' rest s' ∧
        n' ≤ n := by
  intro fuel
  induction fuel with
  | zero => exact fun _ hfuel => absurd hfuel (Nat.not_lt_zero _)
  | succ fuel ih =>
      intro remaining got n text s h hfuel
      rw [allocRemaining]
      by_cases hremaining : remaining = 0
      · rw [if_pos hremaining]
        exact .inr ⟨tooLong, [], text, n, s, rfl, fun _ => ⟨rfl, hremaining.symm⟩, h, le_rfl⟩
      rw [if_neg hremaining]
      have hdest : 0 < min remaining (room got.length + 1) := by omega
      rcases h.next _ hdest with
        ⟨part, rest, n', s', hrun, hfits, htext, hrest, hle, hless⟩ |
        ⟨e, rest, s', hrun, htext, hrest, hwhole⟩
      · rw [bind_ok (attempt_ok hrun)]
        simp only
        have hpart : part.length ≤ remaining := hfits.trans (min_le_left _ _)
        have hmore : remaining - part.length + n' < fuel := by
          cases part with
          | nil =>
              have hlt := hless rfl
              rw [List.length_nil]
              omega
          | cons b part =>
              rw [List.length_cons] at hpart ⊢
              omega
        rcases @ih _ (got ++ part) _ _ _ hrest hmore with
          ⟨hwhole, hlength, n'', s'', hend, hok⟩ | ⟨e, taken, rest', n'', s'', herror, htaken, hend, hle'⟩
        · have hsplit := htext hwhole
          refine .inl ⟨hwhole, ?_, n'', s'', hend, ?_⟩
          · rw [hsplit, List.length_append]
            omega
          · rw [hok, hsplit, List.append_assoc]
        · refine .inr ⟨e, part ++ taken, rest', n'', s'', herror, fun hwhole => ?_, hend, hle'.trans hle⟩
          obtain ⟨hrest, hlength⟩ := htaken hwhole
          refine ⟨?_, ?_⟩
          · rw [htext hwhole, hrest, List.append_assoc]
          · rw [List.length_append]
            omega
      · rw [bind_ok (attempt_error hrun)]
        cases e with
        | endOfStream =>
            have hyes := hwhole.mpr rfl
            obtain ⟨rfl, rfl⟩ := htext hyes
            refine .inl ⟨hyes, Nat.pos_of_ne_zero hremaining, n, s', hrest, ?_⟩
            rw [List.append_nil]
            rfl
        | _ => exact .inr ⟨_, [], rest, n, s', rfl, (fun hyes => by cases hwhole.mp hyes), hrest, le_rfl⟩

/-! ### Calls that cache what they read -/

section
variable {body : (ℕ → ℕ) → Act σ (Option Bytes)} {max : ℕ} {Open : ℕ → Bytes → σ → Prop}

/-- What is kept of a text that was read. -/
def stored (text : Bytes) : Option Bytes := if text.length = 0 then none else some text

/-- One call after the other; an error of one is caught. -/
def calls (body : (ℕ → ℕ) → Act σ (Option Bytes)) : List (ℕ → ℕ) → Act σ (List (Except Error (Option Bytes)))
  | [] => pure []
  | room :: rooms => do
      let result ← Act.attempt (body room)
      let results ← calls body rooms
      pure (result :: results)

/-- However often it is called, every call returns the text as a whole, or fails. -/
def WholeOrRefused (body : (ℕ → ℕ) → Act σ (Option Bytes)) (whole : Prop) (text : Bytes) (s : σ) : Prop :=
  ∀ rooms, ∃ results s', calls body rooms s = .ok results s' ∧
    ∀ result, .ok result ∈ results → whole ∧ result = stored text

/-- A call, as long as none has returned: it returns what is left if that is whole and shorter than the
limit, or it fails; of a text that is whole, it has then taken as much as the limit, or it has taken
nothing, which can happen `n` times. -/
def Attempts (body : (ℕ → ℕ) → Act σ (Option Bytes)) (whole : Prop) (max : ℕ)
    (Open : ℕ → Bytes → σ → Prop) : Prop :=
  ∀ n text s, Open n text s → ∀ room,
    (whole ∧ text.length < max ∧ ∃ s', body room s = .ok (stored text) s' ∧
      ∀ room, body room s' = .ok (stored text) s') ∨
    ∃ e taken rest n' s', body room s = .error (.err e) s' ∧ Open n' rest s' ∧
      (whole → text = taken ++ rest ∧ (taken.length = max ∧ n' ≤ n ∨ taken = [] ∧ n' < n))

theorem calls_cached {b : Option Bytes} (h : ∀ room, body room s = .ok b s) (rooms : List (ℕ → ℕ)) :
    calls body rooms s = .ok (rooms.map fun _ => .ok b) s := by
  induction rooms with
  | nil => rfl
  | cons room rooms ih =>
      rw [calls, bind_ok (attempt_ok (h room)), bind_ok ih]
      rfl

/-- If the text is shorter than the limit, or no limit lets any of it through, the calls are in
order. -/
theorem wholeOrRefused_of_less (h : Attempts body whole max Open) (hopen : Open n text s)
    (hless : whole → max = 0 ∨ text.length < max) : WholeOrRefused body whole text s := by
  intro rooms
  induction rooms generalizing n s text with
  | nil => exact ⟨[], s, rfl, fun _ hmem => absurd hmem List.not_mem_nil⟩
  | cons room rooms ih =>
      rcases h n text s hopen room with ⟨hwhole, -, s', hrun, hcached⟩ |
        ⟨e, taken, rest, n', s', hrun, hrest, htaken⟩
      · refine ⟨.ok (stored text) :: rooms.map fun _ => .ok (stored text), s', ?_,
          fun result hmem => ⟨hwhole, ?_⟩⟩
        · rw [calls, bind_ok (attempt_ok hrun), bind_ok (calls_cached hcached rooms)]
          rfl
        · rcases List.mem_cons.mp hmem with hfirst | hmore
          · exact Except.ok.inj hfirst
          · obtain ⟨_, -, hsame⟩ := List.mem_map.mp hmore
            exact (Except.ok.inj hsame).symm
      · -- a call that fails has taken nothing of a text that is whole
        have hsame : whole → text = rest := by
          intro hwhole
          obtain ⟨rfl, hlength⟩ := htaken hwhole
          have hnil : taken = [] := by
            rcases hlength with ⟨hlength, -⟩ | ⟨hnil, -⟩
            · refine List.length_eq_zero_iff.mp ?_
              rcases hless hwhole with hmax | hlt
              · exact hlength.trans hmax
              · rw [List.length_append] at hlt
                omega
            · exact hnil
          rw [hnil, List.nil_append]
        obtain ⟨results, s'', hruns, hresults⟩ := ih hrest fun hwhole => hsame hwhole ▸ hless hwhole
        refine ⟨.error e :: results, s'', ?_, fun result hmem => ?_⟩
        · rw [calls, bind_ok (attempt_error hrun), bind_ok hruns]
          rfl
        · rcases List.mem_cons.mp hmem with hfirst | hmore
          · cases hfirst
          · obtain ⟨hwhole, hresult⟩ := hresults result hmore
            exact ⟨hwhole, hsame hwhole ▸ hresult⟩

/-- Of a text that is whole, some call returns what is left when it is shorter than the limit. -/
theorem calls_tail (h : Attempts body whole max Open) (hwhole : whole) (hmax : 0 < max) :
    ∀ (weight : ℕ) {n : ℕ} {text : Bytes} {s : σ}, text.length + n ≤ weight → Open n text s →
      ∃ rooms results s' tail, calls body rooms s = .ok results s' ∧ tail.length < max ∧
        .ok (stored tail) ∈ results := by
  intro weight
  induction weight with
  | zero =>
      intro n text s hweight hopen
      rcases h n text s hopen id with ⟨-, hless, s', hrun, -⟩ | ⟨e, taken, rest, n', s', -, -, htaken⟩
      · refine ⟨[id], [.ok (stored text)], s', text, ?_, hless, List.mem_cons_self⟩
        rw [calls, bind_ok (attempt_ok hrun)]
        rfl
      · obtain ⟨rfl, htook⟩ := htaken hwhole
        rw [List.length_append] at hweight
        rcases htook with ⟨htook, -⟩ | ⟨-, hlt⟩ <;> omega
  | succ weight ih =>
      intro n text s hweight hopen
      rcases h n text s hopen id with ⟨-, hless, s', hrun, -⟩ | ⟨e, taken, rest, n', s', hrun, hrest, htaken⟩
      · refine ⟨[id], [.ok (stored text)], s', text, ?_, hless, List.mem_cons_self⟩
        rw [calls, bind_ok (attempt_ok hrun)]
        rfl
      · obtain ⟨rfl, htook⟩ := htaken hwhole
        rw [List.length_append] at hweight
        have hless : rest.length + n' ≤ weight := by
          rcases htook with ⟨htook, hle⟩ | ⟨-, hlt⟩ <;> omega
        obtain ⟨rooms, results, s'', tail, hruns, htail, hmem⟩ := ih hless hrest
        refine ⟨id :: rooms, .error e :: results, s'', tail, ?_, htail, List.mem_cons_of_mem _ hmem⟩
        rw [calls, bind_ok (attempt_error hrun), bind_ok hruns]
        rfl

theorem not_wholeOrRefused {rooms : List (ℕ → ℕ)} {results : List (Except Error (Option Bytes))} {s' : σ}
    {b : Option Bytes} (hruns : calls body rooms s = .ok results s') (hmem : .ok b ∈ results)
    (hother : b ≠ stored text) : ¬WholeOrRefused body whole text s := by
  intro hcalls
  obtain ⟨results', s'', hruns', hall⟩ := hcalls rooms
  rw [hruns] at hruns'
  cases hruns'
  exact hother (hall _ hmem).2

theorem stored_inj {text tail : Bytes} (h : stored text = stored tail) : text = tail := by
  unfold stored at h
  split at h
  · next hnil =>
      split at h
      · next hnil' => rw [List.length_eq_zero_iff.mp hnil, List.length_eq_zero_iff.mp hnil']
      · cases h
  · split at h
    · cases h
    · exact Option.some.inj h

/-- **Whole or refused**: no call takes a tail for the whole exactly if the text is shorter than the
limit, or the limit lets nothing through, or the text is not whole. -/
theorem wholeOrRefused_iff (h : Attempts body whole max Open) (hopen : Open n text s) :
    WholeOrRefused body whole text s ↔ (whole → max = 0 ∨ text.length < max) := by
  refine ⟨fun hcalls hwhole => ?_, wholeOrRefused_of_less h hopen⟩
  by_contra hlong
  obtain ⟨rooms, results, s', tail, hruns, htail, hmem⟩ :=
    calls_tail h hwhole (show 0 < max by omega) _ le_rfl hopen
  refine not_wholeOrRefused hruns hmem (fun hsame => ?_) hcalls
  rw [stored_inj hsame] at htail
  omega

end

end Dusty
