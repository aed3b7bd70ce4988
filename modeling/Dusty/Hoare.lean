import Dusty.Act

/-! # Rules for actions

`Triple P x Q E`: from a state in `P` the action `x` ends in `Q` with its value or in `E` with
its fault.  `Keeps P x`: the property `P` survives `x`, whatever the outcome.  `Spares f x`: the
fault `f` is none `x` can end with.  `Lockstep R V x y`:
two actions started in related states end alike, with related values or the same fault, in
related states.  Each notion has one rule for every way an action is put together. -/

namespace Dusty
namespace Act

variable {σ τ α β : Type}

/-! ### Triples -/

def Triple (P : σ → Prop) (x : Act σ α) (Q : α → σ → Prop) (E : Fault → σ → Prop) : Prop :=
  ∀ s, P s → match x s with
    | .ok a s' => Q a s'
    | .error e s' => E e s'

section triple
variable {P : σ → Prop} {Q : α → σ → Prop} {E : Fault → σ → Prop} {x : Act σ α}

theorem Triple.ok (h : Triple P x Q E) {s s' : σ} {a : α} (hs : P s) (hx : x s = .ok a s') :
    Q a s' := by
  have := h s hs
  rwa [hx] at this

theorem Triple.error (h : Triple P x Q E) {s s' : σ} {e : Fault} (hs : P s)
    (hx : x s = .error e s') : E e s' := by
  have := h s hs
  rwa [hx] at this

theorem Triple.bind {R : β → σ → Prop} {f : α → Act σ β} (hx : Triple P x Q E)
    (hf : ∀ a, Triple (Q a) (f a) R E) : Triple P (x >>= f) R E := by
  intro s hs
  rw [bind_run]
  cases h : x s with
  | ok a s' => exact hf a s' (hx.ok hs h)
  | error e s' => exact hx.error hs h

theorem Triple.weaken {P' : σ → Prop} {Q' : α → σ → Prop} {E' : Fault → σ → Prop}
    (h : Triple P x Q E) (hP : ∀ s, P' s → P s) (hQ : ∀ a s, Q a s → Q' a s)
    (hE : ∀ e s, E e s → E' e s) : Triple P' x Q' E' := by
  intro s hs
  cases hx : x s with
  | ok a s' => exact hQ a s' (h.ok (hP s hs) hx)
  | error e s' => exact hE e s' (h.error (hP s hs) hx)

theorem Triple.onError {f : σ → σ} {E' : Fault → σ → Prop} (h : Triple P x Q E)
    (hf : ∀ e s, E e s → E' e (f s)) : Triple P (onError f x) Q E' := by
  intro s hs
  unfold Act.onError
  cases hx : x s with
  | ok a s' => exact h.ok hs hx
  | error e s' => exact hf e s' (h.error hs hx)

theorem triple_pure {a : α} (h : ∀ s, P s → Q a s) : Triple P (pure a : Act σ α) Q E := h

theorem triple_fail {e : Error} (h : ∀ s, P s → E (.err e) s) :
    Triple P (fail e : Act σ α) Q E := h

theorem triple_die {p : Panic} (h : ∀ s, P s → E (.panic p) s) :
    Triple P (die p : Act σ α) Q E := h

theorem triple_modify {f : σ → σ} {Q : PUnit → σ → Prop} (h : ∀ s, P s → Q ⟨⟩ (f s)) :
    Triple P (modify f : Act σ PUnit) Q E := h

theorem triple_assert {b : Bool} {Q : Unit → σ → Prop} (h : ∀ s, P s → b = true → Q () s)
    (he : ∀ s, P s → E (.panic .assertion) s) : Triple P (assert b : Act σ Unit) Q E := by
  intro s hs
  cases b
  · exact he s hs
  · exact h s hs rfl

theorem triple_get_bind {f : σ → Act σ α} (h : ∀ r, Triple (fun s => P s ∧ s = r) (f r) Q E) :
    Triple P (get >>= f) Q E := by
  intro s hs
  exact h s s ⟨hs, rfl⟩

end triple

/-! ### Invariants -/

/-- The property survives the action. -/
def Keeps (P : σ → Prop) (x : Act σ α) : Prop := Triple P x (fun _ => P) (fun _ => P)

section keeps
variable {P : σ → Prop} {x : Act σ α}

theorem Keeps.ok (h : Keeps P x) {s s' : σ} {a : α} (hs : P s) (hx : x s = .ok a s') : P s' :=
  Triple.ok h hs hx

theorem Keeps.error (h : Keeps P x) {s s' : σ} {e : Fault} (hs : P s) (hx : x s = .error e s') :
    P s' :=
  Triple.error h hs hx

/-- What survives an action holds in the state it ends in. -/
theorem keeps_iff_final : Keeps P x ↔ ∀ s, P s → P (final x s) := by
  constructor
  · intro h s hs
    unfold final
    cases hx : x s with
    | ok a s' => exact h.ok hs hx
    | error e s' => exact h.error hs hx
  · intro h s hs
    have hfinal := h s hs
    unfold final at hfinal
    cases hx : x s with
    | ok a s' =>
        rw [hx] at hfinal
        exact hfinal
    | error e s' =>
        rw [hx] at hfinal
        exact hfinal

/-- What holds behind an action and survives what follows it. -/
theorem final_bind_of {f : α → Act σ β} {s : σ} (h : P (final x s)) (hf : ∀ a, Keeps P (f a)) :
    P (final (x >>= f) s) := by
  unfold final at h ⊢
  rw [bind_run]
  cases hx : x s with
  | ok a s' =>
      rw [hx] at h
      exact keeps_iff_final.mp (hf a) s' h
  | error e s' =>
      rw [hx] at h
      exact h

theorem keeps_pure (a : α) : Keeps P (pure a : Act σ α) := fun _ hs => hs

theorem keeps_fail (e : Error) : Keeps P (fail e : Act σ α) := fun _ hs => hs

theorem keeps_die (p : Panic) : Keeps P (die p : Act σ α) := fun _ hs => hs

theorem keeps_assert (b : Bool) : Keeps P (assert b : Act σ Unit) := by
  intro s hs
  cases b <;> exact hs

theorem Keeps.when {x : Act σ Unit} (h : Keeps P x) (b : Bool) : Keeps P (when b x) := by
  cases b
  · exact keeps_pure ()
  · exact h

theorem keeps_modify {f : σ → σ} (h : ∀ s, P s → P (f s)) : Keeps P (modify f : Act σ PUnit) := h

theorem Keeps.bind {f : α → Act σ β} (hx : Keeps P x) (hf : ∀ a, Keeps P (f a)) :
    Keeps P (x >>= f) :=
  Triple.bind hx hf

theorem keeps_get_bind {f : σ → Act σ α} (h : ∀ r, P r → Keeps P (f r)) : Keeps P (get >>= f) := by
  intro s hs
  exact h s hs s hs

theorem keeps_of_forall (h : ∀ s, P s) : Keeps P x := by
  intro s _
  cases x s <;> exact h _

theorem Keeps.and {R : σ → Prop} (h : Keeps P x) (h' : Keeps R x) :
    Keeps (fun s => P s ∧ R s) x := by
  intro s hs
  cases hx : x s with
  | ok a s' => exact ⟨h.ok hs.1 hx, h'.ok hs.2 hx⟩
  | error e s' => exact ⟨h.error hs.1 hx, h'.error hs.2 hx⟩

theorem Keeps.attempt (h : Keeps P x) : Keeps P (attempt x) := by
  intro s hs
  unfold Act.attempt
  cases hx : x s with
  | ok a s' => exact h.ok hs hx
  | error e s' => cases e <;> exact h.error hs hx

theorem Keeps.onError {f : σ → σ} (h : Keeps P x) (hf : ∀ s, P s → P (f s)) :
    Keeps P (onError f x) := by
  intro s hs
  unfold Act.onError
  cases hx : x s with
  | ok a s' => exact h.ok hs hx
  | error e s' => exact hf _ (h.error hs hx)

/-- An action on a part keeps what it keeps of the part and what does not look at the part. -/
theorem keeps_zoom {g : τ → σ} {put : σ → τ → τ} {T : τ → Prop}
    (h : ∀ t, T t → Triple (fun s => s = g t) x (fun _ s => T (put s t)) (fun _ s => T (put s t))) :
    Keeps T (zoom g put x) := by
  intro t ht
  unfold zoom
  cases hx : x (g t) with
  | ok a s' => exact (h t ht).ok rfl hx
  | error e s' => exact (h t ht).error rfl hx

end keeps

/-! ### Faults that do not occur -/

/-- The action never ends with the fault. -/
def Spares (f : Fault) (x : Act σ α) : Prop := ∀ s s', x s ≠ .error f s'

section spares
variable {f : Fault} {x : Act σ α}

theorem spares_pure (a : α) : Spares f (pure a : Act σ α) := fun _ _ h => nomatch h

theorem spares_get : Spares f (get : Act σ σ) := fun _ _ h => nomatch h

theorem spares_modify (g : σ → σ) : Spares f (modify g : Act σ PUnit) := fun _ _ h => nomatch h

theorem spares_fail {e : Error} (he : f ≠ .err e) : Spares f (fail e : Act σ α) := by
  intro s s' h
  cases h
  exact he rfl

theorem spares_assert (hf : f ≠ .panic .assertion) (b : Bool) : Spares f (assert b : Act σ Unit) := by
  intro s s' h
  cases b
  · cases h
    exact hf rfl
  · cases h

theorem Spares.bind {g : α → Act σ β} (hx : Spares f x) (hg : ∀ a, Spares f (g a)) :
    Spares f (x >>= g) := by
  intro s s' h
  rw [bind_run] at h
  cases hrun : x s with
  | ok a s₁ =>
      rw [hrun] at h
      exact hg a s₁ s' h
  | error e s₁ =>
      rw [hrun] at h
      cases h
      exact hx s s' hrun

end spares

/-! ### Two runs -/

/-- The two actions end alike. -/
def Lockstep (R : σ → τ → Prop) (V : α → β → Prop) (x : Act σ α) (y : Act τ β) : Prop :=
  ∀ s t, R s t → match x s, y t with
    | .ok a s', .ok b t' => V a b ∧ R s' t'
    | .error e s', .error e' t' => e = e' ∧ R s' t'
    | _, _ => False

section lockstep
variable {R : σ → τ → Prop} {V : α → β → Prop} {x : Act σ α} {y : Act τ β}

theorem Lockstep.ok (h : Lockstep R V x y) {s s' : σ} {t : τ} {a : α} (hR : R s t)
    (hx : x s = .ok a s') : ∃ b t', y t = .ok b t' ∧ V a b ∧ R s' t' := by
  have := h s t hR
  rw [hx] at this
  cases hy : y t with
  | ok b t' => exact ⟨b, t', rfl, by rwa [hy] at this⟩
  | error e t' => simp [hy] at this

theorem Lockstep.error (h : Lockstep R V x y) {s s' : σ} {t : τ} {e : Fault} (hR : R s t)
    (hx : x s = .error e s') : ∃ t', y t = .error e t' ∧ R s' t' := by
  have := h s t hR
  rw [hx] at this
  cases hy : y t with
  | ok b t' => simp [hy] at this
  | error e' t' =>
      rw [hy] at this
      obtain ⟨rfl, hR'⟩ := this
      exact ⟨t', rfl, hR'⟩

theorem lockstep_pure {a : α} {b : β} (h : V a b) :
    Lockstep R V (pure a : Act σ α) (pure b : Act τ β) := fun _ _ hR => ⟨h, hR⟩

theorem lockstep_fail (e : Error) : Lockstep R V (fail e : Act σ α) (fail e : Act τ β) :=
  fun _ _ hR => ⟨rfl, hR⟩

theorem Lockstep.when {x : Act σ Unit} {y : Act τ Unit} (h : Lockstep R Eq x y) (b : Bool) :
    Lockstep R Eq (when b x) (when b y) := by
  cases b
  · exact lockstep_pure rfl
  · exact h

theorem lockstep_modify {f : σ → σ} {g : τ → τ} (h : ∀ s t, R s t → R (f s) (g t)) :
    Lockstep R Eq (modify f : Act σ PUnit) (modify g : Act τ PUnit) :=
  fun s t hR => ⟨rfl, h s t hR⟩

theorem Lockstep.bind {γ δ : Type} {W : γ → δ → Prop} {f : α → Act σ γ} {g : β → Act τ δ}
    (hx : Lockstep R V x y) (hf : ∀ a b, V a b → Lockstep R W (f a) (g b)) :
    Lockstep R W (x >>= f) (y >>= g) := by
  intro s t hR
  rw [bind_run, bind_run]
  cases h : x s with
  | ok a s' =>
      obtain ⟨b, t', hy, hV, hR'⟩ := hx.ok hR h
      rw [hy]
      exact hf a b hV s' t' hR'
  | error e s' =>
      obtain ⟨t', hy, hR'⟩ := hx.error hR h
      rw [hy]
      exact ⟨rfl, hR'⟩

theorem lockstep_get_bind {f : σ → Act σ α} {g : τ → Act τ β}
    (h : ∀ s t, R s t → Lockstep R V (f s) (g t)) : Lockstep R V (get >>= f) (get >>= g) := by
  intro s t hR
  exact h s t hR s t hR

theorem Lockstep.attempt {y : Act τ α} (h : Lockstep R Eq x y) :
    Lockstep R Eq (attempt x) (attempt y) := by
  intro s t hR
  unfold Act.attempt
  cases hx : x s with
  | ok a s' =>
      obtain ⟨b, t', hy, rfl, hR'⟩ := h.ok hR hx
      rw [hy]
      exact ⟨rfl, hR'⟩
  | error e s' =>
      obtain ⟨t', hy, hR'⟩ := h.error hR hx
      rw [hy]
      cases e <;> exact ⟨rfl, hR'⟩

theorem Lockstep.onError {f : σ → σ} {g : τ → τ} (h : Lockstep R V x y)
    (hf : ∀ s t, R s t → R (f s) (g t)) : Lockstep R V (onError f x) (onError g y) := by
  intro s t hR
  unfold Act.onError
  cases hx : x s with
  | ok a s' =>
      obtain ⟨b, t', hy, hV, hR'⟩ := h.ok hR hx
      rw [hy]
      exact ⟨hV, hR'⟩
  | error e s' =>
      obtain ⟨t', hy, hR'⟩ := h.error hR hx
      rw [hy]
      exact ⟨rfl, hf _ _ hR'⟩

end lockstep

end Act
end Dusty
