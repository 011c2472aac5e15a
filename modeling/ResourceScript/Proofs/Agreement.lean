import ResourceScript.Proofs.Outcome

namespace Except

/-- Both are values or both are failures, and related ones. -/
inductive Agree (E : ε → ε → Prop) (P : α → β → Prop) : Except ε α → Except ε β → Prop where
  | ok : P a b → Agree E P (.ok a) (.ok b)
  | error : E x y → Agree E P (.error x) (.error y)

variable {E : ε → ε → Prop} {e : Except ε α} {e' : Except ε β}

theorem Agree.bind {f : α → Except ε γ} {f' : β → Except ε δ} (h : Agree E P e e')
    (hf : ∀ a b, P a b → Agree E Q (f a) (f' b)) : Agree E Q (e >>= f) (e' >>= f') := by
  cases h with
  | ok hab => exact hf _ _ hab
  | error he => exact .error he

theorem Agree.bind_eq {e e' : Except ε α} {f : α → Except ε γ} {f' : α → Except ε δ}
    (h : Agree E Eq e e') (hf : ∀ a, Agree E Q (f a) (f' a)) : Agree E Q (e >>= f) (e' >>= f') :=
  h.bind fun a _ hab => hab ▸ hf a

theorem Agree.map {f : α → γ} {f' : β → δ} (h : Agree E P e e')
    (hf : ∀ a b, P a b → Q (f a) (f' b)) : Agree E Q (e.map f) (e'.map f') := by
  cases h with
  | ok hab => exact .ok (hf _ _ hab)
  | error he => exact .error he

end Except

namespace ResourceScript

/-- Two ends of computations: both in values that `P` relates and states that `S` relates, or both
in failures that `E` relates and states that `F` relates. -/
inductive EndsAlike (S F : σ → σ → Prop) (E : ε → ε → Prop) (P : α → β → Prop) :
    EStateM.Result ε σ α → EStateM.Result ε σ β → Prop where
  | ok : P a b → S s s' → EndsAlike S F E P (.ok a s) (.ok b s')
  | error : E e e' → F s s' → EndsAlike S F E P (.error e s) (.error e' s')

/-- From states that `S` relates both computations end in values that `P` relates and in states that
`S` relates again, or both in failures that `E` relates and in states that `F` relates. -/
def Agree (S F : σ → σ → Prop) (E : ε → ε → Prop) (P : α → β → Prop) (m : EStateM ε σ α)
    (m' : EStateM ε σ β) : Prop :=
  ∀ s s', S s s' → EndsAlike S F E P (m s) (m' s')

namespace EndsAlike

variable {S S₁ F : σ → σ → Prop} {E : ε → ε → Prop} {m : EStateM ε σ α} {m' : EStateM ε σ β}

theorem of_ok {P : α → β → Prop} (h : EndsAlike S F E P (m s) (m' s')) (hm : m s = .ok a s₁) :
    ∃ b s₁', m' s' = .ok b s₁' ∧ P a b ∧ S s₁ s₁' := by
  rw [hm] at h
  generalize m' s' = r at h
  cases h with
  | ok hab hs => exact ⟨_, _, rfl, hab, hs⟩

theorem of_error {P : α → β → Prop} (h : EndsAlike S F E P (m s) (m' s'))
    (hm : m s = .error e s₁) : ∃ e' s₁', m' s' = .error e' s₁' ∧ E e e' ∧ F s₁ s₁' := by
  rw [hm] at h
  generalize m' s' = r at h
  cases h with
  | error he hs => exact ⟨_, _, rfl, he, hs⟩

theorem mono {P : α → β → Prop} {r : EStateM.Result ε σ α} {r' : EStateM.Result ε σ β}
    (h : EndsAlike S₁ F E P r r') (hs : ∀ s s', S₁ s s' → S s s') : EndsAlike S F E P r r' := by
  cases h with
  | ok hab h => exact .ok hab (hs _ _ h)
  | error he h => exact .error he h

theorem bind {P : α → β → Prop} {f : α → EStateM ε σ γ} {f' : β → EStateM ε σ δ}
    (h : EndsAlike S₁ F E P (m s) (m' s'))
    (hf : ∀ a b t t', P a b → S₁ t t' → EndsAlike S F E Q (f a t) (f' b t')) :
    EndsAlike S F E Q ((m >>= f) s) ((m' >>= f') s') := by
  cases hm : m s with
  | ok a s₁ =>
    obtain ⟨b, s₁', hm', hab, hs₁⟩ := h.of_ok hm
    rw [bind_of_ok f hm, bind_of_ok f' hm']
    exact hf a b s₁ s₁' hab hs₁
  | error e s₁ =>
    obtain ⟨e', s₁', hm', he, hs₁⟩ := h.of_error hm
    rw [bind_of_error f hm, bind_of_error f' hm']
    exact .error he hs₁

theorem bind_eq {m m' : EStateM ε σ α} {f : α → EStateM ε σ γ} {f' : α → EStateM ε σ δ}
    (h : EndsAlike S₁ F E Eq (m s) (m' s'))
    (hf : ∀ a t t', S₁ t t' → EndsAlike S F E Q (f a t) (f' a t')) :
    EndsAlike S F E Q ((m >>= f) s) ((m' >>= f') s') :=
  h.bind fun a _ t t' hab ht => hab ▸ hf a t t' ht

theorem repeatWhile {P : α → β → Prop} {step : α → EStateM ε σ α} {step' : β → EStateM ε σ β}
    {measure : σ → Nat} {more : σ → Bool} (hm : more s = true) (hm' : more s' = true)
    (hstep : EndsAlike S₁ F E P (step a s) (step' b s'))
    (hlt : ∀ t t', S₁ t t' → measure t < measure s ∧ measure t' < measure s')
    (hrest : ∀ x y t t', P x y → S₁ t t' → EndsAlike S F E P
      (ResourceScript.repeatWhile measure more step x t)
      (ResourceScript.repeatWhile measure more step' y t')) :
    EndsAlike S F E P (ResourceScript.repeatWhile measure more step a s)
      (ResourceScript.repeatWhile measure more step' b s') := by
  cases hround : step a s with
  | ok x t =>
    obtain ⟨y, t', hround', hxy, ht⟩ := hstep.of_ok hround
    rw [repeatWhile_round hm hround (hlt t t' ht).1, repeatWhile_round hm' hround' (hlt t t' ht).2]
    exact hrest x y t t' hxy ht
  | error e t =>
    obtain ⟨e', t', hround', he, ht⟩ := hstep.of_error hround
    rw [ResourceScript.repeatWhile, ResourceScript.repeatWhile]
    simp only [hm, hm', hround, hround', if_true]
    exact .error he ht

end EndsAlike

namespace Agree

variable {S F : σ → σ → Prop} {E : ε → ε → Prop} {m : EStateM ε σ α} {m' : EStateM ε σ β}

theorem of_ok {P : α → β → Prop} (h : Agree S F E P m m') (hs : S s s') (hm : m s = .ok a s₁) :
    ∃ b s₁', m' s' = .ok b s₁' ∧ P a b ∧ S s₁ s₁' :=
  (h s s' hs).of_ok hm

theorem pure {P : α → β → Prop} (h : P a b) :
    Agree S F E P (Pure.pure a : EStateM ε σ α) (Pure.pure b) := fun _ _ hs =>
  .ok h hs

theorem bind {P : α → β → Prop} {f : α → EStateM ε σ γ} {f' : β → EStateM ε σ δ}
    (h : Agree S F E P m m') (hf : ∀ a b, P a b → Agree S F E Q (f a) (f' b)) :
    Agree S F E Q (m >>= f) (m' >>= f') := fun s s' hs =>
  (h s s' hs).bind fun a b t t' hab ht => hf a b hab t t' ht

theorem bind_eq {f : α → EStateM ε σ γ} {f' : α → EStateM ε σ δ} {m m' : EStateM ε σ α}
    (h : Agree S F E Eq m m') (hf : ∀ a, Agree S F E Q (f a) (f' a)) :
    Agree S F E Q (m >>= f) (m' >>= f') :=
  h.bind fun a _ hab => hab ▸ hf a

/-- Rounds that agree agree when they are repeated, for as long as related states have the same to
do. -/
theorem repeatWhile {P : α → β → Prop} {step : α → EStateM ε σ α} {step' : β → EStateM ε σ β}
    {measure : σ → Nat} {more : σ → Bool} (hmeasure : ∀ s s', S s s' → measure s' = measure s)
    (hmore : ∀ s s', S s s' → more s' = more s)
    (hstep : ∀ a b s s', P a b → S s s' → more s = true → EndsAlike S F E P (step a s) (step' b s'))
    (hab : P a b) :
    Agree S F E P (repeatWhile measure more step a)
      (ResourceScript.repeatWhile measure more step' b) := by
  intro s s' hs
  fun_induction ResourceScript.repeatWhile measure more step a s generalizing b s' with
  | case1 a s hm a₁ s₁ hround hlt ih =>
    obtain ⟨b₁, s₁', hround', hab₁, hs₁⟩ := (hstep a b s s' hab hs hm).of_ok hround
    have hlt' : measure s₁' < measure s' := by rwa [hmeasure _ _ hs₁, hmeasure _ _ hs]
    rw [repeatWhile_round (by rwa [hmore _ _ hs]) hround' hlt']
    exact ih hab₁ s₁' hs₁
  | case2 a s hm a₁ s₁ hround hlt =>
    obtain ⟨b₁, s₁', hround', hab₁, hs₁⟩ := (hstep a b s s' hab hs hm).of_ok hround
    have hlt' : ¬measure s₁' < measure s' := by rwa [hmeasure _ _ hs₁, hmeasure _ _ hs]
    rw [ResourceScript.repeatWhile]
    simp only [hmore _ _ hs, hm, hround', hlt', if_true, if_false]
    exact .ok hab₁ hs₁
  | case3 a s hm e s₁ hround =>
    obtain ⟨e', s₁', hround', he, hs₁⟩ := (hstep a b s s' hab hs hm).of_error hround
    rw [ResourceScript.repeatWhile]
    simp only [hmore _ _ hs, hm, hround', if_true]
    exact .error he hs₁
  | case4 a s hm =>
    rw [repeatWhile_done (by rw [hmore _ _ hs]; simpa using hm)]
    exact .ok hab hs

theorem foldlM {P : α → β → Prop} {f : α → γ → EStateM ε σ α} {f' : β → γ → EStateM ε σ β}
    {xs : List γ} (hf : ∀ a b x, P a b → Agree S F E P (f a x) (f' b x)) (hab : P a b) :
    Agree S F E P (xs.foldlM f a) (xs.foldlM f' b) := by
  induction xs generalizing a b with
  | nil => exact pure hab
  | cons x xs ih =>
    rw [List.foldlM_cons, List.foldlM_cons]
    exact (hf a b x hab).bind fun _ _ h => ih h

end Agree

end ResourceScript
