import Mathlib.Data.List.Nodup
import ResourceScript.Resource.Declaration

namespace Except

theorem bind_eq_ok {e : Except ε α} {f : α → Except ε β} :
    e >>= f = .ok b ↔ ∃ a, e = .ok a ∧ f a = .ok b := by
  cases e <;> simp [bind, Except.bind]

theorem bind_eq_error {e : Except ε α} {f : α → Except ε β} :
    e >>= f = .error x ↔ e = .error x ∨ ∃ a, e = .ok a ∧ f a = .error x := by
  cases e <;> simp [bind, Except.bind]

theorem map_eq_ok {e : Except ε α} {f : α → β} :
    e.map f = .ok b ↔ ∃ a, e = .ok a ∧ f a = b := by
  cases e <;> simp [Except.map]

theorem map_eq_error {e : Except ε α} {f : α → β} : e.map f = .error x ↔ e = .error x := by
  cases e <;> simp [Except.map]

theorem mapError_eq_ok {e : Except ε α} {f : ε → ε'} : e.mapError f = .ok a ↔ e = .ok a := by
  cases e with
  | error x => exact ⟨nofun, nofun⟩
  | ok b =>
    constructor <;>
    · intro h
      cases h
      rfl

theorem toOption_eq_some {e : Except ε α} : e.toOption = some a ↔ e = .ok a := by
  cases e <;> simp [Except.toOption]

theorem foldlM_keeps {f : β → α → Except ε β} {I : β → Prop} {xs : List α}
    (hf : ∀ b, ∀ x ∈ xs, ∀ b', I b → f b x = .ok b' → I b') (hb : I b)
    (h : xs.foldlM f b = .ok b') : I b' := by
  induction xs generalizing b with
  | nil =>
    obtain rfl : b = b' := Except.ok.inj h
    exact hb
  | cons x xs ih =>
    rw [List.foldlM_cons] at h
    obtain ⟨b₁, h₁, h⟩ := bind_eq_ok.mp h
    have hxs : ∀ b, ∀ y ∈ xs, ∀ b', I b → f b y = .ok b' → I b' :=
      fun b y hy => hf b y (List.mem_cons_of_mem x hy)
    exact ih hxs (hf b x List.mem_cons_self b₁ hb h₁) h

theorem exists_step_of_foldlM {f : β → α → Except ε β} {xs : List α} (h : xs.foldlM f b = .ok b')
    (hx : x ∈ xs) : ∃ b₁ b₂, f b₁ x = .ok b₂ := by
  induction xs generalizing b with
  | nil => cases hx
  | cons y xs ih =>
    rw [List.foldlM_cons] at h
    obtain ⟨b₁, h₁, h⟩ := bind_eq_ok.mp h
    cases hx with
    | head => exact ⟨b, b₁, h₁⟩
    | tail _ hx => exact ih h hx

end Except

namespace ResourceScript

theorem nodup_map_snoc {name : α → β} {xs : List α} {x : α} (h : (xs.map name).Nodup)
    (hx : name x ∉ xs.map name) : ((xs ++ [x]).map name).Nodup := by
  rw [List.map_append, List.map_cons, List.map_nil, ← List.concat_eq_append]
  exact List.Nodup.concat hx h

/-- From `s` the computation ends in a value and a state with `P`, or in a failure and a state
with `Q`. -/
def Ends (m : EStateM ε σ α) (s : σ) (P : α → σ → Prop) (Q : ε → σ → Prop) : Prop :=
  match m s with
  | .ok a s' => P a s'
  | .error e s' => Q e s'

theorem bind_eq_ok {m : EStateM ε σ α} {f : α → EStateM ε σ β} :
    (m >>= f) s = .ok b s'' ↔ ∃ a s', m s = .ok a s' ∧ f a s' = .ok b s'' := by
  change EStateM.bind m f s = _ ↔ _
  unfold EStateM.bind
  cases m s with
  | ok a s' =>
    constructor
    · intro h
      exact ⟨a, s', rfl, h⟩
    · rintro ⟨_, _, ⟨⟩, h⟩
      exact h
  | error e s' => simp

theorem bind_of_ok {m : EStateM ε σ α} (f : α → EStateM ε σ β) (h : m s = .ok a s') :
    (m >>= f) s = f a s' := by
  change EStateM.bind m f s = _
  simp only [EStateM.bind, h]

theorem bind_of_error {m : EStateM ε σ α} (f : α → EStateM ε σ β) (h : m s = .error e s') :
    (m >>= f) s = .error e s' := by
  change EStateM.bind m f s = _
  simp only [EStateM.bind, h]

theorem exists_ok_of_run' {m : EStateM ε σ α} {g : α → β} (h : (m.run' s).map g = some b) :
    ∃ a s', m s = .ok a s' ∧ g a = b := by
  delta EStateM.run' EStateM.run at h
  cases hm : m s with
  | error e s' =>
    rw [hm] at h
    cases h
  | ok a s' =>
    rw [hm] at h
    exact ⟨a, s', rfl, Option.some.inj h⟩

namespace Ends

variable {m : EStateM ε σ α} {f : α → EStateM ε σ β}

theorem of_ok (h : Ends m s P Q) (hm : m s = .ok a s') : P a s' := by
  simpa only [Ends, hm] using h

theorem of_error (h : Ends m s P Q) (hm : m s = .error e s') : Q e s' := by
  simpa only [Ends, hm] using h

theorem mono (h : Ends m s P Q) (hg : ∀ a s', P a s' → P' a s')
    (hb : ∀ e s', Q e s' → Q' e s') : Ends m s P' Q' := by
  unfold Ends at h ⊢
  cases hm : m s with
  | ok a s' => exact hg a s' (by simpa only [hm] using h)
  | error e s' => exact hb e s' (by simpa only [hm] using h)

theorem imp (h : Ends m s P Q) (hg : ∀ a s', P a s' → P' a s') :
    Ends m s P' Q :=
  h.mono hg fun _ _ hb => hb

theorem pure (h : P a s) : Ends (Pure.pure a : EStateM ε σ α) s P Q := h

theorem bind (h : Ends m s M Q) (hf : ∀ a s', M a s' → Ends (f a) s' P Q) :
    Ends (m >>= f) s P Q := by
  unfold Ends at h
  cases hm : m s with
  | ok a s' =>
    rw [hm] at h
    have hf := hf a s' h
    unfold Ends at hf ⊢
    rwa [bind_of_ok f hm]
  | error e s' =>
    rw [hm] at h
    unfold Ends
    change match EStateM.bind m f s with | .ok b s' => P b s' | .error e s' => Q e s'
    simpa only [EStateM.bind, hm] using h

theorem bind_of_ok (hm : m s = .ok a s') (hf : Ends (f a) s' P Q) :
    Ends (m >>= f) s P Q := by
  unfold Ends
  rwa [ResourceScript.bind_of_ok f hm]

theorem bind_of_error (hm : m s = .error e s') (h : Q e s') : Ends (m >>= f) s P Q := by
  unfold Ends
  rwa [ResourceScript.bind_of_error f hm]

/-- Rounds that keep an invariant and bring the measure down go on until there is no more to do. -/
theorem repeatWhile {step : α → EStateM ε σ α} {measure : σ → Nat} {more : σ → Bool}
    {I : α → σ → Prop}
    (hstep : ∀ a s, I a s → more s = true →
      Ends (step a) s (fun b s' => I b s' ∧ measure s' < measure s) Q)
    (h : I a s) :
    Ends (repeatWhile measure more step a) s (fun b s' => I b s' ∧ more s' = false) Q := by
  fun_induction ResourceScript.repeatWhile measure more step a s with
  | case1 a s hm b s' hs hlt ih =>
    have hb := (hstep a s h hm).of_ok hs
    have hi := ih hb.1
    unfold Ends at hi ⊢
    rw [ResourceScript.repeatWhile]
    simpa only [hm, hs, hlt, if_true] using hi
  | case2 a s hm b s' hs hlt => exact absurd ((hstep a s h hm).of_ok hs).2 hlt
  | case3 a s hm e s' hs =>
    have hb := (hstep a s h hm).of_error hs
    unfold Ends
    rw [ResourceScript.repeatWhile]
    simpa only [hm, hs, if_true] using hb
  | case4 a s hm =>
    unfold Ends
    rw [ResourceScript.repeatWhile]
    simpa only [hm, if_false] using ⟨h, by simpa using hm⟩

theorem get_bind {f : σ → EStateM ε σ α} (h : Ends (f s) s P Q) : Ends (get >>= f) s P Q := h

theorem set_bind {f : PUnit → EStateM ε σ α} (h : Ends (f ()) s' P Q) :
    Ends (set s' >>= f) s P Q := h

theorem tryCatch {handle : ε → EStateM ε σ α} (h : Ends m s P Q)
    (hhandle : ∀ e s', Q e s' → Ends (handle e) s' P Q') :
    Ends (tryCatchThe ε m handle) s P Q' := by
  unfold Ends at h ⊢
  change match EStateM.tryCatch m handle s with | .ok a s' => P a s' | .error e s' => Q' e s'
  unfold EStateM.tryCatch
  cases hm : m s with
  | ok a s' => rwa [hm] at h
  | error e s' =>
    rw [hm] at h
    exact hhandle e s' h

end Ends

theorem repeatWhile_round {step : α → EStateM ε σ α} {measure : σ → Nat} {more : σ → Bool}
    (hm : more s = true) (hs : step a s = .ok b s') (hlt : measure s' < measure s) :
    repeatWhile measure more step a s = repeatWhile measure more step b s' := by
  conv => lhs; rw [repeatWhile]
  simp only [hm, hs, hlt, if_true]

theorem repeatWhile_done {step : α → EStateM ε σ α} {measure : σ → Nat} {more : σ → Bool}
    (hm : more s = false) : repeatWhile measure more step a s = .ok a s := by
  rw [repeatWhile]
  simp only [hm, Bool.false_eq_true, if_false]

namespace Compilation

theorem ends_onCursor {m : CursorM α} {s : Session}
    (h : Ends m s.cursor (fun a c => P a { s with cursor := c })
      fun e c => Q e { s with cursor := c }) :
    Ends (onCursor m) s P Q := by
  unfold Ends onCursor at *
  cases hm : m s.cursor with
  | ok a c => simpa only [hm] using h
  | error e c => simpa only [hm] using h

theorem onCursor_of_error {m : CursorM α} {s : Session} (h : m s.cursor = .error e c) :
    onCursor m s = .error e { s with cursor := c } := by
  simp only [onCursor, h]

theorem onCursor_of_ok {m : CursorM α} {s : Session} (h : m s.cursor = .ok a c) :
    onCursor m s = .ok a { s with cursor := c } := by
  simp only [onCursor, h]

theorem ends_ofExcept {e : Except Failure α} {s : Session} (hg : ∀ a, e = .ok a → P a s)
    (hb : ∀ f, e = .error f → Q f s) : Ends (ofExcept e) s P Q := by
  unfold Ends ofExcept
  cases e with
  | ok a => exact hg a rfl
  | error f => exact hb f rfl

theorem ends_ok {s : Session} (h : P a s) : Ends (ofExcept (.ok a)) s P Q := h

theorem ends_error {s : Session} (h : Q f s) :
    Ends (ofExcept (.error f) : Compilation α) s P Q := h

theorem ends_ok_bind {e : Except Failure α} {f : α → Compilation β} {s : Session} (he : e = .ok a)
    (h : Ends (f a) s P Q) : Ends (ofExcept e >>= f) s P Q := by
  rw [he]
  exact h

theorem ofExcept_of_ok {e : Except Failure α} {s : Session} (h : e = .ok a) :
    ofExcept e s = .ok a s := by
  rw [h]
  rfl

theorem ofExcept_of_error {e : Except Failure α} {s : Session} (h : e = .error f) :
    ofExcept e s = .error f s := by
  rw [h]
  rfl

theorem ends_note {line : Text} {s : Session}
    (h : P () { s with journal := s.journal ++ [line] }) : Ends (note line) s P Q := h

theorem ends_locating {m : Compilation α} {position : Position} {s : Session}
    (h : Ends m s P fun e s' => Q (e.locate position) s') :
    Ends (locating position m) s P Q := by
  unfold Ends locating at *
  cases hm : m s with
  | ok a s' => simpa only [hm] using h
  | error e s' => simpa only [hm] using h

theorem locating_of_ok {m : Compilation α} {position : Position} {s : Session}
    (h : m s = .ok a s') : locating position m s = .ok a s' := by
  simp only [locating, h]

end Compilation

end ResourceScript
