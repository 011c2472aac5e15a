import Mathlib.Data.List.Forall2
import ResourceScript.Proofs.Outcome

namespace ResourceScript

variable {c c' c'' : Cursor} {t : Token} {ts us : List Token} {e : Expectation}
  {es : List Expectation} {k : LexemeKind} {α : Type} {Q : Failure → Cursor → Prop}

namespace Cursor

theorem advance_zero (c : Cursor) : c.advance 0 = c := by
  simp [advance]

def stream (c : Cursor) : List Token :=
  c.rest ++ [c.last]

/-- Consuming the tokens `ts` leads from `c` to `c'`. -/
structure Moves (c : Cursor) (ts : List Token) (c' : Cursor) : Prop where
  rest : c.rest = ts ++ c'.rest
  last : c'.last = c.last
  index : c'.index = c.index + ts.length

theorem Moves.refl (c : Cursor) : c.Moves [] c :=
  ⟨rfl, rfl, rfl⟩

theorem Moves.trans (h : Moves c ts c') (h' : Moves c' us c'') : Moves c (ts ++ us) c'' where
  rest := by rw [h.rest, h'.rest, List.append_assoc]
  last := h'.last.trans h.last
  index := by rw [h'.index, h.index, List.length_append, Nat.add_assoc]

theorem Moves.stream (h : Moves c ts c') : c.stream = ts ++ c'.stream := by
  simp only [Cursor.stream, h.rest, h.last, List.append_assoc]

theorem Moves.suffix (h : Moves c ts c') (hc : c.stream <:+ tokens) : c'.stream <:+ tokens := by
  rw [h.stream] at hc
  exact (List.suffix_append ts c'.stream).trans hc

theorem Moves.isInfix (h : Moves c ts c') (hc : c.stream <:+ tokens) : ts <:+: tokens := by
  rw [h.stream] at hc
  exact (List.prefix_append ts c'.stream).isInfix.trans hc.isInfix

theorem Moves.length (h : Moves c ts c') : c.rest.length = ts.length + c'.rest.length := by
  rw [h.rest, List.length_append]

theorem moves_advance (h : c.rest = ts ++ us) : c.Moves ts (c.advance ts.length) where
  rest := by simp [advance, h]
  last := rfl
  index := by simp [advance, h]

theorem Moves.eq_advance (h : Moves c ts c') : c' = c.advance ts.length := by
  obtain ⟨rest, last, index⟩ := h
  cases c'
  simp_all [advance]

theorem Moves.eq_of_nil (h : Moves c [] c') : c' = c :=
  h.eq_advance.trans c.advance_zero

theorem Moves.split (h : Moves c (ts ++ us) c'') : ∃ c', c.Moves ts c' ∧ c'.Moves us c'' := by
  have h₁ := moves_advance (h.rest.trans (List.append_assoc ts us c''.rest))
  refine ⟨_, h₁, ?_, ?_, ?_⟩
  · have hr := h.rest
    rw [h₁.rest, List.append_assoc] at hr
    exact List.append_cancel_left hr
  · exact h.last.trans h₁.last.symm
  · rw [h.index, h₁.index, List.length_append, Nat.add_assoc]

theorem Moves.split_cons (h : Moves c (t :: us) c'') : ∃ c', c.Moves [t] c' ∧ c'.Moves us c'' := by
  have h : Moves c ([t] ++ us) c'' := h
  exact h.split

theorem advance_advance (c : Cursor) (m n : Nat) : (c.advance m).advance n = c.advance (m + n) := by
  simp only [advance, List.drop_drop, List.length_drop, mk.injEq, true_and]
  omega

theorem peek_advance (c : Cursor) (m n : Nat) : (c.advance m).peek n = c.peek (m + n) := by
  simp [peek, advance]

theorem peek_mem_stream (c : Cursor) : c.peek ∈ c.stream := by
  unfold peek stream
  cases c.rest with
  | nil => simp
  | cons t ts => simp

theorem peek_of_moves (h : Moves c (t :: ts) c') : c.peek = t := by
  simp [peek, h.rest]

theorem moves_peek (h : c.peek.kind ≠ .endOfInput) : c.Moves [c.peek] c.advance := by
  cases hr : c.rest with
  | nil =>
    have hp : c.peek = c.last := by simp [peek, hr]
    exact absurd (hp ▸ c.last_kind) h
  | cons t ts =>
    have hp : c.peek = t := by simp [peek, hr]
    rw [hp]
    have hr : c.rest = [t] ++ ts := hr
    exact moves_advance hr

theorem mem_stream_of_mismatch (h : c.mismatch? es = some (e, t)) : t ∈ c.stream := by
  induction es generalizing c with
  | nil => simp [mismatch?] at h
  | cons e' es ih =>
    rw [mismatch?] at h
    split at h
    · have ht := ih h
      simp only [stream, advance, List.mem_append] at ht ⊢
      exact ht.imp_left fun ht => List.mem_of_mem_drop ht
    · obtain ⟨-, rfl⟩ := by simpa using h
      exact c.peek_mem_stream

theorem stream_of_ofTokens (h : ofTokens tokens = .ok c) : c.stream = tokens := by
  rw [ofTokens] at h
  split at h
  case h_1 last hlast =>
    split at h
    · obtain rfl := Except.ok.inj h
      obtain ⟨ts, rfl⟩ := List.getLast?_eq_some_iff.mp hlast
      simp [stream]
    · simp at h
  case h_2 => simp at h

theorem dropLast_stream (c : Cursor) : c.stream.dropLast = c.rest :=
  List.dropLast_concat

theorem Moves.eq_rest (h : Moves c ts c') (hend : ∀ t ∈ c.rest, t.kind ≠ .endOfInput)
    (hk : c'.peek.kind = .endOfInput) : ts = c.rest := by
  cases hr : c'.rest with
  | nil => rw [h.rest, hr, List.append_nil]
  | cons t us =>
    have hp : c'.peek = t := by simp [peek, hr]
    refine absurd (hp ▸ hk) (hend t ?_)
    rw [h.rest, hr]
    exact List.mem_append_right ts List.mem_cons_self

theorem moves_rest (c : Cursor) : c.Moves c.rest (c.advance c.rest.length) :=
  moves_advance (List.append_nil _).symm

theorem peek_advance_rest (c : Cursor) : (c.advance c.rest.length).peek = c.last := by
  simp [peek, advance]

end Cursor

/-- An expectation that the end of input does not meet. -/
def Expectation.IsSolid (e : Expectation) : Prop :=
  e.expected = true ∧ e.kind ≠ .endOfInput

theorem Expectation.IsSolid.kind_ne (he : e.IsSolid) (h : e.isMetBy t = true) :
    t.kind ≠ .endOfInput := by
  have hf : e.fits t = true := by simpa [isMetBy, he.1] using h
  have hk : t.kind = e.kind := by
    rw [fits, Bool.and_eq_true, beq_iff_eq] at hf
    exact hf.1
  rw [hk]
  exact he.2

theorem Expectation.isMetBy_ofKind : (ofKind k).isMetBy t = true ↔ t.kind = k := by
  simp [isMetBy, fits, ofKind]

theorem Expectation.isMetBy_word :
    (word s).isMetBy t = true ↔ t.kind = .identifier ∧ t.text = s := by
  simp only [isMetBy, fits, word, Option.all_some, beq_true, Bool.and_eq_true, beq_iff_eq]
  exact and_congr_right fun _ => eq_comm

theorem Expectation.isMetBy_anythingBut : (anythingBut k).isMetBy t = true ↔ t.kind ≠ k := by
  simp [isMetBy, fits, anythingBut]

namespace Cursor

theorem expects_cons : expects c (e :: es) = (e.isMetBy c.peek && c.advance.expects es) := by
  unfold expects
  rw [mismatch?]
  cases e.isMetBy c.peek <;> simp

theorem expects_nil : expects c [] = true := rfl

theorem expects_single : expects c [e] = e.isMetBy c.peek := by
  rw [expects_cons, expects_nil, Bool.and_true]

theorem moves_of_expects (hs : ∀ e ∈ es, Expectation.IsSolid e) (h : expects c es = true) :
    ∃ ts, List.Forall₂ (fun e t => Expectation.isMetBy e t = true) es ts ∧
      c.Moves ts (c.advance es.length) := by
  induction es generalizing c with
  | nil => exact ⟨[], .nil, by simpa [advance_zero] using Moves.refl c⟩
  | cons e es ih =>
    rw [expects_cons, Bool.and_eq_true] at h
    obtain ⟨ts, ht, hm⟩ := ih (fun e he => hs e (List.mem_cons_of_mem _ he)) h.2
    have hp := moves_peek ((hs e List.mem_cons_self).kind_ne h.1)
    refine ⟨c.peek :: ts, .cons h.1 ht, ?_⟩
    rw [advance_advance, Nat.add_comm] at hm
    exact hp.trans hm

theorem expects_of_moves (h : c.Moves ts c')
    (ht : List.Forall₂ (fun e t => Expectation.isMetBy e t = true) es ts) :
    expects c es = true := by
  induction ht generalizing c with
  | nil => rfl
  | cons he hes ih =>
    obtain ⟨c₁, h₁, h₂⟩ := h.split_cons
    have ha : c₁ = c.advance := h₁.eq_advance
    rw [expects_cons, peek_of_moves h, he, ← ha, ih h₂, Bool.and_self]

end Cursor

namespace CursorM

theorem ends_peek_bind {f : Token → CursorM α} (h : Ends (f c.peek) c P Q) :
    Ends (peek >>= f) c P Q := h

theorem ends_read_bind {f : Token → CursorM α} (h : Ends (f c.peek) c.advance P Q) :
    Ends (read >>= f) c P Q := h

theorem ends_expects_bind {f : Bool → CursorM α} (h : Ends (f (c.expects es)) c P Q) :
    Ends (expects es >>= f) c P Q := h

theorem expects_eq (h : c.expects es = x) : expects es c = .ok x c := by
  rw [expects, h]

theorem isAt_eq : isAt k c = .ok (c.peek.kind == k) c := by
  have he : c.expects [.ofKind k] = (c.peek.kind == k) := by
    rw [Cursor.expects_single, Bool.eq_iff_iff, Expectation.isMetBy_ofKind, beq_iff_eq]
  rw [isAt, expects, he]

theorem ends_isAt_bind {f : Bool → CursorM α} (h : Ends (f (c.peek.kind == k)) c P Q) :
    Ends (isAt k >>= f) c P Q := by
  unfold Ends
  rwa [bind_of_ok f isAt_eq]

theorem peek_eq : peek c = .ok c.peek c := rfl

theorem peek_of_moves (h : c.Moves (t :: ts) c') : peek c = .ok t c := by
  rw [peek, Cursor.peek_of_moves h]

theorem read_of_moves (h : c.Moves [t] c') : read c = .ok t c' := by
  have ha : c' = c.advance := h.eq_advance
  rw [ha, read, c.peek_of_moves h]

theorem ends_ensure (hs : ∀ e ∈ es, Expectation.IsSolid e)
    (hg : ∀ ts us c', List.Forall₂ (fun e t => Expectation.isMetBy e t = true) es ts →
      c.Moves ts c' → P us c')
    (hb : ∀ e, ∀ t ∈ c.stream, Q ((Problem.unexpectedToken e t).at t.position) c) :
    Ends (ensure es) c P Q := by
  unfold Ends ensure
  cases hm : c.mismatch? es with
  | some p => exact hb p.1 p.2 (Cursor.mem_stream_of_mismatch hm)
  | none =>
    obtain ⟨ts, ht, hc⟩ := Cursor.moves_of_expects hs (by rw [Cursor.expects, hm]; rfl)
    exact hg ts _ _ ht hc

theorem expects_of_ensure (h : ensure es c = .ok ts c') : c.expects es = true := by
  rw [ensure] at h
  rw [Cursor.expects]
  split at h
  case h_1 => cases h
  case h_2 hm => rw [hm, Option.isNone_none]

theorem ensure_of_moves (h : c.Moves ts c')
    (ht : List.Forall₂ (fun e t => Expectation.isMetBy e t = true) es ts) :
    ∃ us, ensure es c = .ok us c' := by
  have he := Cursor.expects_of_moves h ht
  rw [Cursor.expects, Option.isNone_iff_eq_none] at he
  rw [ensure, he, h.eq_advance, ht.length_eq]
  exact ⟨_, rfl⟩

theorem ends_ensureKind (hk : k ≠ .endOfInput)
    (hg : ∀ t c', t.kind = k → c.Moves [t] c' → P () c')
    (hb : ∀ e, ∀ t ∈ c.stream, Q ((Problem.unexpectedToken e t).at t.position) c) :
    Ends (ensureKind k) c P Q := by
  refine Ends.bind (ends_ensure (by simp [Expectation.IsSolid, Expectation.ofKind, hk]) ?_ hb)
    fun _ _ h => Ends.pure h
  intro ts _ c' ht hc
  cases ht with
  | cons h hn =>
    cases hn
    exact hg _ c' (Expectation.isMetBy_ofKind.mp h) hc

theorem ensureKind_of_moves (h : c.Moves [t] c') (ht : t.kind = k) :
    ensureKind k c = .ok () c' := by
  obtain ⟨us, hu⟩ := ensure_of_moves h (.cons (Expectation.isMetBy_ofKind.mpr ht) .nil)
  exact bind_of_ok _ hu

theorem ends_fail {f : Failure} (h : Q f c) : Ends (fail f : CursorM α) c P Q := h

theorem ends_ofExcept {e : Except Failure α} (hg : ∀ a, e = .ok a → P a c)
    (hb : ∀ f, e = .error f → Q f c) : Ends (ofExcept e) c P Q := by
  cases e with
  | ok a => exact hg a rfl
  | error f => exact hb f rfl

end CursorM

end ResourceScript
