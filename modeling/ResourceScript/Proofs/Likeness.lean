import Mathlib.Data.List.Forall2
import ResourceScript.Proofs.Agreement
import ResourceScript.Proofs.Stream

namespace ResourceScript

/-- Tokens of one lexeme and text, at places that `R` relates. -/
inductive Token.Alike (R : Position → Position → Prop) : Token → Token → Prop where
  | mk {lexeme : Lexeme} {text : String} : R p q → Alike R ⟨lexeme, text, p⟩ ⟨lexeme, text, q⟩

/-- Problems that are reported in the same way, but for their places. -/
structure Problem.Alike (cause cause' : Problem) : Prop where
  category : cause'.category = cause.category
  code : cause'.code = cause.code
  message : cause'.message = cause.message
  context : cause'.context = cause.context

/-- The same fault, or problems that are reported in the same way at places that `R` relates. -/
inductive Failure.Alike (R : Position → Position → Prop) : Failure → Failure → Prop where
  | problem : cause.Alike cause' → Option.Rel R place place' →
      Alike R (.problem cause place) (.problem cause' place')
  | fault : Alike R (.fault f) (.fault f)

/-- Cursors that have tokens before them that are alike. -/
structure Cursor.Alike (R : Position → Position → Prop) (c c' : Cursor) : Prop where
  rest : List.Forall₂ (Token.Alike R) c.rest c'.rest
  last : c.last.Alike R c'.last

/-- Relations between cursors that have tokens before them that are alike, if not all of them then
at least those up to an equals sign. -/
class Cursor.Kin (R : outParam (Position → Position → Prop)) (S : Cursor → Cursor → Prop) :
    Prop where
  peek : S c c' → c.peek.Alike R c'.peek
  length_eq : S c c' → c'.rest.length = c.rest.length
  advance : S c c' → c.peek.kind ≠ .equals → S c.advance c'.advance

/-- The next tokens of two cursors are alike, as many as given. -/
def Cursor.AlikeFor (R : Position → Position → Prop) (n : Nat) (c c' : Cursor) : Prop :=
  ∀ i < n, (c.peek i).Alike R (c'.peek i)

def Cursor.Past (n : Nat) (c c' d d' : Cursor) : Prop :=
  d = c.advance n ∧ d' = c'.advance n

/-- The places behind the next token of two cursors, which is no equals sign. -/
structure Cursor.Next (c c' d d' : Cursor) : Prop where
  past : Past 1 c c' d d'
  passable : c.peek.kind ≠ .equals

abbrev CursorM.EndsAlike (R : Position → Position → Prop) (S : Cursor → Cursor → Prop)
    (P : α → α → Prop) (r r' : EStateM.Result Failure Cursor α) : Prop :=
  ResourceScript.EndsAlike S (fun _ _ => True) (Failure.Alike R) P r r'

abbrev CursorM.Agree (R : Position → Position → Prop) (S : Cursor → Cursor → Prop)
    (P : α → α → Prop)
    (m m' : CursorM α) : Prop :=
  ResourceScript.Agree S (fun _ _ => True) (Failure.Alike R) P m m'

/-- Readers that look at the next token alone. They agree if it is alike, and take it unless they
fail. -/
def CursorM.AgreeOnToken (R : Position → Position → Prop) (P : α → α → Prop) (m m' : CursorM α) :
    Prop :=
  ∀ c c', c.peek.Alike R c'.peek → EndsAlike R (c.Next c') P (m c) (m' c')

variable {R : Position → Position → Prop} {S : Cursor → Cursor → Prop} {token token' : Token}
  {c c' : Cursor} {e e' : Failure} {n : Nat} {es : List Expectation}

namespace Token.Alike

theorem lexeme_eq (h : token.Alike R token') : token'.lexeme = token.lexeme := by
  cases h
  rfl

theorem kind_eq (h : token.Alike R token') : token'.kind = token.kind := by
  cases h
  rfl

theorem position (h : token.Alike R token') : R token.position token'.position := by
  cases h with
  | mk hp => exact hp

theorem isMetBy (h : token.Alike R token') (e : Expectation) :
    e.isMetBy token' = e.isMetBy token := by
  cases h
  rfl

end Token.Alike

theorem Problem.Alike.refl (cause : Problem) : cause.Alike cause :=
  ⟨rfl, rfl, rfl, rfl⟩

namespace Failure.Alike

theorem at_place {cause cause' : Problem} (hp : R p q) (hc : cause.Alike cause') :
    (cause.at p).Alike R (cause'.at q) :=
  .problem hc (.some hp)

theorem anywhere (cause : Problem) : cause.anywhere.Alike R cause.anywhere :=
  .problem (.refl cause) .none

theorem locate (h : e.Alike R e') (hp : R p q) : (e.locate p).Alike R (e'.locate q) := by
  cases h with
  | problem hc hplace =>
    cases hplace with
    | none => exact .problem hc (.some hp)
    | some hr => exact .problem hc (.some hr)
  | fault => exact .fault

end Failure.Alike

namespace Cursor.Alike

theorem peek (h : c.Alike R c') : c.peek.Alike R c'.peek := by
  obtain ⟨hrest, hlast⟩ := h
  unfold Cursor.peek
  generalize c.rest = ts at hrest ⊢
  generalize c'.rest = us at hrest ⊢
  cases hrest with
  | nil => exact hlast
  | cons ht _ => exact ht

theorem advance (h : c.Alike R c') (n : Nat) : (c.advance n).Alike R (c'.advance n) where
  rest := List.forall₂_drop n h.rest
  last := h.last

theorem length_eq (h : c.Alike R c') : c'.rest.length = c.rest.length :=
  h.rest.length_eq.symm

end Cursor.Alike

instance : Cursor.Kin R (Cursor.Alike R) where
  peek := Cursor.Alike.peek
  length_eq := Cursor.Alike.length_eq
  advance h _ := h.advance 1

namespace Cursor

theorem AlikeFor.peek (h : AlikeFor R (n + 1) c c') : c.peek.Alike R c'.peek :=
  h 0 (Nat.succ_pos n)

theorem AlikeFor.advance (h : AlikeFor R (k + n) c c') :
    AlikeFor R n (c.advance k) (c'.advance k) := by
  intro i hi
  rw [peek_advance, peek_advance]
  exact h (k + i) (Nat.add_lt_add_left hi k)

theorem AlikeFor.cons (h : c.peek.Alike R c'.peek) (hn : AlikeFor R n c.advance c'.advance) :
    AlikeFor R (n + 1) c c' := by
  intro i hi
  cases i with
  | zero => exact h
  | succ i =>
    have hnext := hn i (Nat.lt_of_succ_lt_succ hi)
    rwa [peek_advance, peek_advance, Nat.add_comm] at hnext

theorem AlikeFor.expects_eq (h : AlikeFor R es.length c c') : c'.expects es = c.expects es := by
  induction es generalizing c c' with
  | nil => rfl
  | cons e es ih =>
    have hrest : AlikeFor R es.length c.advance c'.advance := by
      apply AlikeFor.advance
      rwa [Nat.add_comm]
    rw [expects_cons, expects_cons, h.peek.isMetBy, ih hrest]

/-- Cursors that `S` relates it relates again behind a token that meets the expectation. -/
def Passes (S : Cursor → Cursor → Prop) (e : Expectation) : Prop :=
  ∀ c c', S c c' → e.isMetBy c.peek = true → S c.advance c'.advance

theorem Passes.of_ne [Kin R S] {e : Expectation} (h : e.IsSolid) (hk : e.kind ≠ .equals) :
    Passes S e := by
  intro c c' hc hmet
  have hkind : c.peek.kind = e.kind := by
    have hfits : e.fits c.peek = true := by simpa [Expectation.isMetBy, h.1] using hmet
    rw [Expectation.fits, Bool.and_eq_true, beq_iff_eq] at hfits
    exact hfits.1
  exact Kin.advance hc (hkind ▸ hk)

theorem Passes.ofKind [Kin R S] (h : k ≠ .endOfInput) (hk : k ≠ .equals) : Passes S (.ofKind k) :=
  .of_ne ⟨rfl, h⟩ hk

theorem Passes.word [Kin R S] (s : String) : Passes S (.word s) :=
  .of_ne ⟨rfl, nofun⟩ nofun

namespace Kin

theorem isMetBy [Kin R S] (h : S c c') (e : Expectation) : e.isMetBy c'.peek = e.isMetBy c.peek :=
  Token.Alike.isMetBy (Kin.peek h) e

theorem expects_one [Kin R S] (h : S c c') (e : Expectation) : c'.expects [e] = c.expects [e] := by
  rw [expects_single, expects_single, Kin.isMetBy h]

theorem isFinished_eq [Kin R S] (h : S c c') : c'.isFinished = c.isFinished := by
  rw [isFinished, isFinished, Token.Alike.kind_eq (Kin.peek h)]

theorem expects_eq [Kin R S] (hes : ∀ e ∈ es, Passes S e) (h : S c c') :
    c'.expects es = c.expects es := by
  induction es generalizing c c' with
  | nil => rfl
  | cons e es ih =>
    obtain ⟨he, hes⟩ := List.forall_mem_cons.mp hes
    rw [expects_cons, expects_cons, Kin.isMetBy h]
    cases hmet : e.isMetBy c.peek with
    | true => rw [ih hes (he c c' h hmet)]
    | false => rfl

theorem past_expects [Kin R S] (hes : ∀ e ∈ es, Passes S e) (h : S c c')
    (hmet : c.expects es = true) :
    AlikeFor R es.length c c' ∧ S (c.advance es.length) (c'.advance es.length) := by
  induction es generalizing c c' with
  | nil =>
    rw [List.length_nil, advance_zero, advance_zero]
    exact ⟨nofun, h⟩
  | cons e es ih =>
    obtain ⟨he, hes⟩ := List.forall_mem_cons.mp hes
    rw [expects_cons, Bool.and_eq_true] at hmet
    obtain ⟨halike, hpast⟩ := ih hes (he c c' h hmet.1) hmet.2
    rw [advance_advance, advance_advance, Nat.add_comm] at hpast
    exact ⟨.cons (Kin.peek h) halike, hpast⟩

theorem mismatch [Kin R S] (hes : ∀ e ∈ es, Passes S e) (h : S c c') :
    Option.Rel (fun p q => q.1 = p.1 ∧ p.2.Alike R q.2) (c.mismatch? es) (c'.mismatch? es) := by
  induction es generalizing c c' with
  | nil => exact .none
  | cons e es ih =>
    obtain ⟨he, hes⟩ := List.forall_mem_cons.mp hes
    rw [mismatch?, mismatch?, Kin.isMetBy h]
    split
    case isTrue hmet => exact ih hes (he c c' h hmet)
    case isFalse => exact .some ⟨rfl, Kin.peek h⟩

end Kin

end Cursor

namespace CursorM

variable {P : α → α → Prop}

theorem endsAlike_fail (h : e.Alike R e') : EndsAlike R S P (fail e c) (fail e' c') :=
  .error h trivial

theorem endsAlike_ofExcept {x x' : Except Failure α} (h : x.Agree (Failure.Alike R) P x')
    (hs : S c c') : EndsAlike R S P (ofExcept x c) (ofExcept x' c') := by
  cases h with
  | ok hab => exact .ok hab hs
  | error he => exact .error he trivial

theorem endsAlike_peek {f f' : Token → CursorM α}
    (h : EndsAlike R S P (f c.peek c) (f' c'.peek c')) :
    EndsAlike R S P ((peek >>= f) c) ((peek >>= f') c') := h

theorem endsAlike_read {f f' : Token → CursorM α}
    (h : EndsAlike R S P (f c.peek c.advance) (f' c'.peek c'.advance)) :
    EndsAlike R S P ((read >>= f) c) ((read >>= f') c') := h

theorem endsAlike_expects {f f' : Bool → CursorM α}
    (h : EndsAlike R S P (f (c.expects es) c) (f' (c'.expects es) c')) :
    EndsAlike R S P ((expects es >>= f) c) ((expects es >>= f') c') := h

theorem agree_fail (h : e.Alike R e') : Agree R S P (fail e) (fail e') := fun _ _ _ =>
  endsAlike_fail h

theorem agree_ofExcept {x x' : Except Failure α} (h : x.Agree (Failure.Alike R) P x') :
    Agree R S P (ofExcept x) (ofExcept x') := fun _ _ hc =>
  endsAlike_ofExcept h hc

theorem endsAlike_blame {cause : Token → Problem} (ht : c.peek.Alike R c'.peek)
    (h : ∀ lexeme text p q, (cause ⟨lexeme, text, p⟩).Alike (cause ⟨lexeme, text, q⟩)) :
    EndsAlike R S P ((peek >>= fun token => fail ((cause token).at token.position)) c)
      ((peek >>= fun token => fail ((cause token).at token.position)) c') := by
  change EndsAlike R S P (fail ((cause c.peek).at c.peek.position) c)
    (fail ((cause c'.peek).at c'.peek.position) c')
  generalize c.peek = token at ht ⊢
  generalize c'.peek = token' at ht ⊢
  cases ht with
  | mk hp => exact endsAlike_fail (.at_place hp (h _ _ _ _))

theorem AgreeOnToken.of_token {f f' : Token → CursorM α}
    (h : ∀ lexeme text p q c c', R p q → (lexeme.kind ≠ .equals → c.Next c' c.advance c'.advance) →
      EndsAlike R (c.Next c') P (f ⟨lexeme, text, p⟩ c) (f' ⟨lexeme, text, q⟩ c')) :
    AgreeOnToken R P (peek >>= f) (peek >>= f') := by
  intro c c' ht
  have hnext : c.peek.kind ≠ .equals → c.Next c' c.advance c'.advance := fun hk => ⟨⟨rfl, rfl⟩, hk⟩
  apply endsAlike_peek
  generalize c.peek = token at ht hnext ⊢
  generalize c'.peek = token' at ht ⊢
  cases ht with
  | mk hp => exact h _ _ _ _ _ _ hp hnext

theorem AgreeOnToken.agree [Cursor.Kin R S] {m m' : CursorM α} (h : AgreeOnToken R P m m') :
    Agree R S P m m' := by
  intro c c' hc
  apply (h c c' (Cursor.Kin.peek hc)).mono
  rintro _ _ ⟨⟨rfl, rfl⟩, hk⟩
  exact Cursor.Kin.advance hc hk

theorem AgreeOnToken.bind_eq {m m' : CursorM α} {f f' : α → CursorM α'} {Q : α' → α' → Prop}
    (h : AgreeOnToken R Eq m m') (hf : ∀ S a, Agree R S Q (f a) (f' a)) :
    AgreeOnToken R Q (m >>= f) (m' >>= f') := fun c c' ht =>
  (h c c' ht).bind_eq fun a d d' hd => hf (c.Next c') a d d' hd

theorem agree_peek [Cursor.Kin R S] : Agree R S (Token.Alike R) peek peek := fun _ _ hc =>
  .ok (Cursor.Kin.peek hc) hc

theorem agree_blame [Cursor.Kin R S] {cause : Token → Problem}
    (h : ∀ lexeme text p q, (cause ⟨lexeme, text, p⟩).Alike (cause ⟨lexeme, text, q⟩)) :
    Agree R S P (peek >>= fun token => fail ((cause token).at token.position))
      (peek >>= fun token => fail ((cause token).at token.position)) := fun _ _ hc =>
  endsAlike_blame (Cursor.Kin.peek hc) h

theorem agree_expects [Cursor.Kin R S] (e : Expectation) :
    Agree R S Eq (expects [e]) (expects [e]) := fun _ _ hc =>
  .ok (Cursor.Kin.expects_one hc e).symm hc

theorem agree_isAt [Cursor.Kin R S] (k : LexemeKind) : Agree R S Eq (isAt k) (isAt k) :=
  agree_expects _

theorem agree_ensure [Cursor.Kin R S] (hes : ∀ e ∈ es, Cursor.Passes S e) :
    Agree R S (fun _ _ => True) (ensure es) (ensure es) := by
  intro c c' hc
  have hm := Cursor.Kin.mismatch hes hc
  have hpast := Cursor.Kin.past_expects hes hc
  rw [Cursor.expects] at hpast
  rw [ensure, ensure]
  generalize c.mismatch? es = x at hm hpast ⊢
  generalize c'.mismatch? es = x' at hm ⊢
  cases hm with
  | none => exact .ok trivial (hpast rfl).2
  | @some p q hpq =>
    obtain ⟨expected, found⟩ := p
    obtain ⟨_, found'⟩ := q
    obtain ⟨rfl, ht⟩ := hpq
    cases ht with
    | mk hp => exact .error (.at_place hp ⟨rfl, rfl, rfl, rfl⟩) trivial

theorem ensureKind_eq (k : LexemeKind) (c : Cursor) :
    ensureKind k c = if c.peek.kind = k then .ok () c.advance
      else .error ((Problem.unexpectedToken (.ofKind k) c.peek).at c.peek.position) c := by
  by_cases hk : c.peek.kind = k
  · have hmet : (Expectation.ofKind k).isMetBy c.peek = true := Expectation.isMetBy_ofKind.mpr hk
    have hnone : c.mismatch? [.ofKind k] = none := by
      rw [Cursor.mismatch?, if_pos hmet, Cursor.mismatch?]
    have hread : ensure [.ofKind k] c = .ok [c.peek] c.advance := by
      rw [ensure, hnone]
      rfl
    rw [if_pos hk]
    exact bind_of_ok _ hread
  · have hmet : ¬(Expectation.ofKind k).isMetBy c.peek = true :=
      fun h => hk (Expectation.isMetBy_ofKind.mp h)
    have hsome : c.mismatch? [.ofKind k] = some (.ofKind k, c.peek) := by
      rw [Cursor.mismatch?, if_neg hmet]
    have hfails : ensure [.ofKind k] c =
        .error ((Problem.unexpectedToken (.ofKind k) c.peek).at c.peek.position) c := by
      rw [ensure, hsome]
    rw [if_neg hk]
    exact bind_of_error _ hfails

theorem endsAlike_ensureKind (k : LexemeKind) (ht : c.peek.Alike R c'.peek) :
    EndsAlike R (fun d d' => c.peek.kind = k ∧ c.Past 1 c' d d') Eq (ensureKind k c)
      (ensureKind k c') := by
  rw [ensureKind_eq, ensureKind_eq, ht.kind_eq]
  split
  case isTrue hk => exact .ok rfl ⟨hk, rfl, rfl⟩
  case isFalse =>
    generalize c.peek = token at ht ⊢
    generalize c'.peek = token' at ht ⊢
    cases ht with
    | mk hp => exact .error (.at_place hp ⟨rfl, rfl, rfl, rfl⟩) trivial

theorem agree_ensureKind (h : Cursor.Passes S (.ofKind k)) [Cursor.Kin R S] :
    Agree R S Eq (ensureKind k) (ensureKind k) := by
  intro c c' hc
  apply (endsAlike_ensureKind k (Cursor.Kin.peek hc)).mono
  rintro _ _ ⟨hk, rfl, rfl⟩
  exact h c c' hc (Expectation.isMetBy_ofKind.mpr hk)

end CursorM

end ResourceScript
