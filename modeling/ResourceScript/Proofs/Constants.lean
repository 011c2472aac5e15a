import ResourceScript.Proofs.Masks
import ResourceScript.Proofs.Uniformity

namespace ResourceScript

def ValueType.tokenCount : ValueType → Nat
  | .rectangle => 4
  | _ => 1

/-- How many tokens the literals of the slots have, one after the other. -/
def TypeTemplate.tokenCount (t : TypeTemplate) (slots : List Slot) : Nat :=
  (slots.map fun slot => (t.typeOf slot.name).tokenCount).sum

namespace Grammar

/-- Terms of a mask with a bar behind each of them. -/
inductive MaskFront : List Token → Prop where
  | nil : MaskFront []
  | cons : term.kind ≠ .semicolon → bar.kind = .pipe → MaskFront ts →
      MaskFront (term :: bar :: ts)

/-- In the value of a field the token behind `us` names a constant of the slot that it is read for,
one of the kind that the slot asks for; `lexeme` is that of a literal of its value. -/
inductive NamesConstant (t : TypeTemplate) (f : FieldTemplate) (us : List Token) (token : Token) :
    Lexeme → Prop where
  | integer {slot : Slot} : f.tag = none → f.slots = done ++ slot :: todo →
      us.length = t.tokenCount done → t.typeOf slot.name = .integer i →
      slot.symbols.lookup token.text = some (.integer n) → NamesConstant t f us token (.integer n)
  | text {slot : Slot} {s : String} : f.tag = none → f.slots = done ++ slot :: todo →
      us.length = t.tokenCount done → (t.typeOf slot.name).isText = true →
      slot.symbols.lookup token.text = some (.text s) →
      NamesConstant t f us token (.string (Text.ofString s))
  | term : Directive.ofField f none = .ok .bitmask → MaskFront us →
      f.first.symbols.lookup token.text = some (.integer n) →
        NamesConstant t f us token (.integer n)

end Grammar

/-- The next `n` tokens of two cursors are alike, and so are all those behind one more. -/
structure Cursor.Parted (R : Position → Position → Prop) (n : Nat) (c c' : Cursor) : Prop where
  front : AlikeFor R n c c'
  behind : (c.advance (n + 1)).Alike R (c'.advance (n + 1))

/-- Sessions of one type, with the same ids taken, whose cursors `S` relates. -/
structure Session.On (S : Cursor → Cursor → Prop) (t : TypeTemplate) (s s' : Session) : Prop where
  cursor : S s.cursor s'.cursor
  registry : s'.registry = s.registry
  active : s.registry.active? = some t

theorem Registry.active?_instantiate {r r' : Registry}
    (h : r.instantiate asked name place = .ok (d, r')) : r'.active? = r.active? := by
  obtain ⟨t, -, h⟩ := Except.bind_eq_ok.mp h
  obtain ⟨⟨id, r₁⟩, hclaim, h⟩ := Except.bind_eq_ok.mp h
  cases h
  obtain ⟨t', -, hclaim⟩ := Except.bind_eq_ok.mp hclaim
  cases asked with
  | none =>
    cases hclaim
    rfl
  | some n =>
    simp only at hclaim
    split at hclaim
    · cases hclaim
    · cases hclaim
      rfl

instance {S : Cursor → Cursor → Prop} {t : TypeTemplate} : Session.Kin S (Session.On S t) where
  cursor h := h.cursor
  registry h := h.registry
  move h hc := ⟨hc, h.registry, h.active⟩
  instantiate h hr := ⟨h.cursor, rfl, (Registry.active?_instantiate hr).trans h.active⟩

variable {R : Position → Position → Prop} {S S' : Cursor → Cursor → Prop}
  {T : Session → Session → Prop} {t : TypeTemplate} {c c' : Cursor} {slot : Slot}
  {token token' : Token} {us : List Token} {type : ValueType} {s s' : Session} {n : Nat}

namespace Cursor

theorem AlikeFor.mono (h : AlikeFor R n c c') (hm : m ≤ n) : AlikeFor R m c c' :=
  fun i hi => h i (Nat.lt_of_lt_of_le hi hm)

theorem Parted.advance (h : Parted R (k + n) c c') : Parted R n (c.advance k) (c'.advance k) where
  front := h.front.advance
  behind := by
    rw [advance_advance, advance_advance, ← Nat.add_assoc]
    exact h.behind

theorem Past.alike (h : Parted R 0 c c') (hd : c.Past 1 c' d d') : d.Alike R d' := by
  obtain ⟨rfl, rfl⟩ := hd
  exact h.behind

end Cursor

namespace FieldScope

open CursorM

variable {scope : FieldScope} {m : Int}

theorem endsAlike_integer (hk : c.peek.lexeme = .identifier)
    (hs : slot.symbols.lookup c.peek.text = some (.integer m)) (hl : c'.peek.lexeme = .integer m)
    (hp : R c.peek.position c'.peek.position) :
    CursorM.EndsAlike R (c.Past 1 c') Eq (scope.integer slot type c)
      (scope.integer slot type c') := by
  apply endsAlike_peek
  simp only [hk, hl]
  have hv : slot.valueOf c.peek = .ok (.integer m) := Slot.valueOf_eq_ok.mpr hs
  apply endsAlike_read
  rw [hv]
  exact endsAlike_ofExcept (agree_checkRange m hp) ⟨rfl, rfl⟩

theorem endsAlike_string {content : String} (hk : c.peek.lexeme = .identifier)
    (hs : slot.symbols.lookup c.peek.text = some (.text content))
    (hl : c'.peek.lexeme = .string (Text.ofString content))
    (hp : R c.peek.position c'.peek.position) :
    CursorM.EndsAlike R (c.Past 1 c') Eq (scope.string slot c) (scope.string slot c') := by
  apply endsAlike_peek
  simp only [hk, hl]
  have hv : slot.valueOf c.peek = .ok (.text content) := Slot.valueOf_eq_ok.mpr hs
  apply endsAlike_read
  rw [hv]
  have hread : (CursorM.ofExcept (.ok (.text content)) : CursorM SymbolValue) c.advance =
      .ok (.text content) c.advance := rfl
  rw [bind_of_ok _ hread]
  exact endsAlike_ofExcept (agree_encodeText _ hp) ⟨rfl, rfl⟩

theorem endsAlike_maskTerm (hk : c.peek.lexeme = .identifier)
    (hs : slot.symbols.lookup c.peek.text = some (.integer m)) (hl : c'.peek.lexeme = .integer m) :
    CursorM.EndsAlike R (c.Past 1 c') Eq (maskTerm slot c) (maskTerm slot c') := by
  apply endsAlike_peek
  simp only [hk, hl]
  have hv : slot.valueOf c.peek = .ok (.integer m) := Slot.valueOf_eq_ok.mpr hs
  apply endsAlike_read
  rw [hv]
  exact .ok rfl ⟨rfl, rfl⟩

end FieldScope

namespace Assignment

open Compilation (AgreeOn)

variable {a a' : Assignment} {d : Draft} {done todo : List Slot} {m : Int} {content : String}

theorem endsAlike_literal (h : a.Alike R a') (hc : Cursor.AlikeFor R type.tokenCount c c') :
    CursorM.EndsAlike R (c.Past type.tokenCount c') Eq (a.literal slot type c)
      (a'.literal slot type c') := by
  by_cases htype : type = .rectangle
  · subst htype
    have hc : Cursor.AlikeFor R FieldScope.rectangleTokens.length c c' := hc
    rw [literal, literal, h.scope]
    apply (FieldScope.endsAlike_rectangle hc.peek hc.expects_eq fun _ => hc).bind_eq
    intro components u u' hu
    exact .ok rfl hu.2
  · have hone : type.tokenCount = 1 := by cases type <;> first | rfl | exact absurd rfl htype
    rw [hone] at hc ⊢
    apply (agreeOnToken_literal h htype c c' hc.peek).mono
    rintro _ _ ⟨hpast, -⟩
    exact hpast

theorem endsAlike_store (h : a.Alike R a') {directive : Directive}
    (hvalue : Compilation.EndsAlike R (Session.On S t) Eq (a.value slot directive s)
      (a'.value slot directive s')) (d : Draft) :
    Compilation.EndsAlike R (Session.On S t) Eq (a.store directive d slot s)
      (a'.store directive d slot s') := by
  rw [store, store, h.typeOf]
  apply hvalue.bind_eq
  intro v u u' hu
  exact Compilation.endsAlike_ofExcept (agree_put _ _ _ v) hu.registry hu

theorem endsAlike_store_literal (h : a.Alike R a') (hs : Session.On S t s s')
    (hliteral : CursorM.EndsAlike R S' Eq (a.literal slot (a.typeOf slot) s.cursor)
      (a'.literal slot (a.typeOf slot) s'.cursor)) (d : Draft) :
    Compilation.EndsAlike R (Session.On S' t) Eq (a.store .positional d slot s)
      (a'.store .positional d slot s') := by
  refine endsAlike_store h ?_ d
  rw [value, value, h.typeOf]
  exact Compilation.endsAlike_onCursor hliteral hs.registry fun _ _ hc =>
    ⟨hc, hs.registry, hs.active⟩

theorem endsAlike_stores (h : a.Alike R a')
    (hs : Session.On (Cursor.AlikeFor R (a.type.tokenCount done)) t s s') (d : Draft) :
    Compilation.EndsAlike R
      (Session.On (s.cursor.Past (a.type.tokenCount done) s'.cursor) t) Eq
      (done.foldlM (a.store .positional) d s) (done.foldlM (a'.store .positional) d s') := by
  induction done generalizing d s s' with
  | nil => exact .ok rfl ⟨⟨(Cursor.advance_zero _).symm, (Cursor.advance_zero _).symm⟩, hs.registry,
      hs.active⟩
  | cons slot done ih =>
    have hcount : a.type.tokenCount (slot :: done) =
        (a.typeOf slot).tokenCount + a.type.tokenCount done := List.sum_cons
    rw [hcount] at hs ⊢
    rw [List.foldlM_cons, List.foldlM_cons]
    have hliteral : CursorM.EndsAlike R (s.cursor.Past (a.typeOf slot).tokenCount s'.cursor) Eq
        (a.literal slot (a.typeOf slot) s.cursor) (a'.literal slot (a.typeOf slot) s'.cursor) :=
      endsAlike_literal h (hs.cursor.mono (Nat.le_add_right _ _))
    apply (endsAlike_store_literal h hs hliteral d).bind_eq
    rintro d u u' ⟨⟨hu, hu'⟩, hr, ha⟩
    have hnext : Session.On (Cursor.AlikeFor R (a.type.tokenCount done)) t u u' := by
      refine ⟨?_, hr, ha⟩
      rw [hu, hu']
      exact hs.cursor.advance
    apply (ih hnext d).mono
    rintro v v' ⟨⟨hv, hv'⟩, hr, ha⟩
    rw [hu, Cursor.advance_advance] at hv
    rw [hu', Cursor.advance_advance] at hv'
    exact ⟨⟨hv, hv'⟩, hr, ha⟩

theorem endsAlike_follow_plain (h : a.Alike R a') (hslots : a.field.slots = done ++ slot :: todo)
    (hs : Session.On (Cursor.Parted R (a.type.tokenCount done)) t s s')
    (hliteral : ∀ c c', c = s.cursor.advance (a.type.tokenCount done) →
      c' = s'.cursor.advance (a.type.tokenCount done) →
      CursorM.EndsAlike R (c.Past 1 c') Eq (a.literal slot (a.typeOf slot) c)
        (a'.literal slot (a.typeOf slot) c')) (d : Draft) :
    Compilation.EndsAlike R (Session.On (Cursor.Alike R) t) Eq (a.follow d .positional s)
      (a'.follow d .positional s') := by
  rw [follow, follow, h.field, Directive.slots, hslots, List.foldlM_append, List.foldlM_append]
  apply (endsAlike_stores h ⟨hs.cursor.front, hs.registry, hs.active⟩ d).bind_eq
  rintro d u u' ⟨⟨hu, hu'⟩, hr, ha⟩
  have hparted : Cursor.Parted R 0 u.cursor u'.cursor := by
    rw [hu, hu']
    exact hs.cursor.advance
  rw [List.foldlM_cons, List.foldlM_cons]
  apply (endsAlike_store_literal (S := fun _ _ => True) h ⟨trivial, hr, ha⟩
    (hliteral _ _ hu hu') d).bind_eq
  rintro d v v' ⟨hv, hr, ha⟩
  refine Agree.foldlM (S := Session.On (Cursor.Alike R) t) ?_ rfl v v' ⟨hv.alike hparted, hr, ha⟩
  rintro d _ slot rfl
  exact agree_store h .positional d slot

theorem endsAlike_literal_integer (h : a.Alike R a') (hk : c.peek.lexeme = .identifier)
    (hs : slot.symbols.lookup c.peek.text = some (.integer m)) (hl : c'.peek.lexeme = .integer m)
    (hp : R c.peek.position c'.peek.position) :
    CursorM.EndsAlike R (c.Past 1 c') Eq (a.literal slot (.integer i) c)
      (a'.literal slot (.integer i) c') := by
  rw [literal, literal, h.scope]
  apply (FieldScope.endsAlike_integer hk hs hl hp).bind_eq
  intro n u u' hu
  exact .ok rfl hu

theorem endsAlike_literal_text (h : a.Alike R a') (htext : type.isText)
    (hk : c.peek.lexeme = .identifier) (hs : slot.symbols.lookup c.peek.text = some (.text content))
    (hl : c'.peek.lexeme = .string (Text.ofString content))
    (hp : R c.peek.position c'.peek.position) :
    CursorM.EndsAlike R (c.Past 1 c') Eq (a.literal slot type c) (a'.literal slot type c') := by
  have hread : CursorM.EndsAlike R (c.Past 1 c') Eq
      ((do
        let b ← a.scope.string slot
        let b ← CursorM.ofExcept (a.fit type b)
        return Value.bytes b) c)
      ((do
        let b ← a'.scope.string slot
        let b ← CursorM.ofExcept (a'.fit type b)
        return Value.bytes b) c') := by
    rw [h.scope]
    apply (FieldScope.endsAlike_string hk hs hl hp).bind_eq
    intro b u u' hu
    apply (CursorM.endsAlike_ofExcept (agree_fit h b) hu).bind_eq
    intro b v v' hv
    exact .ok rfl hv
  cases type <;> first | exact hread | simp [ValueType.isText] at htext

theorem endsAlike_round (hbar : c.peek.kind = .pipe) (ht : c.peek.Alike R c'.peek)
    (hterm : CursorM.EndsAlike R (c.advance.Past 1 c'.advance) Eq
      (FieldScope.maskTerm slot c.advance)
      (FieldScope.maskTerm slot c'.advance))
    (hrest : ∀ mask, CursorM.EndsAlike R S Eq
      (repeatWhile (fun c => c.rest.length) (·.expects [.ofKind .pipe]) (joinTerm slot) mask
        c.advance.advance)
      (repeatWhile (fun c => c.rest.length) (·.expects [.ofKind .pipe]) (joinTerm slot) mask
        c'.advance.advance)) (mask : Nat) :
    CursorM.EndsAlike R S Eq
      (repeatWhile (fun c => c.rest.length) (·.expects [.ofKind .pipe]) (joinTerm slot) mask c)
      (repeatWhile (fun c => c.rest.length) (·.expects [.ofKind .pipe]) (joinTerm slot) mask
        c') := by
  have hbar' : c'.peek.kind = .pipe := by rw [ht.kind_eq, hbar]
  have hlt (c : Cursor) (hk : c.peek.kind = .pipe) :
      c.advance.advance.rest.length < c.rest.length := by
    have hlength := (Cursor.moves_peek (c := c) (by rw [hk]; decide)).length
    rw [List.length_singleton] at hlength
    have hdrop : c.advance.advance.rest.length = c.advance.rest.length - 1 := List.length_drop
    omega
  refine EndsAlike.repeatWhile ?_ ?_ (endsAlike_joinTerm mask hterm) ?_ ?_
  · rwa [Cursor.expects_single, Expectation.isMetBy_ofKind]
  · rwa [Cursor.expects_single, Expectation.isMetBy_ofKind]
  · rintro _ _ ⟨rfl, rfl⟩
    exact ⟨hlt c hbar, hlt c' hbar'⟩
  · rintro mask _ _ _ rfl ⟨rfl, rfl⟩
    exact hrest mask

theorem endsAlike_joinTerms (hus : Grammar.MaskFront us) (hbar : c.peek.kind = .pipe)
    (ht : c.peek.Alike R c'.peek) (hrest : c.advance.rest = us ++ token :: rest)
    (hparted : Cursor.Parted R us.length c.advance c'.advance) (hk : token.lexeme = .identifier)
    (hs : slot.symbols.lookup token.text = some (.integer m))
    (hl : (c'.advance.peek us.length).lexeme = .integer m) (mask : Nat) :
    CursorM.EndsAlike R (Cursor.Alike R) Eq
      (repeatWhile (fun c => c.rest.length) (·.expects [.ofKind .pipe]) (joinTerm slot) mask c)
      (repeatWhile (fun c => c.rest.length) (·.expects [.ofKind .pipe]) (joinTerm slot) mask
        c') := by
  induction hus generalizing c c' mask with
  | nil =>
    have htoken : c.advance.peek = token := by simp [Cursor.peek, hrest]
    have hread : CursorM.EndsAlike R (c.advance.Past 1 c'.advance) Eq
        (FieldScope.maskTerm slot c.advance) (FieldScope.maskTerm slot c'.advance) :=
      FieldScope.endsAlike_maskTerm (by rw [htoken, hk]) (by rw [htoken, hs]) hl
    apply endsAlike_round hbar ht hread
    intro mask
    exact agree_joinTerms mask _ _ hparted.behind
  | @cons us term bar hterm hbar' _ ih =>
    have hfirst : c.advance.peek.Alike R c'.advance.peek := hparted.front 0 (by simp)
    have hread : CursorM.EndsAlike R (c.advance.Past 1 c'.advance) Eq
        (FieldScope.maskTerm slot c.advance) (FieldScope.maskTerm slot c'.advance) :=
      (FieldScope.agreeOnToken_maskTerm _ _ hfirst).mono fun _ _ hd => hd.past
    have hcount : (term :: bar :: us).length = 2 + us.length := Nat.add_comm us.length 2
    rw [hcount] at hparted hl
    have hsecond : c.advance.advance.peek.Alike R c'.advance.advance.peek := by
      rw [Cursor.peek_advance c.advance 1 0, Cursor.peek_advance c'.advance 1 0]
      exact hparted.front 1 (by omega)
    have hnext : c.advance.advance.peek = bar := by
      rw [Cursor.peek_advance c.advance 1 0, Cursor.peek, hrest]
      rfl
    have hpast : c.advance.advance.advance = c.advance.advance 2 := Cursor.advance_advance _ 1 1
    have hpast' : c'.advance.advance.advance = c'.advance.advance 2 := Cursor.advance_advance _ 1 1
    apply endsAlike_round hbar ht hread
    intro mask
    refine ih (by rwa [hnext]) hsecond ?_ ?_ ?_ mask
    · rw [hpast, Cursor.advance, hrest]
      rfl
    · rw [hpast, hpast']
      exact hparted.advance
    · rw [hpast', Cursor.peek_advance]
      exact hl

theorem maskTerms_of_ne (h : c.peek.kind ≠ .semicolon) :
    a.maskTerms slot c = (do
      let first ← FieldScope.maskTerm slot
      let mask ← repeatWhile (fun c => c.rest.length) (·.expects [.ofKind .pipe]) (joinTerm slot)
        (maskBits first)
      if ← CursorM.isAt .semicolon then return mask
      let next ← CursorM.peek
      CursorM.fail ((Problem.malformedMask a.scope.field next).at next.position)) c := by
  rw [maskTerms, bind_of_ok _ CursorM.isAt_eq]
  simp only [beq_iff_eq, h, if_false]

theorem endsAlike_maskTerms (h : a.Alike R a') (hus : Grammar.MaskFront us)
    (hrest : c.rest = us ++ token :: rest) (hparted : Cursor.Parted R us.length c c')
    (hk : token.lexeme = .identifier) (hs : slot.symbols.lookup token.text = some (.integer m))
    (hl : (c'.peek us.length).lexeme = .integer m) :
    CursorM.EndsAlike R (Cursor.Alike R) Eq (a.maskTerms slot c) (a'.maskTerms slot c') := by
  cases hus with
  | nil =>
    have htoken : c.peek = token := by simp [Cursor.peek, hrest]
    have hne : c.peek.kind ≠ .semicolon := by
      rw [htoken, Token.kind, hk]
      decide
    have hne' : c'.peek.kind ≠ .semicolon := by
      have hl : c'.peek.lexeme = .integer m := hl
      rw [Token.kind, hl]
      intro hsemicolon
      cases hsemicolon
    rw [maskTerms_of_ne hne, maskTerms_of_ne hne', h.scope]
    apply (FieldScope.endsAlike_maskTerm (by rw [htoken, hk]) (by rw [htoken, hs]) hl).bind_eq
    intro first u u' hu
    exact ((agree_joinTerms _).bind_eq fun mask => agree_endOfMask a.scope mask) u u'
      (hu.alike hparted)
  | @cons us term bar hterm hbar hus =>
    have hfirst : c.peek.Alike R c'.peek := hparted.front 0 (by simp)
    have htermpeek : c.peek = term := by simp [Cursor.peek, hrest]
    have hne : c.peek.kind ≠ .semicolon := by rwa [htermpeek]
    have hne' : c'.peek.kind ≠ .semicolon := by rwa [hfirst.kind_eq, htermpeek]
    have hcount : (term :: bar :: us).length = 1 + (1 + us.length) := by
      rw [List.length_cons, List.length_cons]
      omega
    rw [hcount] at hparted hl
    have hparted : Cursor.Parted R (1 + us.length) c.advance c'.advance := hparted.advance
    have hbarpeek : c.advance.peek = bar := by
      rw [Cursor.peek_advance c 1 0, Cursor.peek, hrest]
      rfl
    have hrest : c.advance.advance.rest = us ++ token :: rest := by
      rw [Cursor.advance_advance, Cursor.advance, hrest]
      rfl
    rw [← Cursor.peek_advance, ← Cursor.peek_advance] at hl
    rw [maskTerms_of_ne hne, maskTerms_of_ne hne', h.scope]
    apply (FieldScope.agreeOnToken_maskTerm c c' hfirst).bind_eq
    rintro first _ _ ⟨⟨rfl, rfl⟩, -⟩
    apply (endsAlike_joinTerms hus (by rwa [hbarpeek]) (hparted.front 0 (by omega)) hrest
      hparted.advance hk hs hl _).bind_eq
    intro mask u u' hu
    exact agree_endOfMask a.scope mask u u' hu

theorem endsAlike_bitmask (h : a.Alike R a')
    (hmask : CursorM.EndsAlike R S Eq (a.maskTerms slot c) (a'.maskTerms slot c')) :
    CursorM.EndsAlike R S Eq (a.bitmask slot c) (a'.bitmask slot c') := by
  rw [bitmask, bitmask, h.scope, h.typeOf, h.field]
  split
  · exact .error (.anywhere _) trivial
  · simp only
    cases (a.typeOf slot).unsigned? with
    | none => exact .error (.anywhere _) trivial
    | some i =>
      apply hmask.bind_eq
      intro mask u u' hu
      exact .ok rfl hu

theorem endsAlike_follow_mask (h : a.Alike R a') (hs : Session.On S t s s')
    (hmask : CursorM.EndsAlike R S' Eq (a.maskTerms a.field.first s.cursor)
      (a'.maskTerms a.field.first s'.cursor)) (d : Draft) :
    Compilation.EndsAlike R (Session.On S' t) Eq (a.follow d .bitmask s)
      (a'.follow d .bitmask s') := by
  rw [follow_bitmask, follow_bitmask, h.field]
  refine endsAlike_store h ?_ d
  exact Compilation.endsAlike_onCursor (endsAlike_bitmask h hmask) hs.registry fun _ _ hc =>
    ⟨hc, hs.registry, hs.active⟩

theorem endsAlike_run (h : a.Alike R a') {directive : Directive}
    (hd : Directive.ofField a.field none = .ok directive)
    (hfollow : ∀ journal journal', Compilation.EndsAlike R T Eq
      (a.follow d directive { s with journal })
      (a'.follow d directive { s' with journal := journal' })) :
    Compilation.EndsAlike R T Eq (a.run d s) (a'.run d s') := by
  obtain ⟨journal, hrun⟩ := run_eq hd d s
  obtain ⟨journal', hrun'⟩ := run_eq (h.field ▸ hd : Directive.ofField a'.field none = _) d s'
  rw [hrun, hrun']
  apply Compilation.endsAlike_locating (hfollow journal journal')
  cases h with
  | mk hname => exact hname.position

theorem endsAlike_run_constant {lexeme : Lexeme} (h : a.Alike R a')
    (hconstant : Grammar.NamesConstant a.type a.field us token lexeme)
    (hk : token.lexeme = .identifier) (hrest : s.cursor.rest = us ++ token :: rest)
    (hs : Session.On (Cursor.Parted R us.length) t s s')
    (hl : (s'.cursor.peek us.length).lexeme = lexeme)
    (hp : R token.position (s'.cursor.peek us.length).position) (d : Draft) :
    Compilation.EndsAlike R (Session.On (Cursor.Alike R) t) Eq (a.run d s) (a'.run d s') := by
  have htoken : s.cursor.peek us.length = token := by simp [Cursor.peek, hrest]
  have hpositional (htag : a.field.tag = none) :
      Directive.ofField a.field none = .ok .positional := by
    rw [Directive.ofField, htag]
  have hlater (journal journal' : List Text) : Session.On (Cursor.Parted R us.length) t
      { s with journal } { s' with journal := journal' } := ⟨hs.cursor, hs.registry, hs.active⟩
  cases hconstant with
  | @integer done todo i n slot htag hslots hcount htype hsymbol =>
    rw [hcount, ← Nat.add_zero (a.type.tokenCount done), ← Cursor.peek_advance] at hl hp htoken
    rw [← htoken] at hk hsymbol
    refine endsAlike_run h (hpositional htag) fun journal journal' =>
      endsAlike_follow_plain h hslots (hcount ▸ hlater journal journal') ?_ d
    rintro _ _ rfl rfl
    rw [show a.typeOf slot = _ from htype]
    exact endsAlike_literal_integer h hk hsymbol hl (htoken ▸ hp)
  | @text done todo slot content htag hslots hcount htext hsymbol =>
    rw [hcount, ← Nat.add_zero (a.type.tokenCount done), ← Cursor.peek_advance] at hl hp htoken
    rw [← htoken] at hk hsymbol
    refine endsAlike_run h (hpositional htag) fun journal journal' =>
      endsAlike_follow_plain h hslots (hcount ▸ hlater journal journal') ?_ d
    rintro _ _ rfl rfl
    exact endsAlike_literal_text h htext hk hsymbol hl (htoken ▸ hp)
  | term hd hus hsymbol =>
    refine endsAlike_run h hd fun journal journal' =>
      endsAlike_follow_mask h (hlater journal journal') ?_ d
    exact endsAlike_maskTerms h hus hrest hs.cursor hk hsymbol hl

end Assignment

end ResourceScript
