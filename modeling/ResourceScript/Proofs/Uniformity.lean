import ResourceScript.Proofs.Likeness
import ResourceScript.Resource.Declaration

namespace ResourceScript

variable {R : Position → Position → Prop} {S : Cursor → Cursor → Prop}
  {T : Session → Session → Prop}
  {token token' : Token} {c c' : Cursor} {slot : Slot} {type : ValueType}

theorem Slot.agree_valueOf (h : token.Alike R token') :
    (slot.valueOf token).Agree (Failure.Alike R) Eq (slot.valueOf token') := by
  cases h with
  | @mk p q lexeme text hp =>
    rw [valueOf, valueOf]
    cases slot.symbols.lookup text with
    | some v => exact .ok rfl
    | none => exact .error (.at_place hp ⟨rfl, rfl, rfl, rfl⟩)

namespace FieldScope

open CursorM (AgreeOnToken endsAlike_read endsAlike_fail endsAlike_ofExcept endsAlike_expects
  endsAlike_blame)

variable {s : FieldScope}

theorem agree_checkRange (n : Int) (hp : R token.position token'.position) :
    (s.checkRange n type token).Agree (Failure.Alike R) Eq (s.checkRange n type token') := by
  unfold checkRange
  split
  · exact .error .fault
  · split
    · exact .ok rfl
    · split
      · exact .error .fault
      · exact .error (.at_place hp ⟨rfl, rfl, rfl, rfl⟩)

theorem agree_encodeText (content : Text) (hp : R token.position token'.position) :
    (s.encodeText content token).Agree (Failure.Alike R) Eq (s.encodeText content token') := by
  unfold encodeText
  split
  · exact .error .fault
  · split
    · exact .ok rfl
    · exact .error (.at_place hp ⟨rfl, rfl, rfl, rfl⟩)
    · exact .error .fault

theorem agreeOnToken_integer : AgreeOnToken R Eq (s.integer slot type) (s.integer slot type) := by
  apply AgreeOnToken.of_token
  intro lexeme text p q c c' hp hnext
  have ht : Token.Alike R ⟨lexeme, text, p⟩ ⟨lexeme, text, q⟩ := .mk hp
  cases lexeme with
  | integer n => exact endsAlike_read (endsAlike_ofExcept (agree_checkRange n hp) (hnext nofun))
  | identifier =>
    apply endsAlike_read
    apply (endsAlike_ofExcept (Slot.agree_valueOf ht) (hnext nofun)).bind_eq
    intro v d d' hd
    cases v with
    | integer n => exact endsAlike_ofExcept (agree_checkRange n hp) hd
    | text _ => exact endsAlike_fail (.at_place hp ⟨rfl, rfl, rfl, rfl⟩)
  | _ => exact endsAlike_fail (.at_place hp ⟨rfl, rfl, rfl, rfl⟩)

theorem agreeOnToken_resourceId : AgreeOnToken R Eq (s.resourceId type) (s.resourceId type) := by
  apply AgreeOnToken.of_token
  intro lexeme text p q c c' hp hnext
  cases lexeme with
  | resourceId n =>
    exact endsAlike_read (endsAlike_ofExcept (agree_checkRange n hp) (hnext nofun))
  | _ => exact endsAlike_fail (.at_place hp ⟨rfl, rfl, rfl, rfl⟩)

theorem endsAlike_integers (h : Cursor.AlikeFor R n c c') :
    CursorM.EndsAlike R (c.Past n c') Eq (s.integers type n c) (s.integers type n c') := by
  induction n generalizing c c' with
  | zero => exact .ok rfl ⟨c.advance_zero.symm, c'.advance_zero.symm⟩
  | succ n ih =>
    have ht := h.peek
    have hrest : Cursor.AlikeFor R n c.advance c'.advance := by
      apply Cursor.AlikeFor.advance
      rwa [Nat.add_comm]
    apply endsAlike_read
    generalize c.peek = token at ht ⊢
    generalize c'.peek = token' at ht ⊢
    refine EndsAlike.bind_eq (endsAlike_ofExcept (S := c.Past 1 c') ?_ ⟨rfl, rfl⟩) ?_
    · cases ht with
      | @mk p q lexeme text hp =>
        cases lexeme with
        | integer n => exact agree_checkRange n hp
        | _ => exact .error .fault
    · rintro n' d d' ⟨rfl, rfl⟩
      apply (ih hrest).bind_eq
      rintro ns _ _ ⟨rfl, rfl⟩
      refine .ok rfl ⟨?_, ?_⟩ <;> rw [Cursor.advance_advance, Nat.add_comm]

def rectangleTokens : List Expectation :=
  List.replicate 4 (.ofKind .integer)

theorem endsAlike_rectangle (ht : c.peek.Alike R c'.peek)
    (hes : c'.expects rectangleTokens = c.expects rectangleTokens)
    (h : c.expects rectangleTokens = true → Cursor.AlikeFor R 4 c c') :
    CursorM.EndsAlike R (fun d d' => c.expects rectangleTokens = true ∧ c.Past 4 c' d d') Eq
      (s.rectangle c) (s.rectangle c') := by
  apply endsAlike_expects
  change c'.expects (List.replicate 4 _) = c.expects (List.replicate 4 _) at hes
  rw [hes]
  cases hmet : c.expects rectangleTokens with
  | true =>
    rw [rectangleTokens] at hmet
    rw [hmet]
    exact (endsAlike_integers (h hmet)).mono fun _ _ hd => ⟨rfl, hd⟩
  | false =>
    rw [rectangleTokens] at hmet
    rw [hmet]
    exact endsAlike_blame ht fun _ _ _ _ => ⟨rfl, rfl, rfl, rfl⟩

theorem agree_rectangle [Cursor.Kin R S] : CursorM.Agree R S Eq s.rectangle s.rectangle := by
  have hpasses : ∀ e ∈ rectangleTokens, Cursor.Passes S e := by
    intro e he
    rw [List.eq_of_mem_replicate he]
    exact .ofKind (by decide) (by decide)
  intro c c' hc
  apply (endsAlike_rectangle (Cursor.Kin.peek hc) (Cursor.Kin.expects_eq hpasses hc) fun hmet =>
    (Cursor.Kin.past_expects hpasses hc hmet).1).mono
  rintro _ _ ⟨hmet, rfl, rfl⟩
  exact (Cursor.Kin.past_expects hpasses hc hmet).2

theorem agreeOnToken_stringToken :
    AgreeOnToken R (fun p q => p.1.Alike R q.1 ∧ p.2 = q.2) s.stringToken s.stringToken := by
  apply AgreeOnToken.of_token
  intro lexeme text p q c c' hp hnext
  cases lexeme with
  | string content => exact endsAlike_read (.ok ⟨.mk hp, rfl⟩ (hnext nofun))
  | _ => exact endsAlike_fail (.at_place hp ⟨rfl, rfl, rfl, rfl⟩)

theorem agreeOnToken_string : AgreeOnToken R Eq (s.string slot) (s.string slot) := by
  apply AgreeOnToken.of_token
  intro lexeme text p q c c' hp hnext
  have ht : Token.Alike R ⟨lexeme, text, p⟩ ⟨lexeme, text, q⟩ := .mk hp
  cases lexeme with
  | string content =>
    exact endsAlike_read (endsAlike_ofExcept (agree_encodeText _ hp) (hnext nofun))
  | identifier =>
    apply endsAlike_read
    apply (endsAlike_ofExcept (Slot.agree_valueOf ht) (hnext nofun)).bind_eq
    intro v d d' hd
    cases v with
    | text content => exact endsAlike_ofExcept (agree_encodeText _ hp) hd
    | integer _ => exact endsAlike_fail (.at_place hp ⟨rfl, rfl, rfl, rfl⟩)
  | _ => exact endsAlike_fail (.at_place hp ⟨rfl, rfl, rfl, rfl⟩)

theorem agreeOnToken_maskTerm : AgreeOnToken R Eq (maskTerm slot) (maskTerm slot) := by
  apply AgreeOnToken.of_token
  intro lexeme text p q c c' hp hnext
  have ht : Token.Alike R ⟨lexeme, text, p⟩ ⟨lexeme, text, q⟩ := .mk hp
  cases lexeme with
  | integer n => exact endsAlike_read (.ok rfl (hnext nofun))
  | identifier =>
    apply endsAlike_read
    apply (endsAlike_ofExcept (Slot.agree_valueOf ht) (hnext nofun)).bind_eq
    intro v d d' hd
    cases v with
    | integer n => exact .ok rfl hd
    | text _ => exact endsAlike_fail (.at_place hp ⟨rfl, rfl, rfl, rfl⟩)
  | _ => exact endsAlike_fail (.at_place hp ⟨rfl, rfl, rfl, rfl⟩)

end FieldScope

namespace Header

open CursorM (expects agree_ensure agree_ensureKind endsAlike_peek endsAlike_read endsAlike_expects)

theorem agree_named [Cursor.Kin R S] (id : Option Int) :
    CursorM.Agree R S Eq
      (do
        if ← expects [.ofKind .comma, .ofKind .string] then
          let _ ← CursorM.read
          let name ← CursorM.read
          return (⟨id, name.lexeme.string?⟩ : Header)
        else return ⟨id, none⟩)
      (do
        if ← expects [.ofKind .comma, .ofKind .string] then
          let _ ← CursorM.read
          let name ← CursorM.read
          return ⟨id, name.lexeme.string?⟩
        else return ⟨id, none⟩) := by
  have hcomma : Cursor.Passes S (.ofKind .comma) := .ofKind (by decide) (by decide)
  have hstring : Cursor.Passes S (.ofKind .string) := .ofKind (by decide) (by decide)
  have hpasses : ∀ e ∈ [Expectation.ofKind .comma, .ofKind .string], Cursor.Passes S e := by
    simpa using And.intro hcomma hstring
  intro c c' hc
  have hes := Cursor.Kin.expects_eq hpasses hc
  apply endsAlike_expects
  rw [hes]
  cases hmet : c.expects [.ofKind .comma, .ofKind .string] with
  | true =>
    obtain ⟨halike, hpast⟩ := Cursor.Kin.past_expects hpasses hc hmet
    have hname := halike 1 (by simp)
    rw [← Cursor.peek_advance c 1 0, ← Cursor.peek_advance c' 1 0] at hname
    rw [List.length_cons, List.length_singleton] at hpast
    refine .ok ?_ (by simpa only [Cursor.advance_advance] using hpast)
    rw [hname.lexeme_eq]
  | false => exact .ok rfl hc

theorem agree_contents [Cursor.Kin R S] : CursorM.Agree R S Eq contents contents := by
  intro c c' hc
  have ht := Cursor.Kin.peek hc
  have hstep := Cursor.Kin.advance hc
  apply endsAlike_peek
  rw [ht.lexeme_eq]
  cases hid : c.peek.lexeme.idNumber? with
  | some id =>
    apply endsAlike_read
    apply agree_named
    apply hstep
    rw [Token.kind]
    rintro hk
    cases hl : c.peek.lexeme <;> rw [hl] at hid hk <;> cases hk
    cases hid
  | none =>
    cases hname : c.peek.lexeme.string? with
    | some name =>
      apply endsAlike_read
      refine .ok rfl (hstep ?_)
      rw [Token.kind]
      rintro hk
      cases hl : c.peek.lexeme <;> rw [hl] at hname hk <;> cases hk
      cases hname
    | none => exact .ok rfl hc

theorem agree_read [Cursor.Kin R S] : CursorM.Agree R S Eq read read := by
  have hword : Cursor.Passes S Cursor.newWord := .word "new"
  have hparen : Cursor.Passes S (.ofKind .leftParen) := .ofKind (by decide) (by decide)
  have hpasses : ∀ e ∈ [Cursor.newWord, .ofKind .leftParen], Cursor.Passes S e := by
    simpa using And.intro hword hparen
  exact (agree_ensure hpasses).bind fun _ _ _ => agree_contents.bind_eq fun _ =>
    (agree_ensureKind (.ofKind (by decide) (by decide))).bind_eq fun _ => .pure rfl

end Header

/-- Sessions that have tokens before them that are alike, with the same ids taken. -/
structure Session.Alike (R : Position → Position → Prop) (s s' : Session) : Prop where
  cursor : s.cursor.Alike R s'.cursor
  registry : s'.registry = s.registry

/-- Sessions that have taken the same ids. -/
structure Session.SameIds (s s' : Session) : Prop where
  registry : s'.registry = s.registry

/-- Relations between sessions that hang on their cursors and registries alone, and not on which ids
are taken. -/
class Session.Kin (S : outParam (Cursor → Cursor → Prop)) (T : Session → Session → Prop) :
    Prop where
  cursor : T s s' → S s.cursor s'.cursor
  registry : T s s' → s'.registry = s.registry
  move {c c' : Cursor} {journal journal' : List Text} : T s s' → S c c' →
    T { s with cursor := c, journal } { s' with cursor := c', journal := journal' }
  instantiate : T s s' → s.registry.instantiate asked name place = .ok (d, r) →
    T { s with registry := r } { s' with registry := r }

instance : Session.Kin (Cursor.Alike R) (Session.Alike R) where
  cursor h := h.cursor
  registry h := h.registry
  move h hc := ⟨hc, h.registry⟩
  instantiate h _ := ⟨h.cursor, rfl⟩

abbrev Compilation.EndsAlike (R : Position → Position → Prop) (T : Session → Session → Prop)
    (P : α → α → Prop) (r r' : EStateM.Result Failure Session α) : Prop :=
  ResourceScript.EndsAlike T Session.SameIds (Failure.Alike R) P r r'

abbrev Compilation.AgreeOn (R : Position → Position → Prop) (T : Session → Session → Prop)
    (P : α → α → Prop) (m m' : Compilation α) : Prop :=
  ResourceScript.Agree T Session.SameIds (Failure.Alike R) P m m'

abbrev Compilation.Agree (R : Position → Position → Prop) (P : α → α → Prop)
    (m m' : Compilation α) : Prop :=
  AgreeOn R (Session.Alike R) P m m'

namespace Compilation

variable {P : α → α → Prop} {s s' : Session}

theorem endsAlike_onCursor {m m' : CursorM α}
    (h : CursorM.EndsAlike R S P (m s.cursor) (m' s'.cursor))
    (hs : s'.registry = s.registry)
    (hT : ∀ c c', S c c' → T { s with cursor := c } { s' with cursor := c' }) :
    EndsAlike R T P (onCursor m s) (onCursor m' s') := by
  cases hm : m s.cursor with
  | ok a c =>
    obtain ⟨b, c', hm', hab, hc⟩ := h.of_ok hm
    rw [onCursor_of_ok hm, onCursor_of_ok hm']
    exact .ok hab (hT c c' hc)
  | error e c =>
    obtain ⟨e', c', hm', he, -⟩ := h.of_error hm
    rw [onCursor_of_error hm, onCursor_of_error hm']
    exact .error he ⟨hs⟩

theorem endsAlike_ofExcept {x x' : Except Failure α} (h : x.Agree (Failure.Alike R) P x')
    (hr : s'.registry = s.registry) (hs : T s s') :
    EndsAlike R T P (ofExcept x s) (ofExcept x' s') := by
  cases h with
  | ok hab => exact .ok hab hs
  | error he => exact .error he ⟨hr⟩

theorem endsAlike_peek {f f' : Token → Compilation α}
    (h : EndsAlike R T P (f s.cursor.peek s) (f' s'.cursor.peek s')) :
    EndsAlike R T P ((liftM CursorM.peek >>= f) s) ((liftM CursorM.peek >>= f') s') := h

theorem endsAlike_read {f f' : Token → Compilation α}
    (h : EndsAlike R T P (f s.cursor.peek { s with cursor := s.cursor.advance })
      (f' s'.cursor.peek { s' with cursor := s'.cursor.advance })) :
    EndsAlike R T P ((liftM CursorM.read >>= f) s) ((liftM CursorM.read >>= f') s') := h

theorem endsAlike_expects {f f' : Bool → Compilation α}
    (h : EndsAlike R T P (f (s.cursor.expects es) s) (f' (s'.cursor.expects es) s')) :
    EndsAlike R T P ((liftM (CursorM.expects es) >>= f) s)
      ((liftM (CursorM.expects es) >>= f') s') := h

theorem endsAlike_get {f f' : Session → Compilation α} (h : EndsAlike R T P (f s s) (f' s' s')) :
    EndsAlike R T P ((get >>= f) s) ((get >>= f') s') := h

theorem endsAlike_locating {m m' : Compilation α} (h : EndsAlike R T P (m s) (m' s')) (hp : R p q) :
    EndsAlike R T P (locating p m s) (locating q m' s') := by
  cases hm : m s with
  | ok a s₁ =>
    obtain ⟨b, s₁', hm', hab, hs₁⟩ := h.of_ok hm
    rw [locating_of_ok hm, locating_of_ok hm']
    exact .ok hab hs₁
  | error e s₁ =>
    obtain ⟨e', s₁', hm', he, hs₁⟩ := h.of_error hm
    simp only [locating, hm, hm']
    exact .error (he.locate hp) hs₁

theorem agree_onCursor [Session.Kin S T] {m m' : CursorM α} (h : CursorM.Agree R S P m m') :
    AgreeOn R T P (onCursor m) (onCursor m') := fun _ _ hs =>
  endsAlike_onCursor (h _ _ (Session.Kin.cursor hs)) (Session.Kin.registry hs) fun _ _ hc =>
    Session.Kin.move hs hc

theorem agree_ofExcept [Session.Kin S T] {x x' : Except Failure α}
    (h : x.Agree (Failure.Alike R) P x') : AgreeOn R T P (ofExcept x) (ofExcept x') := fun _ _ hs =>
  endsAlike_ofExcept h (Session.Kin.registry hs) hs

theorem agree_note [Session.Kin S T] (line : Text) : AgreeOn R T Eq (note line) (note line) :=
  fun _ _ hs => .ok rfl (Session.Kin.move hs (Session.Kin.cursor hs))

theorem agree_locating {m m' : Compilation α} (h : AgreeOn R T P m m') (hp : R p q) :
    AgreeOn R T P (locating p m) (locating q m') := fun s s' hs =>
  endsAlike_locating (h s s' hs) hp

end Compilation

/-- Assignments to one field, which tokens that are alike name. -/
inductive Assignment.Alike (R : Position → Position → Prop) : Assignment → Assignment → Prop where
  | mk {settings : Settings} {type : TypeTemplate} {name name' : Token} {field : FieldTemplate} :
      Token.Alike R name name' → Alike R ⟨settings, type, name, field⟩
        ⟨settings, type, name', field⟩

namespace Assignment

open CursorM (AgreeOnToken agree_isAt agree_fail agree_blame endsAlike_blame)
open Compilation (AgreeOn agree_onCursor agree_note agree_locating)

variable {a a' : Assignment} {d : Directive}

theorem Alike.scope (h : a.Alike R a') : a'.scope = a.scope := by
  cases h with
  | mk h =>
    cases h
    rfl

theorem Alike.typeOf (h : a.Alike R a') (slot : Slot) : a'.typeOf slot = a.typeOf slot := by
  cases h
  rfl

theorem Alike.settings (h : a.Alike R a') : a'.settings = a.settings := by
  cases h
  rfl

theorem Alike.field (h : a.Alike R a') : a'.field = a.field := by
  cases h
  rfl

theorem agree_fit (h : a.Alike R a') (b : Bytes) :
    (a.fit type b).Agree (Failure.Alike R) Eq (a'.fit type b) := by
  rw [fit, fit, h.scope]
  split
  · exact .ok rfl
  · split
    · exact .error (.anywhere _)
    · exact .ok rfl

theorem agreeOnToken_text (h : a.Alike R a') :
    AgreeOnToken R Eq
      (do
        let b ← a.scope.string slot
        let b ← CursorM.ofExcept (a.fit type b)
        return Value.bytes b)
      (do
        let b ← a'.scope.string slot
        let b ← CursorM.ofExcept (a'.fit type b)
        return Value.bytes b) := by
  rw [h.scope]
  exact FieldScope.agreeOnToken_string.bind_eq fun _ b =>
    (CursorM.agree_ofExcept (agree_fit h b)).bind_eq fun _ => .pure rfl

theorem agreeOnToken_literal (h : a.Alike R a') (htype : type ≠ .rectangle) :
    AgreeOnToken R Eq (a.literal slot type) (a'.literal slot type) := by
  cases type with
  | integer i =>
    rw [literal, literal, h.scope]
    exact FieldScope.agreeOnToken_integer.bind_eq fun _ _ => .pure rfl
  | pascal => exact agreeOnToken_text h
  | terminated => exact agreeOnToken_text h
  | fixed size => exact agreeOnToken_text h
  | rectangle => exact absurd rfl htype
  | raw =>
    rw [literal, literal, h.scope]
    exact fun _ _ ht => endsAlike_blame ht fun _ _ _ _ => ⟨rfl, rfl, rfl, rfl⟩
  | unknown =>
    rw [literal, literal, h.scope]
    exact fun _ _ ht => endsAlike_blame ht fun _ _ _ _ => ⟨rfl, rfl, rfl, rfl⟩

theorem agree_literal [Cursor.Kin R S] (h : a.Alike R a') :
    CursorM.Agree R S Eq (a.literal slot type) (a'.literal slot type) := by
  by_cases htype : type = .rectangle
  · subst htype
    rw [literal, literal, h.scope]
    exact FieldScope.agree_rectangle.bind_eq fun _ => .pure rfl
  · exact (agreeOnToken_literal h htype).agree

theorem agree_reference [Cursor.Kin R S] (h : a.Alike R a') :
    CursorM.Agree R S Eq (a.reference slot) (a'.reference slot) := by
  rw [reference, reference, h.scope, h.typeOf]
  split
  · exact FieldScope.agreeOnToken_resourceId.agree.bind_eq fun _ => .pure rfl
  · exact agree_fail (.anywhere _)

theorem agree_sourcePath (working : List Text) (root : Path) (name : Text) :
    (sourcePath working root name).Agree (Failure.Alike R) Eq (sourcePath working root name) := by
  unfold sourcePath
  simp only
  split
  · exact .error (.anywhere _)
  · exact .ok rfl

theorem agree_readWithin (tree : FileTree) (limit : Int) (path : Path) :
    (tree.readWithin limit path).Agree (Failure.Alike R) Eq (tree.readWithin limit path) := by
  unfold FileTree.readWithin
  split
  · split
    · exact .error (.anywhere _)
    · exact .ok rfl
  · exact .error .fault
  · exact .error (.anywhere _)

theorem agree_importFile [Session.Kin S T] (h : a.Alike R a') (ht : token.Alike R token')
    (content : Text) : AgreeOn R T Eq (a.importFile token content)
    (a'.importFile token' content) := by
  rw [importFile, importFile, h.settings]
  cases ht with
  | mk hp =>
    refine Agree.bind_eq (agree_locating (Compilation.agree_ofExcept ?_) hp) fun _ =>
      (agree_note _).bind_eq fun _ => .pure rfl
    exact (agree_sourcePath _ _ _).bind_eq fun path =>
      (agree_readWithin _ _ path).bind_eq fun data => .ok rfl

theorem agree_hold (h : a.Alike R a') (b : Bytes) :
    (a.hold slot b).Agree (Failure.Alike R) Eq (a'.hold slot b) := by
  rw [hold, hold, h.scope, h.typeOf]
  split
  · exact (agree_fit h b).map fun _ _ hb => congrArg Value.bytes hb
  · exact .error (.anywhere _)

theorem agree_file [Cursor.Kin R S] [Session.Kin S T] (h : a.Alike R a') :
    AgreeOn R T Eq (a.file slot) (a'.file slot) := by
  unfold file
  rw [h.scope]
  intro s s' hs
  have hc : S s.cursor s'.cursor := Session.Kin.cursor hs
  have hpasses : Cursor.Passes S (.word "import") := .word "import"
  have htext : AgreeOn R T (fun p q => p.1.Alike R q.1 ∧ p.2 = q.2)
      (liftM a.scope.stringToken) (liftM a.scope.stringToken) :=
    agree_onCursor FieldScope.agreeOnToken_stringToken.agree
  apply Compilation.endsAlike_expects
  rw [Cursor.Kin.expects_one hc]
  cases himported : s.cursor.expects [.word "import"] with
  | true =>
    have hnext := hpasses _ _ hc (by rwa [Cursor.expects_single] at himported)
    apply Compilation.endsAlike_read
    refine (htext _ _ (Session.Kin.move hs hnext)).bind ?_
    rintro ⟨token, content⟩ ⟨token', _⟩ t t' ⟨ht, rfl⟩ hs
    refine Agree.bind_eq (agree_importFile h ht content) (fun b => ?_) t t' hs
    exact Compilation.agree_ofExcept (agree_hold h b)
  | false =>
    refine (htext s s' hs).bind ?_
    rintro ⟨token, content⟩ ⟨token', _⟩ t t' ⟨ht, rfl⟩ hs
    refine Agree.bind_eq (Compilation.agree_ofExcept
      (FieldScope.agree_encodeText content ht.position))
      (fun b => ?_) t t' hs
    exact Compilation.agree_ofExcept (agree_hold h b)

theorem agree_image [Cursor.Kin R S] (h : a.Alike R a') (label : String) :
    CursorM.Agree R S Eq (a.image label) (a'.image label) := by
  unfold image
  rw [h.scope]
  refine FieldScope.agreeOnToken_stringToken.agree.bind ?_
  rintro ⟨token, content⟩ ⟨token', _⟩ ⟨ht, rfl⟩
  cases ht with
  | mk hp => exact agree_fail (.at_place hp ⟨rfl, rfl, rfl, rfl⟩)

/-- A round of a mask: behind a bar both take a term. -/
theorem endsAlike_joinTerm (mask : Nat)
    (hterm : CursorM.EndsAlike R S Eq (FieldScope.maskTerm slot c.advance)
      (FieldScope.maskTerm slot c'.advance)) :
    CursorM.EndsAlike R S Eq (joinTerm slot mask c) (joinTerm slot mask c') := by
  apply CursorM.endsAlike_read
  apply hterm.bind_eq
  intro term d d' hd
  exact .ok rfl hd

theorem agree_joinTerms [Cursor.Kin R S] (mask : Nat) :
    CursorM.Agree R S Eq
      (repeatWhile (fun c => c.rest.length) (·.expects [.ofKind .pipe]) (joinTerm slot) mask)
      (repeatWhile (fun c => c.rest.length) (·.expects [.ofKind .pipe]) (joinTerm slot) mask) := by
  refine Agree.repeatWhile (fun _ _ hc => Cursor.Kin.length_eq hc)
    (fun _ _ hc => Cursor.Kin.expects_one hc _) ?_ rfl
  rintro mask _ c c' rfl hc hbar
  have hpasses : Cursor.Passes S (.ofKind .pipe) := .ofKind (by decide) (by decide)
  have hnext := hpasses c c' hc (by rwa [Cursor.expects_single] at hbar)
  exact endsAlike_joinTerm mask (FieldScope.agreeOnToken_maskTerm.agree _ _ hnext)

theorem agree_endOfMask [Cursor.Kin R S] (scope : FieldScope) (mask : Nat) :
    CursorM.Agree R S Eq
      (do
        if ← CursorM.isAt .semicolon then return mask
        let next ← CursorM.peek
        CursorM.fail ((Problem.malformedMask scope.field next).at next.position))
      (do
        if ← CursorM.isAt .semicolon then return mask
        let next ← CursorM.peek
        CursorM.fail ((Problem.malformedMask scope.field next).at next.position)) := by
  refine (agree_isAt _).bind_eq fun ended => ?_
  cases ended with
  | true => exact .pure rfl
  | false => exact agree_blame fun _ _ _ _ => ⟨rfl, rfl, rfl, rfl⟩

theorem agree_maskTerms [Cursor.Kin R S] (h : a.Alike R a') :
    CursorM.Agree R S Eq (a.maskTerms slot) (a'.maskTerms slot) := by
  unfold maskTerms
  rw [h.scope]
  refine Agree.bind_eq (agree_isAt _) fun none => ?_
  cases none with
  | true => exact .pure rfl
  | false =>
    exact FieldScope.agreeOnToken_maskTerm.agree.bind_eq fun first =>
      (agree_joinTerms _).bind_eq fun mask => agree_endOfMask a.scope mask

theorem agree_bitmask [Cursor.Kin R S] (h : a.Alike R a') :
    CursorM.Agree R S Eq (a.bitmask slot) (a'.bitmask slot) := by
  rw [bitmask, bitmask, h.scope, h.typeOf, h.field]
  split
  · exact Agree.bind (P := fun _ _ => False) (agree_fail (.anywhere _)) nofun
  · simp only
    split
    · exact agree_fail (.anywhere _)
    · exact (agree_maskTerms h).bind_eq fun _ => .pure rfl

theorem agree_value [Cursor.Kin R S] [Session.Kin S T] (h : a.Alike R a') (d : Directive) :
    AgreeOn R T Eq (a.value slot d) (a'.value slot d) := by
  cases d with
  | reference => exact agree_onCursor (agree_reference h)
  | file => exact agree_file h
  | picture => exact agree_onCursor (agree_image h "Picture")
  | sprite => exact agree_onCursor (agree_image h "Sprite")
  | colorIcon => exact agree_onCursor (agree_image h "ColorIcon")
  | bitmask => exact agree_onCursor (agree_bitmask h)
  | positional =>
    have hl : CursorM.Agree R S Eq (a.literal slot (a.typeOf slot))
        (a'.literal slot (a.typeOf slot)) :=
      agree_literal h
    rw [value, value, h.typeOf]
    exact agree_onCursor hl

theorem agree_put (draft : Draft) (slot : Slot) (type : ValueType) (v : Value) :
    (draft.put slot type v).Agree (Failure.Alike R) Eq (draft.put slot type v) := by
  refine Except.Agree.map (P := Eq) ?_ fun _ _ h => congrArg Prod.fst h
  unfold Draft.write
  split
  · exact .error (.anywhere _)
  · split
    · exact .error (.anywhere _)
    · split
      · exact .ok rfl
      · exact .error .fault

theorem agree_store [Cursor.Kin R S] [Session.Kin S T] (h : a.Alike R a') (d : Directive)
    (draft : Draft) (slot : Slot) :
    AgreeOn R T Eq (a.store d draft slot) (a'.store d draft slot) := by
  rw [store, store, h.typeOf]
  exact Agree.bind_eq (agree_value h d) fun v => Compilation.agree_ofExcept (agree_put _ _ _ v)

theorem agree_follow [Cursor.Kin R S] [Session.Kin S T] (h : a.Alike R a') (draft : Draft)
    (d : Directive) : AgreeOn R T Eq (a.follow draft d) (a'.follow draft d) := by
  rw [follow, follow, h.field]
  refine Agree.foldlM ?_ rfl
  rintro draft _ slot rfl
  exact agree_store h d draft slot

theorem agree_ofField (f : FieldTemplate) (hp : R p q) :
    (Directive.ofField f (some p)).Agree (Failure.Alike R) Eq (Directive.ofField f (some q)) := by
  unfold Directive.ofField
  split
  · exact .ok rfl
  · split
    · exact .ok rfl
    · split
      · exact .ok rfl
      · exact .error (.at_place hp (.refl _))

theorem agree_run [Cursor.Kin R S] [Session.Kin S T] (h : a.Alike R a') (draft : Draft) :
    AgreeOn R T Eq (a.run draft) (a'.run draft) := by
  have hfollow (d : Directive) : AgreeOn R T Eq _ _ := agree_follow h draft d
  cases h with
  | mk hname =>
    refine Agree.bind (agree_onCursor CursorM.agree_peek) fun next next' hnext => ?_
    cases hname with
    | mk hp =>
      cases hnext with
      | mk hq =>
        exact (Compilation.agree_ofExcept (agree_ofField _ hq)).bind_eq fun d =>
          (agree_note _).bind_eq fun _ => agree_locating (hfollow d) hp

end Assignment

theorem TypeTemplate.agree_fieldNamed (t : TypeTemplate) (h : token.Alike R token') :
    (t.fieldNamed token).Agree (Failure.Alike R) Eq (t.fieldNamed token') := by
  cases h with
  | @mk p q lexeme text hp =>
    rw [fieldNamed, fieldNamed]
    cases t.field? text with
    | some f => exact .ok rfl
    | none => exact .error (.at_place hp (.refl _))

namespace Registry

theorem agree_active (r : Registry) : r.active.Agree (Failure.Alike R) Eq r.active := by
  unfold active
  split
  · exact .ok rfl
  · exact .error (.anywhere _)

theorem alike_refusal (n : Int) (type : String) (hp : R p q) :
    Failure.Alike R (refusal n type (some p)) (refusal n type (some q)) := by
  cases hn : Text.isShown n with
  | true =>
    rw [refusal_of_shown hn, refusal_of_shown hn]
    exact .at_place hp (.refl _)
  | false =>
    rw [refusal_of_not_shown hn, refusal_of_not_shown hn]
    exact .fault

theorem agree_claim (r : Registry) (asked : Option Int) (hp : R p q) :
    (r.claim asked (some p)).Agree (Failure.Alike R) Eq (r.claim asked (some q)) := by
  refine r.agree_active.bind_eq fun t => ?_
  cases asked with
  | none => exact .ok rfl
  | some n =>
    by_cases hn : n ∈ r.idsOf t.name
    · simp only [hn, if_true]
      exact .error (alike_refusal n t.name hp)
    · simp only [hn, if_false]
      exact .ok rfl

theorem agree_instantiate (r : Registry) (asked : Option Int) (name : Option Text) (hp : R p q) :
    (r.instantiate asked name (some p)).Agree (Failure.Alike R) Eq
      (r.instantiate asked name (some q)) :=
  r.agree_active.bind_eq fun _ => (r.agree_claim asked hp).bind_eq fun _ => .ok rfl

end Registry

theorem Draft.agree_assemble (d : Draft) :
    d.assemble.Agree (Failure.Alike R) Eq d.assemble := by
  unfold assemble
  split
  · exact .error (.anywhere _)
  · split
    · exact .ok rfl
    · exact .error (.anywhere _)

namespace Declaration

open Compilation (AgreeOn agree_onCursor agree_ofExcept agree_note endsAlike_get endsAlike_peek
  endsAlike_read)

variable {settings : Settings}

theorem agree_start [Session.Kin S T] (header : Header) (hp : R p q) :
    AgreeOn R T Eq (start header p) (start header q) := by
  intro s s' hs
  have hclaim := s.registry.agree_instantiate header.id header.name hp
  have htake (x : Draft × Registry)
      (hx : s.registry.instantiate header.id header.name (some p) = .ok x) :
      T { s with registry := x.2 } { s' with registry := x.2 } := Session.Kin.instantiate hs hx
  change Compilation.EndsAlike R T Eq ((Compilation.ofExcept _ >>= _) s)
    ((Compilation.ofExcept (s'.registry.instantiate _ _ _) >>= _) s')
  rw [Session.Kin.registry hs]
  generalize s.registry.instantiate header.id header.name (some p) = x at hclaim htake ⊢
  generalize s.registry.instantiate header.id header.name (some q) = y at hclaim ⊢
  cases hclaim with
  | @ok x y hxy =>
    subst hxy
    exact .ok rfl (htake x rfl)
  | error he => exact .error he ⟨Session.Kin.registry hs⟩

def assigned (settings : Settings) (d : Draft) (type : TypeTemplate) (name : Token)
    (field : FieldTemplate) : Compilation Draft := do
  CursorM.ensureKind .equals
  let d ← Assignment.run { settings, type, name, field } d
  CursorM.ensureKind .semicolon
  return d

theorem endsAlike_assignment [Cursor.Kin R S] [Session.Kin S T] (hs : T s s') (d : Draft)
    (hvalue : ∀ type field, s.registry.active = .ok type →
      type.fieldNamed s.cursor.peek = .ok field → s.cursor.peek.kind = .identifier →
      Compilation.EndsAlike R T Eq
        (assigned settings d type s.cursor.peek field { s with cursor := s.cursor.advance })
        (assigned settings d type s'.cursor.peek field { s' with cursor := s'.cursor.advance })) :
    Compilation.EndsAlike R T Eq (assignment settings d s) (assignment settings d s') := by
  have hname : s.cursor.peek.Alike R s'.cursor.peek := Cursor.Kin.peek (Session.Kin.cursor hs)
  have hr := Session.Kin.registry hs
  apply endsAlike_peek
  rw [hname.kind_eq]
  by_cases hk : s.cursor.peek.kind = .identifier
  · have hne : ¬s.cursor.peek.kind ≠ .identifier := not_not_intro hk
    rw [if_neg hne, if_neg hne]
    apply endsAlike_read
    change Compilation.EndsAlike R T Eq ((Compilation.ofExcept s.registry.active >>= _) _)
      ((Compilation.ofExcept s'.registry.active >>= _) _)
    rw [show s'.registry.active = s.registry.active from congrArg Registry.active hr]
    cases hactive : s.registry.active with
    | error e =>
      have hagree := s.registry.agree_active (R := R)
      rw [hactive] at hagree
      cases hagree with
      | error he => exact .error he ⟨hr⟩
    | ok type =>
      change Compilation.EndsAlike R T Eq ((Compilation.ofExcept (type.fieldNamed _) >>= _) _)
        ((Compilation.ofExcept (type.fieldNamed _) >>= _) _)
      have hfield := type.agree_fieldNamed hname
      generalize hx : type.fieldNamed s.cursor.peek = x at hfield ⊢
      generalize type.fieldNamed s'.cursor.peek = x' at hfield ⊢
      cases hfield with
      | ok hf =>
        subst hf
        exact hvalue type _ hactive hx hk
      | error he => exact .error he ⟨hr⟩
  · have hne : s.cursor.peek.kind ≠ .identifier := hk
    rw [if_pos hne, if_pos hne]
    have hblamed : (((Problem.expectedFieldName s.cursor.peek).at s.cursor.peek.position)).Alike R
        ((Problem.expectedFieldName s'.cursor.peek).at s'.cursor.peek.position) := by
      generalize s.cursor.peek = name at hname ⊢
      generalize s'.cursor.peek = name' at hname ⊢
      cases hname with
      | mk hp => exact .at_place hp ⟨rfl, rfl, rfl, rfl⟩
    exact .error hblamed ⟨hr⟩

theorem agree_assigned [Cursor.Kin R S] [Session.Kin S T] (d : Draft) {type : TypeTemplate}
    {field : FieldTemplate} (h : Cursor.Passes S (.ofKind .equals)) (hname : token.Alike R token') :
    AgreeOn R T Eq (assigned settings d type token field) (assigned settings d type token' field) :=
  (agree_onCursor (CursorM.agree_ensureKind h)).bind_eq fun _ =>
    (Assignment.agree_run (.mk hname) d).bind_eq fun _ =>
    (agree_onCursor (CursorM.agree_ensureKind (.ofKind (by decide) (by decide)))).bind_eq fun _ =>
    .pure rfl

theorem agreeOn_assignment [Cursor.Kin R S] [Session.Kin S T]
    (h : Cursor.Passes S (.ofKind .equals)) (d : Draft) :
    AgreeOn R T Eq (assignment settings d) (assignment settings d) := by
  intro s s' hs
  apply endsAlike_assignment hs
  intro type field _ _ hk
  have hc : S s.cursor s'.cursor := Session.Kin.cursor hs
  apply agree_assigned d h (Cursor.Kin.peek hc)
  exact Session.Kin.move hs (Cursor.Kin.advance hc (by rw [hk]; nofun))

theorem agreeOn_body [Cursor.Kin R S] [Session.Kin S T]
    (h : ∀ d, AgreeOn R T Eq (assignment settings d) (assignment settings d)) (d : Draft) :
    AgreeOn R T Eq (body settings d) (body settings d) := by
  refine Agree.bind_eq (agree_onCursor (CursorM.agree_ensureKind (.ofKind (by decide) (by decide))))
    fun _ => Agree.bind_eq (Agree.repeatWhile
      (fun _ _ hs => Cursor.Kin.length_eq (Session.Kin.cursor hs))
      (fun _ _ hs => Cursor.Kin.expects_one (Session.Kin.cursor hs) _) ?_ rfl) fun _ =>
    (agree_onCursor (CursorM.agree_ensureKind (.ofKind (by decide) (by decide)))).bind_eq fun _ =>
    .pure rfl
  rintro d _ s s' rfl hs _
  exact h d s s' hs

theorem agreeOn_read [Cursor.Kin R S] [Session.Kin S T]
    (h : ∀ d, AgreeOn R T Eq (assignment settings d) (assignment settings d)) :
    AgreeOn R T Eq (read settings) (read settings) := by
  refine Agree.bind (agree_onCursor CursorM.agree_peek) fun first first' hfirst =>
    Agree.bind_eq (agree_onCursor Header.agree_read) fun header => ?_
  cases hfirst with
  | mk hp =>
    exact (agree_start header hp).bind_eq fun d => (agreeOn_body h d).bind_eq fun d =>
      (agree_ofExcept d.agree_assemble).bind_eq fun _ => (agree_note _).bind_eq fun _ => .pure rfl

/-- The resources read so far may differ; the same resource joins both. -/
theorem agreeOn_readNext [Cursor.Kin R S] [Session.Kin S T]
    (h : ∀ d, AgreeOn R T Eq (assignment settings d) (assignment settings d))
    (done : List Resource) {resources resources' : List Resource}
    (hdone : resources' = done ++ resources) :
    AgreeOn R T (fun xs xs' => xs' = done ++ xs) (readNext settings resources)
      (readNext settings resources') := by
  intro s s' hs
  have hc : S s.cursor s'.cursor := Session.Kin.cursor hs
  have hnext : s.cursor.peek.Alike R s'.cursor.peek := Cursor.Kin.peek hc
  have hat : s'.cursor.isAtDeclaration = s.cursor.isAtDeclaration := Cursor.Kin.expects_one hc _
  rw [readNext, readNext]
  apply endsAlike_get
  rw [hat]
  cases s.cursor.isAtDeclaration with
  | true =>
    refine Agree.bind_eq (agreeOn_read h) (fun resource => ?_) s s' hs
    exact .pure (by rw [hdone, List.append_assoc])
  | false =>
    have hblamed : ((Problem.expectedDeclaration s.cursor.peek).at s.cursor.peek.position).Alike R
        ((Problem.expectedDeclaration s'.cursor.peek).at s'.cursor.peek.position) := by
      generalize s.cursor.peek = next at hnext ⊢
      generalize s'.cursor.peek = next' at hnext ⊢
      cases hnext with
      | mk hp => exact .at_place hp ⟨rfl, rfl, rfl, rfl⟩
    exact .error hblamed ⟨Session.Kin.registry hs⟩

theorem agreeOn_readAll [Cursor.Kin R S] [Session.Kin S T]
    (h : ∀ d, AgreeOn R T Eq (assignment settings d) (assignment settings d))
    (done : List Resource) :
    AgreeOn R T (fun xs xs' => xs' = done ++ xs) (readAll settings)
      (repeatWhile Session.remaining (!·.cursor.isFinished) (readNext settings) done) := by
  refine Agree.repeatWhile (fun _ _ hs => Cursor.Kin.length_eq (Session.Kin.cursor hs))
    (fun _ _ hs => congrArg not (Cursor.Kin.isFinished_eq (Session.Kin.cursor hs)))
    (fun _ _ s s' hab hs _ => agreeOn_readNext h done hab s s' hs) ?_
  rw [List.append_nil]

theorem agree_assignment (d : Draft) :
    Compilation.Agree R Eq (assignment settings d) (assignment settings d) :=
  agreeOn_assignment (fun _ _ hc _ => hc.advance 1) d

theorem agree_body (d : Draft) : Compilation.Agree R Eq (body settings d) (body settings d) :=
  agreeOn_body agree_assignment d

theorem agree_read : Compilation.Agree R Eq (read settings) (read settings) :=
  agreeOn_read agree_assignment

theorem agree_readAll (done : List Resource) :
    Compilation.Agree R (fun xs xs' => xs' = done ++ xs) (readAll settings)
      (repeatWhile Session.remaining (!·.cursor.isFinished) (readNext settings) done) :=
  agreeOn_readAll agree_assignment done

end Declaration

end ResourceScript
