import ResourceScript.Proofs.Constants
import ResourceScript.Proofs.Layout

namespace ResourceScript

/-- Cursors that have tokens before them that are alike, if not all of them then at least those up
to an equals sign that stands behind `name` in both, with as many tokens behind it. -/
inductive Cursor.Bridged (R : Position → Position → Prop) (front : List Token) (name equals : Token)
    (back back' : List Token) (c c' : Cursor) : Prop where
  | before {ts ts' : List Token} : equals.kind = .equals → back'.length = back.length →
      ts ≠ [] → ts <:+ front ++ [name, equals] → List.Forall₂ (Token.Alike R) ts ts' →
      c.rest = ts ++ back → c'.rest = ts' ++ back' → c.last.Alike R c'.last →
      Bridged R front name equals back back' c c'
  | behind : c.Alike R c' → Bridged R front name equals back back' c c'

variable {R : Position → Position → Prop} {S : Cursor → Cursor → Prop} {t : TypeTemplate}
  {front back back' ts ts' us : List Token} {name equals token token' : Token} {c c' : Cursor}
  {settings : Settings} {r : Registry} {s s' : Session}

theorem eq_of_suffix_pair (h : [x, y] <:+ xs ++ [a, b]) : x = a ∧ y = b := by
  obtain ⟨ys, h⟩ := h
  obtain ⟨-, h⟩ := List.append_inj' h rfl
  exact ⟨(List.cons.inj h).1, List.singleton_inj.mp (List.cons.inj h).2⟩

theorem eq_of_suffix_singleton (h : [y] <:+ xs ++ [a, b]) : y = b := by
  obtain ⟨ys, h⟩ := h
  rw [List.append_cons xs a [b]] at h
  exact List.singleton_inj.mp (List.append_inj' h rfl).2

namespace Cursor

theorem Bridged.advance (h : Bridged R front name equals back back' c c')
    (hk : c.peek.kind ≠ .equals) : Bridged R front name equals back back' c.advance c'.advance := by
  cases h with
  | behind h => exact .behind (h.advance 1)
  | before hequals hlength hne hsuffix halike hrest hrest' hlast =>
    cases halike with
    | nil => exact absurd rfl hne
    | @cons x x' xs xs' hx hxs =>
      refine .before hequals hlength ?_ ((List.suffix_cons x xs).trans hsuffix) hxs ?_ ?_ hlast
      · rintro rfl
        have hpeek : c.peek = x := by simp [peek, hrest]
        rw [hpeek, eq_of_suffix_singleton hsuffix] at hk
        exact hk hequals
      · simp [Cursor.advance, hrest]
      · simp [Cursor.advance, hrest']

instance : Kin R (Bridged R front name equals back back') where
  peek h := by
    cases h with
    | behind h => exact h.peek
    | before _ _ hne _ halike hrest hrest' _ =>
      cases halike with
      | nil => exact absurd rfl hne
      | cons hx _ => simpa [Cursor.peek, hrest, hrest'] using hx
  length_eq h := by
    cases h with
    | behind h => exact h.length_eq
    | before _ hlength _ _ halike hrest hrest' _ =>
      rw [hrest, hrest', List.length_append, List.length_append, halike.length_eq, hlength]
  advance := Bridged.advance

end Cursor

namespace Declaration

open Compilation (AgreeOn agree_onCursor)

/-- The value in which the scripts differ is read alike, and behind it their tokens are alike again.
-/
def AgreesBehind (R : Position → Position → Prop) (settings : Settings) (t : TypeTemplate)
    (name : Token) (back back' : List Token) : Prop :=
  ∀ (a a' : Assignment) (s s' : Session) (d : Draft), a.Alike R a' → a.settings = settings →
    a.type = t → t.field? name.text = some a.field →
    s.cursor.rest = back → s'.cursor.rest = back' →
    Session.On (fun c c' => c.last.Alike R c'.last) t s s' →
    Compilation.EndsAlike R (Session.On (Cursor.Alike R) t) Eq (a.run d s) (a'.run d s')

/-- Behind its equals sign a value is read alike, be it the one in which the scripts differ or
another before it. -/
theorem endsAlike_run_bridged (hvalue : AgreesBehind R settings t name back back')
    (hequals : equals.kind = .equals) (hlength : back'.length = back.length)
    (hsuffix : token :: sign :: ts <:+ front ++ [name, equals])
    (halike : List.Forall₂ (Token.Alike R) ts ts') (hrest : s.cursor.rest = ts ++ back)
    (hrest' : s'.cursor.rest = ts' ++ back')
    (hs : Session.On (fun c c' => c.last.Alike R c'.last) t s s')
    (hname : token.Alike R token') (hfield : t.field? token.text = some field) (d : Draft) :
    Compilation.EndsAlike R (Session.On (Cursor.Bridged R front name equals back back') t) Eq
      (Assignment.run ⟨settings, t, token, field⟩ d s)
      (Assignment.run ⟨settings, t, token', field⟩ d s') := by
  by_cases hts : ts = []
  · subst hts
    cases halike
    obtain ⟨rfl, -⟩ := eq_of_suffix_pair hsuffix
    apply (hvalue _ _ s s' d (.mk hname) rfl rfl hfield hrest hrest' hs).mono
    intro u u' hu
    exact ⟨.behind hu.cursor, hu.registry, hu.active⟩
  · have hbefore : ts <:+ front ++ [name, equals] :=
      (List.suffix_cons sign ts).trans ((List.suffix_cons token _).trans hsuffix)
    have hcursor : s.cursor.Bridged R front name equals back back' s'.cursor :=
      .before hequals hlength hts hbefore halike hrest hrest' hs.cursor
    exact Assignment.agree_run (.mk hname) d s s' ⟨hcursor, hs.registry, hs.active⟩

theorem endsAlike_assigned_bridged (hvalue : AgreesBehind R settings t name back back')
    (hequals : equals.kind = .equals) (hlength : back'.length = back.length)
    (hsuffix : token :: sign :: ts <:+ front ++ [name, equals])
    (hsign : sign.Alike R sign') (halike : List.Forall₂ (Token.Alike R) ts ts')
    (hrest : s.cursor.rest = sign :: (ts ++ back))
    (hrest' : s'.cursor.rest = sign' :: (ts' ++ back'))
    (hs : Session.On (fun c c' => c.last.Alike R c'.last) t s s')
    (hname : token.Alike R token') (hfield : t.field? token.text = some field) (d : Draft) :
    Compilation.EndsAlike R (Session.On (Cursor.Bridged R front name equals back back') t) Eq
      (assigned settings d t token field s) (assigned settings d t token' field s') := by
  have hpeek : s.cursor.peek.Alike R s'.cursor.peek := by
    simpa [Cursor.peek, hrest, hrest'] using hsign
  have hpast : Compilation.EndsAlike R (Session.On (s.cursor.Past 1 s'.cursor) t) Eq
      ((liftM (CursorM.ensureKind .equals) : Compilation Unit) s)
      ((liftM (CursorM.ensureKind .equals) : Compilation Unit) s') :=
    Compilation.endsAlike_onCursor (CursorM.endsAlike_ensureKind .equals hpeek) hs.registry
      fun _ _ hc => ⟨hc.2, hs.registry, hs.active⟩
  apply hpast.bind_eq
  rintro _ u u' ⟨⟨hu, hu'⟩, hr, ha⟩
  have hback : u.cursor.rest = ts ++ back := by
    rw [hu, Cursor.advance, hrest]
    rfl
  have hback' : u'.cursor.rest = ts' ++ back' := by
    rw [hu', Cursor.advance, hrest']
    rfl
  have hlast : u.cursor.last.Alike R u'.cursor.last := by
    rw [hu, hu']
    exact hs.cursor
  apply (endsAlike_run_bridged hvalue hequals hlength hsuffix halike hback hback' ⟨hlast, hr, ha⟩
    hname hfield d).bind_eq
  intro d v v' hv
  have hsemicolon : Cursor.Passes (Cursor.Bridged R front name equals back back')
      (.ofKind .semicolon) := .ofKind (by decide) (by decide)
  exact Agree.bind_eq (agree_onCursor (CursorM.agree_ensureKind hsemicolon))
    (fun _ => .pure rfl) v v' hv

theorem agree_assignment_bridged (hvalue : AgreesBehind R settings t name back back') (d : Draft) :
    AgreeOn R (Session.On (Cursor.Bridged R front name equals back back') t) Eq
      (assignment settings d) (assignment settings d) := by
  intro s s' hs
  apply endsAlike_assignment hs
  intro type field hactive hfield hk
  obtain rfl : type = t := by
    rw [Registry.active, hs.active] at hactive
    exact (Except.ok.inj hactive).symm
  cases hs.cursor with
  | behind h =>
    have hassigned : AgreeOn R (Session.On (Cursor.Alike R) type) Eq
        (assigned settings d type s.cursor.peek field)
        (assigned settings d type s'.cursor.peek field) :=
      agree_assigned d (fun _ _ hc _ => hc.advance 1) h.peek
    have hnext : Session.On (Cursor.Alike R) type { s with cursor := s.cursor.advance }
        { s' with cursor := s'.cursor.advance } := ⟨h.advance 1, hs.registry, hs.active⟩
    apply (hassigned _ _ hnext).mono
    intro u u' hu
    exact ⟨.behind hu.cursor, hu.registry, hu.active⟩
  | before hequals hlength hne hsuffix halike hrest hrest' hlast =>
    -- The equals sign in front of the value is no name of a field, so one more token is before it.
    rcases halike with _ | @⟨x, x', xs, xs', hx, hxs⟩
    · exact absurd rfl hne
    have hpeek : s.cursor.peek = x := by simp [Cursor.peek, hrest]
    have hpeek' : s'.cursor.peek = x' := by simp [Cursor.peek, hrest']
    rw [hpeek] at hk hfield ⊢
    rw [hpeek']
    rcases hxs with _ | @⟨y, y', ys, ys', hy, hys⟩
    · rw [eq_of_suffix_singleton hsuffix, hequals] at hk
      cases hk
    have hnext : Session.On (fun c c' => c.last.Alike R c'.last) type
        { s with cursor := s.cursor.advance } { s' with cursor := s'.cursor.advance } :=
      ⟨hlast, hs.registry, hs.active⟩
    apply endsAlike_assigned_bridged hvalue hequals hlength hsuffix hy hys _ _ hnext hx
      (TypeTemplate.fieldNamed_eq_ok.mp hfield) d
    · simp [Cursor.advance, hrest]
    · simp [Cursor.advance, hrest']

end Declaration

section Texts

variable {literal left right before after : String} {path : Option String} {lexeme : Lexeme}
  {p : Position} {last : Token} {d : Char} {skipped : List Char}

theorem tokenizeFrom_literal (hliteral : tokenize literal = .ok [⟨lexeme, literal, p⟩, last])
    (hgap : IsGap (d :: skipped)) (q : Position) (cs : List Char) :
    tokenizeFrom q (literal.toList ++ d :: (skipped ++ cs)) =
      (tokenizeFrom (q.after (literal.toList ++ d :: skipped)) cs).map
        (⟨lexeme, literal, q⟩ :: ·) := by
  obtain ⟨us, hscans, hus⟩ := scans_of_tokenizeFrom hliteral
  change [_] ++ [last] = us ++ [_] at hus
  obtain ⟨rfl, -⟩ := List.append_inj' hus rfl
  have hscans : Scans [] (.start none) literal.toList ([] ++ [⟨lexeme, literal, p⟩]) := hscans
  obtain ⟨ds, c, piece, es, hsource, hl, htext, -, -, hpiece, hread, -, -⟩ := hscans.exists_piece
  have htext : literal.toList = c :: piece.more := by
    rw [show literal = _ from htext, String.toList_ofList]
  have hlength := congrArg List.length hsource
  simp only [htext, List.length_cons, List.length_append] at hlength
  obtain rfl : es = [] := List.eq_nil_of_length_eq_zero (by omega)
  have hmark : Piece.at? c (piece.more ++ d :: (skipped ++ cs)) = some piece :=
    Piece.at?_mark_behind hpiece hl hgap.isMark
  rw [htext, List.cons_append, tokenizeFrom_piece hmark hread, ← List.cons_append,
    tokenizeFrom_append_of_isGap hgap, ← Position.after_append]
  rw [Piece.tokens.eq_def, hl, ← htext, String.ofList_toList]
  rfl

/-- A literal between gaps in the place of a token leaves the other tokens as they are, but for
their places. -/
theorem tokenize_substitute
    (htokens : tokenize (before ++ token.text ++ after) path = .ok (ts ++ token :: rest))
    (hplace : token.position.offset = before.length) (hkind : token.kind ≠ .endOfInput)
    (hliteral : tokenize literal = .ok [⟨lexeme, literal, p⟩, last])
    (hleft : IsGap left.toList) (hleft' : left ≠ "") (hright : IsGap right.toList)
    (hright' : right ≠ "") :
    ∃ q rest', tokenize (before ++ left ++ literal ++ right ++ after) path =
        .ok (ts ++ ⟨lexeme, literal, q⟩ :: rest') ∧
      List.Forall₂ (Token.Alike fun _ _ => True) rest rest' := by
  obtain ⟨us, rfl, hscans⟩ := exists_scans_of_append htokens hkind
  obtain ⟨ds, c, piece, es, hsource, -, htext, hposition, hc, -, -, hfront, hback⟩ :=
    hscans.exists_piece
  have hwhole := hsource
  rw [String.toList_append, String.toList_append, List.append_assoc, htext,
    String.toList_ofList] at hsource
  obtain ⟨rfl, hbehind⟩ := List.append_inj hsource (length_eq_of_offset hplace hposition)
  obtain rfl : after.toList = es := List.append_cancel_left hbehind
  obtain ⟨d, skipped, hd⟩ := List.exists_cons_of_ne_nil (mt String.toList_eq_nil_iff.mp hleft')
  obtain ⟨e, skipped', he⟩ := List.exists_cons_of_ne_nil (mt String.toList_eq_nil_iff.mp hright')
  rw [hd] at hleft
  rw [he] at hright
  have hend : d ≠ '\n' → ∃ x xs, c :: (piece.more ++ after.toList) ++ [] = x :: xs ∧ x ≠ '\n' :=
    fun _ => ⟨c, _, rfl, hc⟩
  have hscan := tokenizeFrom_insert hfront hleft hend
    (literal.toList ++ e :: (skipped' ++ after.toList))
  rw [tokenizeFrom_literal hliteral hright] at hscan
  -- What stands behind the token is scanned as before, only from another place.
  generalize ((Position.start path).after (before.toList ++ d :: skipped)).after _ = q' at hscan
  have hagree := tokenizeFrom_agree (R := fun _ _ => True) (fun _ _ _ _ => trivial)
    (p := (Position.start path).after (before.toList ++ c :: piece.more)) (q := q') trivial
    after.toList
  rw [tokenizeFrom_of_scans hback] at hagree
  generalize tokenizeFrom q' after.toList = scanned at hscan hagree
  cases hagree with
  | @ok _ rest' halike =>
    refine ⟨(Position.start path).after (before.toList ++ d :: skipped), rest', ?_, ?_⟩
    · rw [tokenize]
      simp only [String.toList_append, List.append_assoc, hd, he, List.cons_append]
      exact hscan
    · rw [← Position.after_append, List.append_assoc] at halike
      rwa [hwhole]

end Texts

theorem Cursor.parted_of_rest (hR : ∀ p, R p p) (hrest : c.rest = us ++ token :: ts)
    (hrest' : c'.rest = us ++ token' :: ts') (halike : List.Forall₂ (Token.Alike R) ts ts')
    (hlast : c.last.Alike R c'.last) : Parted R us.length c c' where
  front i hi := by
    have hsame : c'.peek i = c.peek i := by
      rw [peek, peek, hrest, hrest', List.getD_append _ _ _ _ hi, List.getD_append _ _ _ _ hi,
        List.getD_eq_getElem _ _ hi, List.getD_eq_getElem _ _ hi]
    rw [hsame]
    exact .mk (hR _)
  behind := by
    constructor
    · have hdrop (x : Token) (xs : List Token) : (us ++ x :: xs).drop (us.length + 1) = xs := by
        rw [← List.drop_drop, List.drop_left, List.drop_one, List.tail_cons]
      rwa [advance, advance, hrest, hrest', hdrop, hdrop]
    · exact hlast

/-- A script with the name of a constant and one with a literal of its value are compiled alike. -/
theorem compile_of_constant {lexeme : Lexeme} {f : FieldTemplate} {source source' : String}
    {path path' : Option String} (hR : ∀ p, R p p)
    (h : tokenize source path = .ok (front ++ name :: equals :: (us ++ token :: ts)))
    (h' : tokenize source' path' = .ok (front ++ name :: equals :: (us ++ token' :: ts')))
    (halike : List.Forall₂ (Token.Alike R) ts ts') (hne : ts ≠ [])
    (hp : R token.position token'.position) (hl : token'.lexeme = lexeme)
    (hequals : equals.kind = .equals) (hk : token.lexeme = .identifier)
    (hactive : r.active? = some t) (hfield : t.field? name.text = some f)
    (hconstant : Grammar.NamesConstant t f us token lexeme) :
    (compile settings r source' path').registry = (compile settings r source path).registry ∧
      (compile settings r source path).result.Agree (Failure.Alike R) Eq
        (compile settings r source' path').result := by
  have hsplit (x : Token) (xs : List Token) : front ++ name :: equals :: (us ++ x :: xs) =
      (front ++ [name, equals] ++ us ++ [x]) ++ xs := by simp
  have hne' : ts' ≠ [] := by
    rintro rfl
    cases halike
    exact hne rfl
  obtain ⟨c, hc, hstream⟩ := Cursor.ofSource_of_tokenize h
  obtain ⟨c', hc', hstream'⟩ := Cursor.ofSource_of_tokenize h'
  rw [hsplit] at hstream hstream'
  obtain ⟨d, hmoves, rfl⟩ := Cursor.exists_moves hstream hne
  obtain ⟨d', hmoves', rfl⟩ := Cursor.exists_moves hstream' hne'
  have hd : d.Alike R d' := .of_stream halike
  have hlast : c.last.Alike R c'.last := by
    rw [← hmoves.last, ← hmoves'.last]
    exact hd.last
  have hvalue : Declaration.AgreesBehind R settings t name (us ++ token :: d.rest)
      (us ++ token' :: d'.rest) := by
    intro a a' s s' draft ha _ htype hf hrest hrest' hs
    obtain rfl : a.field = f := Option.some.inj (hf.symm.trans hfield)
    have htoken' : s'.cursor.peek us.length = token' := by simp [Cursor.peek, hrest']
    subst htype
    rw [← htoken'] at hl hp
    exact Assignment.endsAlike_run_constant ha hconstant hk hrest
      ⟨Cursor.parted_of_rest hR hrest hrest' hd.rest hs.cursor, hs.registry, hs.active⟩ hl hp draft
  have hcursor :
      c.Bridged R front name equals (us ++ token :: d.rest) (us ++ token' :: d'.rest) c' := by
    refine .before hequals ?_ (by simp) (List.suffix_refl _)
      (List.forall₂_same.mpr fun _ _ => .mk (hR _)) ?_ ?_ hlast
    · simp [hd.rest.length_eq]
    · simpa using hmoves.rest
    · simpa using hmoves'.rest
  have hs : Session.On (Cursor.Bridged R front name equals (us ++ token :: d.rest)
      (us ++ token' :: d'.rest)) t { cursor := c, registry := r } { cursor := c', registry := r } :=
    ⟨hcursor, rfl, hactive⟩
  exact compile_of_endsAlike hc hc' (fun _ _ hs => hs.registry)
    (Declaration.agreeOn_readAll (Declaration.agree_assignment_bridged hvalue) [] _ _ hs)

/-- A constant may be spelled out. In the value of a field that has no directive or is a mask, a
literal of the value of a constant may stand between gaps in the place of its name: the script is
compiled to the same resources with the same ids taken, or it fails in the same way. -/
theorem compile_constant {literal left right before after : String} {path : Option String}
    {lexeme : Lexeme} {f : FieldTemplate} {p : Position} {last : Token} {rest : List Token}
    (hactive : r.active? = some t)
    (htokens : tokenize (before ++ token.text ++ after) path =
      .ok (front ++ name :: equals :: (us ++ token :: rest)))
    (hplace : token.position.offset = before.length) (hk : token.lexeme = .identifier)
    (hequals : equals.kind = .equals) (hfield : t.field? name.text = some f)
    (hconstant : Grammar.NamesConstant t f us token lexeme)
    (hliteral : tokenize literal = .ok [⟨lexeme, literal, p⟩, last])
    (hleft : IsGap left.toList) (hleft' : left ≠ "") (hright : IsGap right.toList)
    (hright' : right ≠ "") :
    let named := compile settings r (before ++ token.text ++ after) path
    let spelled := compile settings r (before ++ left ++ literal ++ right ++ after) path
    spelled.registry = named.registry ∧
      named.result.Agree (Failure.Alike fun _ _ => True) Eq spelled.result := by
  have hsplit (x : Token) (xs : List Token) : front ++ name :: equals :: (us ++ x :: xs) =
      (front ++ name :: equals :: us) ++ x :: xs := by simp
  have hkind : token.kind ≠ .endOfInput := by
    rw [Token.kind, hk]
    decide
  have hscanned := htokens
  rw [hsplit] at hscanned
  obtain ⟨q, rest', htokens', halike⟩ :=
    tokenize_substitute hscanned hplace hkind hliteral hleft hleft' hright hright'
  rw [← hsplit] at htokens'
  obtain ⟨us', rfl, -⟩ := exists_scans_of_append hscanned hkind
  exact compile_of_constant (fun _ => trivial) htokens htokens' halike (by simp) trivial rfl hequals
    hk hactive hfield hconstant

namespace Sample

def greetingLabel : Slot :=
  { label with symbols := [("hello", .text "Hi")] }

def pairField : FieldTemplate where
  name := "pair"
  first := rank
  others := [greetingLabel]

/-- Notes whose rank and label are written side by side. -/
def pair : TypeTemplate :=
  { note with fields := [pairField] }

def pairs : Registry :=
  { registry with types := [pair], active? := pair }

def greeting : List Token :=
  (tokenize "new (#200) \x7b pair = 7 hello; \x7d").toOption.getD []

def greetingAt (i : Nat) : Token :=
  greeting.getD i (tokenOf .endOfInput)

theorem greeting_names : Grammar.NamesConstant pair pairField [greetingAt 7] (greetingAt 8)
    (.string (Text.ofString "Hi")) := by
  have hslots : pairField.slots = [rank] ++ greetingLabel :: [] := rfl
  exact .text rfl hslots rfl rfl (by decide +kernel)

end Sample

open Sample in
theorem compile_constant_sample :
    let named := compile Sample.settings pairs "new (#200) \x7b pair = 7 hello; \x7d"
    let spelled := compile Sample.settings pairs
      ("new (#200) \x7b pair = 7 " ++ gap ++ "\"Hi\"" ++ "\n" ++ "; \x7d")
    spelled.registry = named.registry ∧ spelled.result =
      .ok [pair.resource 200 none [("rank", .integer 7), ("label", .bytes [72, 105])]] := by
  have htext : (greetingAt 8).text = "hello" := by decide +kernel
  have htokens : tokenize ("new (#200) \x7b pair = 7 " ++ (greetingAt 8).text ++ "; \x7d") =
      .ok (greeting.take 5 ++ greetingAt 5 :: greetingAt 6 ::
        ([greetingAt 7] ++ greetingAt 8 :: greeting.drop 9)) := by
    rw [htext]
    decide +kernel
  have hliteral : tokenize "\"Hi\"" = .ok [⟨.string (Text.ofString "Hi"), "\"Hi\"", .start none⟩,
      .endOfInput ((Position.start none).after "\"Hi\"".toList)] := by decide +kernel
  have hright : IsGap "\n".toList := .blank (by decide) .nil
  have hnamed : (compile Sample.settings pairs
      ("new (#200) \x7b pair = 7 " ++ "hello" ++ "; \x7d")).result =
      .ok [pair.resource 200 none [("rank", .integer 7), ("label", .bytes [72, 105])]] := by
    decide +kernel
  obtain ⟨hregistry, hresult⟩ : _ ∧ (compile Sample.settings pairs
      ("new (#200) \x7b pair = 7 " ++ (greetingAt 8).text ++ "; \x7d")).result.Agree _ Eq _ :=
    compile_constant rfl htokens (by decide +kernel) (by decide +kernel) (by decide +kernel)
      (by decide +kernel) greeting_names hliteral isGap (by decide) hright (by decide)
  rw [htext] at hregistry hresult
  rw [hnamed] at hresult
  intro named spelled
  constructor
  · exact hregistry
  · change Except.Agree _ Eq _ spelled.result at hresult
    generalize spelled.result = x at hresult
    cases hresult with
    | ok h => exact congrArg Except.ok h.symm

end ResourceScript
