import Mathlib.Data.List.SplitBy
import Mathlib.Data.List.TakeWhile
import ResourceScript.Proofs.Grammar
import ResourceScript.Proofs.Likeness

namespace ResourceScript

variable {settings : Settings} {t : TypeTemplate} {f : FieldTemplate} {slot : Slot} {token : Token}
  {ts us : List Token} {vs : List (String × Value)} {k : LexemeKind}

def Token.spelling (t : Token) : Lexeme × String :=
  (t.lexeme, t.text)

theorem Token.alike_iff {token' : Token} :
    token.Alike (fun _ _ => True) token' ↔ token.spelling = token'.spelling := by
  constructor
  · rintro ⟨-⟩
    rfl
  · intro h
    obtain ⟨lexeme, text, p⟩ := token
    obtain ⟨lexeme', text', q⟩ := token'
    obtain ⟨rfl, rfl⟩ := Prod.mk.inj h
    exact .mk trivial

theorem Token.forall₂_alike_iff : List.Forall₂ (Token.Alike fun _ _ => True) ts us ↔
    ts.map Token.spelling = us.map Token.spelling := by
  have halike : Token.Alike (fun _ _ => True) = fun t t' => t.spelling = t'.spelling :=
    funext₂ fun _ _ => propext alike_iff
  rw [halike, ← List.forall₂_eq_eq_eq, List.forall₂_map_left_iff, List.forall₂_map_right_iff]

/-- The stretches of tokens that end in one of a class. -/
def closedBy (k : LexemeKind) (tokens : List Token) : List (List Token) :=
  tokens.splitBy fun token _ => token.kind != k

/-- The declarations of a script, each up to the brace that closes it. -/
def declarationsOf (tokens : List Token) : List (List Token) :=
  closedBy .rightBrace tokens

/-- The braces of a declaration and what stands between them. -/
def bodyOf (declaration : List Token) : List Token :=
  declaration.dropWhile (·.kind != .leftBrace)

theorem closedBy_cons {closing : Token} (hts : ∀ token ∈ ts, token.kind ≠ k)
    (hc : closing.kind = k) (us : List Token) :
    closedBy k (ts ++ closing :: us) = (ts ++ [closing]) :: closedBy k us := by
  have hchain : (ts ++ [closing]).IsChain fun token _ => (token.kind != k) = true := by
    induction ts with
    | nil => exact .singleton closing
    | cons token ts ih =>
      obtain ⟨htoken, hts⟩ := List.forall_mem_cons.mp hts
      rw [List.cons_append, List.isChain_cons]
      exact ⟨fun _ _ => bne_iff_ne.mpr htoken, ih hts⟩
  have happend : closedBy k ((ts ++ [closing]) ++ us) =
      closedBy k (ts ++ [closing]) ++ closedBy k us := by
    apply List.splitBy_append
    intro token htoken
    simp at htoken
    simp [← htoken, hc]
  have hone : closedBy k (ts ++ [closing]) = [ts ++ [closing]] := by
    apply List.splitBy_of_isChain _ hchain
    simp
  rw [hone, List.append_assoc] at happend
  exact happend

/-- The classes of the tokens that values are made of. -/
def LexemeKind.isOfValue : LexemeKind → Bool
  | identifier | integer | resourceId | string | pipe => true
  | _ => false

/-- A name, an equals sign, a value, and the semicolon that ends it. -/
def IsAssignment (ts : List Token) : Prop :=
  ∃ name equals value semicolon, ts = name :: equals :: (value ++ [semicolon]) ∧
    name.kind = .identifier ∧ equals.kind = .equals ∧ semicolon.kind = .semicolon ∧
    ∀ token ∈ value, token.kind.isOfValue = true

theorem Token.isOfValue_of_lexeme {lexeme : Lexeme} (h : token.lexeme = lexeme)
    (hl : lexeme.kind.isOfValue = true) : token.kind.isOfValue = true := by
  rwa [kind, h]

theorem Slot.isOfValue_of_integer? {n : Int} (h : slot.integer? token = some n) :
    token.kind.isOfValue = true := by
  unfold integer? at h
  split at h
  case h_1 hl => exact Token.isOfValue_of_lexeme hl rfl
  case h_2 hl => exact Token.isOfValue_of_lexeme hl rfl
  case h_3 => cases h

theorem Slot.isOfValue_of_text? {content : Text} (h : slot.text? token = some content) :
    token.kind.isOfValue = true := by
  unfold text? at h
  split at h
  case h_1 hl => exact Token.isOfValue_of_lexeme hl rfl
  case h_2 hl => exact Token.isOfValue_of_lexeme hl rfl
  case h_3 => cases h

namespace Grammar

theorem MoreTerms.isOfValue {ns : List Int} (h : MoreTerms slot ts ns) :
    ∀ token ∈ ts, token.kind.isOfValue = true := by
  induction h with
  | nil => exact List.forall_mem_nil _
  | cons hbar hn _ ih =>
    have hpipe : LexemeKind.pipe.isOfValue = true := rfl
    exact List.forall_mem_cons.mpr
      ⟨hbar ▸ hpipe, List.forall_mem_cons.mpr ⟨Slot.isOfValue_of_integer? hn, ih⟩⟩

theorem MaskTerms.isOfValue {ns : List Int} (h : MaskTerms slot ts ns) :
    ∀ token ∈ ts, token.kind.isOfValue = true := by
  cases h with
  | none => exact List.forall_mem_nil _
  | some hn hmore =>
    exact List.forall_mem_cons.mpr ⟨Slot.isOfValue_of_integer? hn, hmore.isOfValue⟩

theorem SlotValue.isOfValue {d : Directive} {v : Value} (h : SlotValue settings t f slot d ts v) :
    ∀ token ∈ ts, token.kind.isOfValue = true := by
  cases h with
  | reference hl _ => exact List.forall_mem_singleton.mpr (Token.isOfValue_of_lexeme hl rfl)
  | text hl _ => exact List.forall_mem_singleton.mpr (Token.isOfValue_of_lexeme hl rfl)
  | contents hword hl _ =>
    have hname : LexemeKind.identifier.isOfValue = true := rfl
    exact List.forall_mem_cons.mpr
      ⟨hword.1 ▸ hname, List.forall_mem_singleton.mpr (Token.isOfValue_of_lexeme hl rfl)⟩
  | mask _ _ hterms => exact hterms.isOfValue
  | integer hn => exact List.forall_mem_singleton.mpr (Slot.isOfValue_of_integer? hn)
  | string hs _ _ => exact List.forall_mem_singleton.mpr (Slot.isOfValue_of_text? hs)
  | rectangle _ hall =>
    clear * - hall
    induction hall with
    | nil => exact List.forall_mem_nil _
    | cons hl _ ih => exact List.forall_mem_cons.mpr ⟨Token.isOfValue_of_lexeme hl rfl, ih⟩

theorem SlotValues.isOfValue {d : Directive} {slots : List Slot}
    (h : SlotValues settings t f d slots ts vs) : ∀ token ∈ ts, token.kind.isOfValue = true := by
  induction h with
  | nil => exact List.forall_mem_nil _
  | cons hv _ _ ih => exact List.forall_mem_append.mpr ⟨hv.isOfValue, ih⟩

theorem Assignment.isAssignment (h : Assignment settings t ts vs) : IsAssignment ts := by
  cases h with
  | mk hname _ _ hequals hvs hsemicolon =>
    exact ⟨_, _, _, _, rfl, hname, hequals, hsemicolon, hvs.isOfValue⟩

end Grammar

/-- The classes of the tokens that hold a declaration together. -/
def LexemeKind.isBrace : LexemeKind → Bool
  | leftBrace | rightBrace => true
  | _ => false

theorem LexemeKind.not_isBrace_of_isOfValue (h : k.isOfValue = true) : k.isBrace = false := by
  cases k <;> first | rfl | cases h

theorem LexemeKind.ne_of_not_isBrace (h : k.isBrace = false) :
    k ≠ .leftBrace ∧ k ≠ .rightBrace := by
  constructor <;> rintro rfl <;> cases h

theorem IsAssignment.not_isBrace (h : IsAssignment ts) :
    ∀ token ∈ ts, token.kind.isBrace = false := by
  obtain ⟨name, equals, value, semicolon, rfl, hname, hequals, hsemicolon, hvalue⟩ := h
  intro token htoken
  simp only [List.mem_cons, List.mem_append, List.not_mem_nil, or_false] at htoken
  rcases htoken with rfl | rfl | htoken | rfl
  · rw [hname]
    rfl
  · rw [hequals]
    rfl
  · exact LexemeKind.not_isBrace_of_isOfValue (hvalue token htoken)
  · rw [hsemicolon]
    rfl

namespace Grammar

variable {header : Header}

theorem not_isBrace_of_idNumber? {n : Int} (h : token.lexeme.idNumber? = some n) :
    token.kind.isBrace = false := by
  rw [Token.kind]
  cases hl : token.lexeme <;> first | rfl | simp [hl, Lexeme.idNumber?] at h

theorem not_isBrace_of_string {content : Text} (h : token.lexeme = .string content) :
    token.kind.isBrace = false := by
  rw [Token.kind, h]
  rfl

theorem HeaderContents.not_isBrace (h : HeaderContents ts header) :
    ∀ token ∈ ts, token.kind.isBrace = false := by
  cases h with
  | nothing => exact List.forall_mem_nil _
  | id hn => exact List.forall_mem_singleton.mpr (not_isBrace_of_idNumber? hn)
  | @idAndName _ _ comma _ _ hn hcomma hname =>
    have hc : comma.kind.isBrace = false := by rw [hcomma]; rfl
    simp [not_isBrace_of_idNumber? hn, hc, not_isBrace_of_string hname]
  | name hname => exact List.forall_mem_singleton.mpr (not_isBrace_of_string hname)

theorem HeaderTokens.not_isBrace (h : HeaderTokens ts header) :
    ∀ token ∈ ts, token.kind.isBrace = false := by
  cases h with
  | @mk _ _ _ left right hword hleft hcontents hright =>
    intro token htoken
    simp only [List.mem_cons, List.mem_append, List.not_mem_nil, or_false] at htoken
    rcases htoken with rfl | rfl | htoken | rfl
    · rw [hword.1]
      rfl
    · rw [hleft]
      rfl
    · exact hcontents.not_isBrace token htoken
    · rw [hright]
      rfl

theorem Assignments.not_isBrace (h : Assignments settings t ts vs) :
    ∀ token ∈ ts, token.kind.isBrace = false := by
  induction h with
  | nil => exact List.forall_mem_nil _
  | cons ha _ ih => exact List.forall_mem_append.mpr ⟨ha.isAssignment.not_isBrace, ih⟩

theorem Declaration.bodyOf_spells (h : Declaration settings t ts header vs) :
    Body settings t (bodyOf ts) vs := by
  cases h with
  | @mk hs _ us _ hheader hbody =>
    have hskip : hs.dropWhile (·.kind != .leftBrace) = [] := by
      apply List.dropWhile_eq_nil_iff.mpr
      intro token htoken
      have hne := LexemeKind.ne_of_not_isBrace (hheader.not_isBrace token htoken)
      exact bne_iff_ne.mpr hne.1
    have hbodyOf : bodyOf (hs ++ us) = us := by
      cases hbody with
      | mk hleft _ _ _ => simp [bodyOf, List.dropWhile_append, hskip, hleft]
    rwa [hbodyOf]

theorem Declaration.exists_closing (h : Declaration settings t ts header vs) :
    ∃ front closing, ts = front ++ [closing] ∧ closing.kind = .rightBrace ∧
      ∀ token ∈ front, token.kind ≠ .rightBrace := by
  cases h with
  | @mk hs _ _ _ hheader hbody =>
    cases hbody with
    | @mk bs _ left right hleft hassignments _ hright =>
      refine ⟨hs ++ left :: bs, right, by simp, hright, ?_⟩
      intro token htoken
      simp only [List.mem_cons, List.mem_append] at htoken
      rcases htoken with htoken | rfl | htoken
      · exact (LexemeKind.ne_of_not_isBrace (hheader.not_isBrace token htoken)).2
      · rw [hleft]
        decide
      · exact (LexemeKind.ne_of_not_isBrace (hassignments.not_isBrace token htoken)).2

theorem Declaration.declarationsOf_append (h : Declaration settings t ts header vs)
    (us : List Token) : declarationsOf (ts ++ us) = ts :: declarationsOf us := by
  obtain ⟨front, closing, rfl, hclosing, hfront⟩ := h.exists_closing
  have hclosed := closedBy_cons hfront hclosing us
  simpa [declarationsOf] using hclosed

theorem Script.declarationsOf_spell {taken : List Int} {resources : List Resource}
    (h : Script settings t taken ts resources) :
    List.Forall₂ (fun d x => ∃ header values id, Declaration settings t d header values ∧
      x = t.resource id header.name values) (declarationsOf ts) resources := by
  induction h with
  | nil => exact .nil
  | cons hd _ _ ih =>
    rw [hd.declarationsOf_append]
    exact .cons ⟨_, _, _, hd, rfl⟩ ih

end Grammar

end ResourceScript
