import ResourceScript.Proofs.Blame
import ResourceScript.Proofs.Stream

namespace ResourceScript.Header

open CursorM (ends_peek_bind ends_read_bind ends_expects_bind)

variable {c c' : Cursor} {tokens : List Token} {token : Token} {settings : Settings}
  {t : TypeTemplate} {header : Header}

theorem moves_of_idNumber (h : c.peek.lexeme.idNumber? = some n) : c.Moves [c.peek] c.advance := by
  refine Cursor.moves_peek fun hk => ?_
  rw [Token.kind] at hk
  cases hl : c.peek.lexeme <;> simp_all [Lexeme.kind, Lexeme.idNumber?]

theorem string?_eq_some {l : Lexeme} : l.string? = some s ↔ l = .string s := by
  cases l <;> simp [Lexeme.string?]

theorem idNumber?_string {l : Lexeme} (h : l = .string s) : l.idNumber? = none := by
  rw [h]
  rfl

theorem exists_string (h : token.kind = .string) : ∃ s, token.lexeme = .string s := by
  rw [Token.kind] at h
  cases hl : token.lexeme with
  | string s => exact ⟨s, rfl⟩
  | _ => simp [hl, Lexeme.kind] at h

theorem ends_contents :
    Ends contents c (fun header c' => ∃ ts, c.Moves ts c' ∧ Grammar.HeaderContents ts header)
      Q := by
  apply ends_peek_bind
  split
  case h_1 n hn =>
    have hm := moves_of_idNumber hn
    refine ends_read_bind (ends_expects_bind ?_)
    split
    case isTrue he =>
      have hs : ∀ e ∈ [Expectation.ofKind .comma, .ofKind .string], e.IsSolid := by
        simp [Expectation.IsSolid, Expectation.ofKind]
      obtain ⟨ts, hts, hm'⟩ := Cursor.moves_of_expects hs he
      cases hts with
      | @cons _ comma _ us hcomma hts =>
        cases hts with
        | @cons _ name _ us hname hts =>
          cases hts
          obtain ⟨c₁, h₁, h₂⟩ := hm'.split_cons
          obtain ⟨s, hl⟩ := exists_string (Expectation.isMetBy_ofKind.mp hname)
          refine ends_read_bind (ends_read_bind (Ends.pure ?_))
          have ha : c₁ = c.advance.advance := h₁.eq_advance
          have hp : c.advance.advance.peek = name := ha ▸ Cursor.peek_of_moves h₂
          rw [hp, string?_eq_some.mpr hl, Cursor.advance_advance]
          exact ⟨_, hm.trans hm', .idAndName hn (Expectation.isMetBy_ofKind.mp hcomma) hl⟩
    case isFalse => exact Ends.pure ⟨_, hm, .id hn⟩
  case h_2 =>
    split
    case h_1 s hs =>
      have hl := string?_eq_some.mp hs
      have hm : c.Moves [c.peek] c.advance :=
        Cursor.moves_peek (by rw [Token.kind, hl]; simp [Lexeme.kind])
      exact ends_read_bind (Ends.pure ⟨_, hm, .name hl⟩)
    case h_2 => exact Ends.pure ⟨[], .refl c, .nothing⟩

theorem contents_of_moves (ht : Grammar.HeaderContents ts header) (h : c.Moves ts c')
    (hk : c'.peek.kind = .rightParen) : contents c = .ok header c' := by
  cases ht with
  | nothing =>
    rw [h.eq_of_nil] at hk ⊢
    have hn : c.peek.lexeme.idNumber? = none ∧ c.peek.lexeme.string? = none := by
      rw [Token.kind] at hk
      cases hl : c.peek.lexeme <;> simp_all [Lexeme.kind, Lexeme.idNumber?, Lexeme.string?]
    rw [contents, bind_of_ok _ CursorM.peek_eq]
    simp only [hn.1, hn.2]
    rfl
  | id hn =>
    rw [contents, bind_of_ok _ (CursorM.peek_of_moves h)]
    simp only [hn]
    have he : c'.expects [.ofKind .comma, .ofKind .string] = false := by
      rw [Cursor.expects_cons, Bool.and_eq_false_iff, Bool.eq_false_iff, ne_eq,
        Expectation.isMetBy_ofKind, hk]
      exact .inl (by decide)
    rw [bind_of_ok _ (CursorM.read_of_moves h), bind_of_ok _ (CursorM.expects_eq he)]
    rfl
  | idAndName hn hcomma hl =>
    obtain ⟨c₁, h₁, h₂⟩ := h.split_cons
    obtain ⟨c₂, h₂', h₃⟩ := h₂.split_cons
    rw [contents, bind_of_ok _ (CursorM.peek_of_moves h)]
    simp only [hn]
    have he : c₁.expects [.ofKind .comma, .ofKind .string] = true := by
      refine Cursor.expects_of_moves h₂ (.cons ?_ (.cons ?_ .nil))
      · exact Expectation.isMetBy_ofKind.mpr hcomma
      · exact Expectation.isMetBy_ofKind.mpr (by rw [Token.kind, hl]; rfl)
    rw [bind_of_ok _ (CursorM.read_of_moves h₁), bind_of_ok _ (CursorM.expects_eq he)]
    simp only [if_true]
    rw [bind_of_ok _ (CursorM.read_of_moves h₂'), bind_of_ok _ (CursorM.read_of_moves h₃),
      string?_eq_some.mpr hl]
    rfl
  | name hl =>
    rw [contents, bind_of_ok _ (CursorM.peek_of_moves h)]
    simp only [idNumber?_string hl, string?_eq_some.mpr hl]
    rw [bind_of_ok _ (CursorM.read_of_moves h)]
    rfl

theorem ends_read (hc : c.stream <:+ tokens) :
    Ends read c (fun header c' => ∃ ts, c.Moves ts c' ∧ Grammar.HeaderTokens ts header)
      fun e _ => Failure.Explained settings t tokens e ∧ e.HasPlace := by
  refine Ends.bind (CursorM.ends_ensure (P := fun _ c' => ∃ word left, c.Moves [word, left] c' ∧
    word.IsWord "new" ∧ left.kind = .leftParen) (by simp [Expectation.IsSolid, Cursor.newWord,
    Expectation.word, Expectation.ofKind]) ?_ ?_) ?_
  · intro ts us c' hts hm
    cases hts with
    | cons hword hts =>
      cases hts with
      | cons hleft hts =>
        cases hts
        exact ⟨_, _, hm, Expectation.isMetBy_word.mp hword, Expectation.isMetBy_ofKind.mp hleft⟩
  · exact fun e token ht => ⟨.at_token rfl (hc.subset ht), rfl⟩
  · rintro _ c₁ ⟨word, left, h₁, hword, hleft⟩
    apply ends_contents.bind
    rintro header c₂ ⟨ts, h₂, hts⟩
    have hm := h₁.trans h₂
    refine Ends.bind (CursorM.ends_ensureKind (P := fun _ c' => ∃ right, right.kind = .rightParen ∧
      c₂.Moves [right] c') (by decide) (fun right c' hright h₃ => ⟨right, hright, h₃⟩)
      fun e token ht => ⟨.at_token rfl ((hm.suffix hc).subset ht), rfl⟩) ?_
    rintro _ c₃ ⟨right, hright, h₃⟩
    exact Ends.pure ⟨_, h₁.trans (h₂.trans h₃), .mk hword hleft hts hright⟩

theorem isAtDeclaration_of_read (h : read c = .ok header c') : c.isAtDeclaration = true := by
  obtain ⟨ts, c₁, hensure, -⟩ := bind_eq_ok.mp h
  have he := CursorM.expects_of_ensure hensure
  rw [Cursor.expects_cons, Bool.and_eq_true] at he
  rw [Cursor.isAtDeclaration, Cursor.expects_single]
  exact he.1

theorem read_of_moves (ht : Grammar.HeaderTokens ts header) (h : c.Moves ts c') :
    read c = .ok header c' := by
  cases ht with
  | @mk ts header word left right hword hleft hts hright =>
    have h : c.Moves ([word, left] ++ (ts ++ [right])) c' := h
    obtain ⟨c₁, h₁, h₂⟩ := h.split
    obtain ⟨c₂, h₂, h₃⟩ := h₂.split
    obtain ⟨us, hu⟩ := CursorM.ensure_of_moves h₁ (.cons (Expectation.isMetBy_word.mpr hword)
      (.cons (Expectation.isMetBy_ofKind.mpr hleft) .nil))
    have hk : c₂.peek.kind = .rightParen := by rw [Cursor.peek_of_moves h₃, hright]
    rw [read, Cursor.newWord, bind_of_ok _ hu, bind_of_ok _ (contents_of_moves hts h₂ hk),
      bind_of_ok _ (CursorM.ensureKind_of_moves h₃ hright)]
    rfl

end ResourceScript.Header
