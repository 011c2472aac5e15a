import ResourceScript.Proofs.Likeness
import ResourceScript.Proofs.Outcome
import ResourceScript.Proofs.Pieces

namespace ResourceScript

/-- The tokens of a piece that starts with `c` at a position: one, or none if it is a gap. -/
def Piece.tokens (piece : Piece) (c : Char) (p : Position) : List Token :=
  match piece.lexeme with
  | none => []
  | some lexeme => [⟨lexeme, String.ofList (c :: piece.more), p⟩]

/-- Whether the piece that starts with `c` is a number of more digits than are read. -/
def Piece.isUnread (piece : Piece) (c : Char) : Bool :=
  piece.lexeme.any (isTooLong · (c :: piece.more))

/-- With `behind` after them, the characters from a position on are cut into pieces of these tokens.
-/
inductive Scans (behind : List Char) : Position → List Char → List Token → Prop where
  | nil : Scans behind p [] []
  | piece {c : Char} {cs : List Char} {p : Position} {ts : List Token} {piece : Piece} :
      Piece.at? c (piece.more ++ (cs ++ behind)) = some piece → piece.isUnread c = false →
      Scans behind (p.after (c :: piece.more)) cs ts →
      Scans behind p (c :: (piece.more ++ cs)) (piece.tokens c p ++ ts)

variable {c : Char} {cs ds behind : List Char} {p q : Position} {ts us : List Token} {piece : Piece}
  {e : Failure} {token : Token}

theorem Piece.mem_tokens : token ∈ piece.tokens c p ↔ ∃ lexeme, piece.lexeme = some lexeme ∧
    token = ⟨lexeme, String.ofList (c :: piece.more), p⟩ := by
  unfold tokens
  cases piece.lexeme <;> simp

theorem tokenizeFrom_piece (hp : Piece.at? c (piece.more ++ cs) = some piece)
    (hr : piece.isUnread c = false) : tokenizeFrom p (c :: (piece.more ++ cs)) =
      (tokenizeFrom (p.after (c :: piece.more)) cs).map (piece.tokens c p ++ ·) := by
  rw [tokenizeFrom, hp]
  simp only [show piece.lexeme.any (Piece.isTooLong · (c :: piece.more)) = false from hr,
    Bool.false_eq_true, if_false, List.drop_left]
  rw [Piece.tokens.eq_def]
  cases tokenizeFrom (p.after (c :: piece.more)) cs with
  | error e => rfl
  | ok ts => cases piece.lexeme <;> rfl

theorem tokenizeFrom_unread (hp : Piece.at? c cs = some piece) (hr : piece.isUnread c = true) :
    tokenizeFrom p (c :: cs) = .error (.fault .noSuchValue) := by
  rw [tokenizeFrom, hp]
  exact if_pos hr

theorem tokenizeFrom_none (hp : Piece.at? c cs = none) : tokenizeFrom p (c :: cs) =
    .error ((if c = '"' then Problem.unterminatedString else .unexpectedCharacter c).at p) := by
  rw [tokenizeFrom, hp]

@[elab_as_elim]
theorem Piece.induction {P : Position → List Char → Prop} (nil : ∀ p, P p [])
    (none : ∀ p c cs, at? c cs = none → P p (c :: cs))
    (unread : ∀ p c piece cs, at? c (piece.more ++ cs) = some piece → piece.isUnread c = true →
      P p (c :: (piece.more ++ cs)))
    (piece : ∀ p c piece cs, at? c (piece.more ++ cs) = some piece → piece.isUnread c = false →
      P (p.after (c :: piece.more)) cs → P p (c :: (piece.more ++ cs)))
    (p : Position) (cs : List Char) : P p cs := by
  induction hn : cs.length using Nat.strong_induction_on generalizing p cs with
  | _ n ih =>
    rcases cs with _ | ⟨c, cs⟩
    · exact nil p
    cases hp : at? c cs with
    | none => exact none p c cs hp
    | some x =>
      obtain ⟨ds, rfl, -⟩ := at?_takes hp
      cases hr : x.isUnread c with
      | true => exact unread p c x ds hp hr
      | false =>
        have hlt : ds.length < n := by
          rw [← hn, List.length_cons, List.length_append]
          omega
        exact piece p c x ds hp hr (ih ds.length hlt _ ds rfl)

theorem Piece.lexeme_ne_endOfInput (h : Piece.at? c cs = some piece) :
    piece.lexeme ≠ some .endOfInput := by
  unfold at? at h
  split at h
  · cases h
    exact nofun
  split at h
  · cases h
    exact nofun
  split at h
  case h_9 =>
    split at h
    · cases h
      exact nofun
    · obtain ⟨more, -, rfl⟩ := Option.map_eq_some_iff.mp h
      exact nofun
    · cases h
  case h_10 | h_11 | h_12 =>
    obtain ⟨more, -, rfl⟩ := Option.map_eq_some_iff.mp h
    exact nofun
  all_goals
    cases h
    exact nofun

namespace Scans

theorem tokenizeFrom_eq (h : Scans behind p cs ts) :
    tokenizeFrom p (cs ++ behind) = (tokenizeFrom (p.after cs) behind).map (ts ++ ·) := by
  induction h with
  | nil =>
    rw [Position.after_nil, List.nil_append]
    cases tokenizeFrom _ behind <;> rfl
  | @piece c cs p ts piece hp hr _ ih =>
    rw [List.cons_append, List.append_assoc, tokenizeFrom_piece hp hr, ih, ← List.cons_append,
      Position.after_append]
    cases tokenizeFrom _ behind with
    | error e => rfl
    | ok us => simp [Except.map]

theorem split (h : Scans behind p cs (ts ++ us)) : ∃ ds es, cs = ds ++ es ∧
    Scans (es ++ behind) p ds ts ∧ Scans behind (p.after ds) es us := by
  generalize hxs : ts ++ us = xs at h
  induction h generalizing ts with
  | @nil p =>
    obtain ⟨rfl, rfl⟩ := List.append_eq_nil_iff.mp hxs
    exact ⟨[], [], rfl, .nil, .nil⟩
  | @piece c cs p xs piece hp hr h ih =>
    -- The text of the tokens is cut where they are used up.
    rcases ts with _ | ⟨token, ts⟩
    · subst hxs
      exact ⟨[], _, rfl, .nil, .piece hp hr h⟩
    have hts : ∃ ts', token :: ts = piece.tokens c p ++ ts' ∧ ts' ++ us = xs := by
      rw [Piece.tokens.eq_def] at hxs ⊢
      cases hl : piece.lexeme with
      | none => exact ⟨token :: ts, rfl, by simpa [hl] using hxs⟩
      | some lexeme =>
        rw [hl] at hxs
        obtain ⟨rfl, hxs'⟩ := List.cons.inj hxs
        exact ⟨ts, rfl, hxs'⟩
    obtain ⟨ts', hts, hxs'⟩ := hts
    obtain ⟨ds, es, rfl, hds, hes⟩ := ih hxs'
    refine ⟨c :: (piece.more ++ ds), es, by simp, ?_, ?_⟩
    · rw [hts]
      exact .piece (by rwa [List.append_assoc] at hp) hr hds
    · rwa [← List.cons_append, Position.after_append]

theorem truncate (h : Scans (ds ++ behind) p cs ts) : Scans ds p cs ts := by
  induction h with
  | nil => exact .nil
  | @piece c cs p ts piece hp hr _ ih =>
    obtain ⟨r, hr', htakes⟩ := Piece.at?_takes hp
    obtain rfl : cs ++ (ds ++ behind) = r := List.append_cancel_left hr'
    refine .piece (htakes _ (.inl ?_)) hr ih
    rw [← List.append_assoc]
    exact List.prefix_append _ _

theorem exists_piece (h : Scans behind p cs (ts ++ token :: us)) : ∃ ds c piece es,
    cs = ds ++ c :: (piece.more ++ es) ∧ piece.lexeme = some token.lexeme ∧
      token.text = String.ofList (c :: piece.more) ∧ token.position = p.after ds ∧ c ≠ '\n' ∧
      Piece.at? c (piece.more ++ (es ++ behind)) = some piece ∧ piece.isUnread c = false ∧
      Scans (c :: (piece.more ++ es) ++ behind) p ds ts ∧
      Scans behind (p.after (ds ++ c :: piece.more)) es us := by
  generalize hxs : ts ++ token :: us = xs at h
  induction h generalizing ts with
  | nil => simp at hxs
  | @piece c cs p xs piece hp hr h ih =>
    have hskip (front : List Token) (hfront : ts = piece.tokens c p ++ front)
        (hrest : front ++ token :: us = xs) : ∃ ds d piece' es,
        c :: (piece.more ++ cs) = ds ++ d :: (piece'.more ++ es) ∧
          piece'.lexeme = some token.lexeme ∧ token.text = String.ofList (d :: piece'.more) ∧
          token.position = p.after ds ∧ d ≠ '\n' ∧
          Piece.at? d (piece'.more ++ (es ++ behind)) = some piece' ∧ piece'.isUnread d = false ∧
          Scans (d :: (piece'.more ++ es) ++ behind) p ds ts ∧
          Scans behind (p.after (ds ++ d :: piece'.more)) es us := by
      obtain ⟨ds, d, piece', es, rfl, hl, htext, hplace, hd, hp', hr', hds, hes⟩ := ih hrest
      refine ⟨c :: (piece.more ++ ds), d, piece', es, by simp, hl, htext, ?_, hd, hp', hr', ?_, ?_⟩
      · rw [hplace, ← List.cons_append, Position.after_append]
      · rw [hfront]
        exact .piece (by rwa [List.append_assoc] at hp) hr hds
      · rw [← Position.after_append] at hes
        simpa using hes
    rw [Piece.tokens.eq_def] at hxs hskip
    cases hl : piece.lexeme with
    | none =>
      rw [hl] at hxs hskip
      exact hskip ts rfl hxs
    | some lexeme =>
      rw [hl] at hxs hskip
      rcases ts with _ | ⟨x, ts⟩
      · obtain ⟨rfl, rfl⟩ := List.cons.inj hxs
        refine ⟨[], c, piece, cs, rfl, hl, rfl, rfl, ?_, hp, hr, .nil, h⟩
        rintro rfl
        have hline : Piece.isGapChar '\n' = true := rfl
        rw [Piece.at?_blank hline] at hp
        rw [← Option.some.inj hp] at hl
        cases hl
      · obtain ⟨rfl, hrest⟩ := List.cons.inj hxs
        exact hskip ts rfl hrest

theorem exists_split (h : Scans behind p cs ts) (ht : token ∈ ts) : ∃ ds c es ts₁ ts₂,
    cs = ds ++ c :: es ∧ ts = ts₁ ++ ts₂ ∧ Scans (c :: es ++ behind) p ds ts₁ ∧
      Scans behind (p.after ds) (c :: es) ts₂ ∧ token.position = p.after ds ∧ c ≠ '\n' := by
  obtain ⟨ts₁, us, rfl⟩ := List.append_of_mem ht
  obtain ⟨ds, c, piece, es, rfl, hl, htext, hplace, hc, hp, hr, hfront, hback⟩ := h.exists_piece
  rw [Position.after_append] at hback
  have htokens : piece.tokens c (p.after ds) = [token] := by
    rw [Piece.tokens.eq_def, hl, ← htext, ← hplace]
  have hpiece := Scans.piece hp hr hback
  rw [htokens] at hpiece
  exact ⟨ds, c, piece.more ++ es, ts₁, token :: us, rfl, rfl, hfront, hpiece, hplace, hc⟩

theorem kind_ne_endOfInput (h : Scans behind p cs ts) (ht : token ∈ ts) :
    token.kind ≠ .endOfInput := by
  induction h with
  | nil => simp at ht
  | @piece c cs p ts piece hp _ _ ih =>
    rcases List.mem_append.mp ht with ht | ht
    · obtain ⟨lexeme, hl, rfl⟩ := Piece.mem_tokens.mp ht
      intro hk
      apply Piece.lexeme_ne_endOfInput hp
      cases lexeme <;> cases hk
      exact hl
    · exact ih ht

end Scans

theorem scans_of_tokenizeFrom (h : tokenizeFrom p cs = .ok us) :
    ∃ ts, Scans [] p cs ts ∧ us = ts ++ [Token.endOfInput (p.after cs)] := by
  induction p, cs using Piece.induction generalizing us with
  | nil p =>
    rw [tokenizeFrom] at h
    cases h
    exact ⟨[], .nil, rfl⟩
  | none p c cs hp => simp [tokenizeFrom_none hp] at h
  | unread p c piece cs hp hr => simp [tokenizeFrom_unread hp hr] at h
  | piece p c piece cs hp hr ih =>
    rw [tokenizeFrom_piece hp hr] at h
    obtain ⟨rest, hrest, rfl⟩ := Except.map_eq_ok.mp h
    obtain ⟨ts, hts, rfl⟩ := ih hrest
    refine ⟨piece.tokens c p ++ ts, .piece (by rwa [List.append_nil]) hr hts, ?_⟩
    rw [← List.cons_append, Position.after_append, List.append_assoc]

theorem exists_scans_of_append (h : tokenizeFrom p cs = .ok (ts ++ token :: us))
    (hk : token.kind ≠ .endOfInput) :
    ∃ vs, us = vs ++ [Token.endOfInput (p.after cs)] ∧ Scans [] p cs (ts ++ token :: vs) := by
  obtain ⟨xs, hxs, hall⟩ := scans_of_tokenizeFrom h
  rcases us.eq_nil_or_concat' with rfl | ⟨vs, last, rfl⟩
  · obtain ⟨-, hlast⟩ := List.append_inj' hall rfl
    rw [List.singleton_inj.mp hlast] at hk
    exact absurd rfl hk
  · have hsplit : (ts ++ token :: vs) ++ [last] = xs ++ [Token.endOfInput (p.after cs)] := by
      rw [← hall, List.append_assoc, List.cons_append]
    obtain ⟨rfl, hlast⟩ := List.append_inj' hsplit rfl
    exact ⟨vs, by rw [hlast], hxs⟩

theorem tokenizeFrom_of_scans (h : Scans [] p cs ts) :
    tokenizeFrom p cs = .ok (ts ++ [Token.endOfInput (p.after cs)]) := by
  have he := h.tokenizeFrom_eq
  rwa [List.append_nil, tokenizeFrom] at he

theorem tokenizeFrom_skip {more : List Char} (h : Piece.at? c (more ++ cs) = some (Piece.gap more))
    (p : Position) : tokenizeFrom p (c :: (more ++ cs)) =
      tokenizeFrom (p.after (c :: more)) cs := by
  have hpiece : Piece.at? c ((Piece.gap more).more ++ cs) = some (Piece.gap more) := h
  have hmap : ∀ x : Except Failure (List Token), x.map ([] ++ ·) = x := by
    intro x
    cases x <;> rfl
  exact (tokenizeFrom_piece hpiece rfl).trans (hmap _)

theorem tokenizeFrom_gap (hc : Piece.isGapChar c = true)
    (hds : ∀ d ∈ ds, Piece.isGapChar d = true) (hcs : ∀ d ∈ cs.head?, Piece.isGapChar d = false)
    (p : Position) : tokenizeFrom p (c :: (ds ++ cs)) = tokenizeFrom (p.after (c :: ds)) cs := by
  apply tokenizeFrom_skip
  rw [Piece.at?_blank hc, Piece.takeWhile_append_eq_iff.mpr ⟨hds, hcs⟩]

theorem tokenizeFrom_blank (hc : Piece.isGapChar c = true) (p : Position) (cs : List Char) :
    tokenizeFrom p (c :: cs) = tokenizeFrom (p.next c) cs := by
  have hcs : cs.takeWhile Piece.isGapChar ++ cs.dropWhile Piece.isGapChar = cs :=
    List.takeWhile_append_dropWhile
  obtain ⟨hblank, hhead⟩ :=
    Piece.takeWhile_append_eq_iff.mp (congrArg (List.takeWhile Piece.isGapChar) hcs)
  generalize cs.takeWhile Piece.isGapChar = blanks at hcs hblank
  generalize cs.dropWhile Piece.isGapChar = ds at hcs hhead
  subst hcs
  rw [tokenizeFrom_gap hc hblank hhead]
  rcases blanks with _ | ⟨d, blanks⟩
  · rfl
  · obtain ⟨hd, hblank⟩ := List.forall_mem_cons.mp hblank
    rw [List.cons_append, tokenizeFrom_gap hd hblank hhead, Position.after_cons]

theorem tokenizeFrom_blanks (hds : ∀ c ∈ ds, Piece.isGapChar c = true) (p : Position)
    (cs : List Char) : tokenizeFrom p (ds ++ cs) = tokenizeFrom (p.after ds) cs := by
  induction ds generalizing p with
  | nil => rfl
  | cons c ds ih =>
    obtain ⟨hc, hds⟩ := List.forall_mem_cons.mp hds
    rw [List.cons_append, tokenizeFrom_blank hc, ih hds, Position.after_cons]

theorem Position.after_related {R : Position → Position → Prop}
    (hR : ∀ p q c, R p q → R (p.next c) (q.next c)) (h : R p q) (cs : List Char) :
    R (p.after cs) (q.after cs) := by
  induction cs generalizing p q with
  | nil => exact h
  | cons c cs ih => exact ih (hR p q c h)

theorem Piece.tokens_alike {R : Position → Position → Prop} (h : R p q) (piece : Piece) (c : Char) :
    List.Forall₂ (Token.Alike R) (piece.tokens c p) (piece.tokens c q) := by
  unfold Piece.tokens
  cases piece.lexeme with
  | none => exact .nil
  | some lexeme => exact .cons (.mk h) .nil

theorem tokenizeFrom_agree {R : Position → Position → Prop}
    (hR : ∀ p q c, R p q → R (p.next c) (q.next c)) (h : R p q) (cs : List Char) :
    (tokenizeFrom p cs).Agree (Failure.Alike R) (List.Forall₂ (Token.Alike R))
      (tokenizeFrom q cs) := by
  induction p, cs using Piece.induction generalizing q with
  | nil p =>
    rw [tokenizeFrom, tokenizeFrom]
    exact .ok (.cons (.mk h) .nil)
  | none p c cs hp =>
    rw [tokenizeFrom_none hp, tokenizeFrom_none hp]
    exact .error (.at_place h (.refl _))
  | unread p c piece cs hp hr =>
    rw [tokenizeFrom_unread hp hr, tokenizeFrom_unread hp hr]
    exact .error .fault
  | piece p c piece cs hp hr ih =>
    have hafter : R (p.after (c :: piece.more)) (q.after (c :: piece.more)) :=
      Position.after_related hR h _
    rw [tokenizeFrom_piece hp hr, tokenizeFrom_piece hp hr]
    apply (ih hafter).map
    intro us us' hus
    exact List.rel_append (piece.tokens_alike h c) hus

end ResourceScript
