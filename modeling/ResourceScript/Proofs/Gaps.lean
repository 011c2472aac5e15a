import ResourceScript.Proofs.Scans

namespace ResourceScript

/-- What may stand between tokens: blanks, comments up to the end of a line, and comments between
marks. -/
inductive IsGap : List Char → Prop where
  | nil : IsGap []
  | blank : c ∈ [' ', '\t', '\r', '\n'] → IsGap cs → IsGap (c :: cs)
  | line : '\n' ∉ body → IsGap cs → IsGap ('/' :: '/' :: (body ++ '\n' :: cs))
  | block : ¬['*', '/'] <:+: body → IsGap cs → IsGap ('/' :: '*' :: (body ++ '*' :: '/' :: cs))

variable {c d : Char} {cs ds behind skipped body : List Char} {p : Position} {ts : List Token}
  {piece : Piece}

theorem Piece.isGapChar_iff : isGapChar c = true ↔ c ∈ [' ', '\t', '\r', '\n'] := by
  simp [isGapChar, or_assoc]

theorem Piece.commentRest?_append (h : ¬['*', '/'] <:+: body) (cs : List Char) :
    commentRest? (body ++ '*' :: '/' :: cs) = some (body ++ ['*', '/']) := by
  induction body with
  | nil => rfl
  | cons c body ih =>
    have hrest := ih fun hi => h (hi.trans (List.suffix_cons c body).isInfix)
    rw [List.cons_append, commentRest?, hrest, Option.map_some, List.cons_append]
    intro rest hc hcs
    subst hc
    rcases body with _ | ⟨d, body⟩
    · cases hcs
    · obtain ⟨rfl, -⟩ := List.cons.inj hcs
      exact h ⟨[], body, rfl⟩

theorem Piece.at?_comment (rest : List Char) :
    at? '/' ('/' :: rest) = some (gap ('/' :: rest.takeWhile (· != '\n'))) := rfl

theorem Piece.at?_block (h : ¬['*', '/'] <:+: body) (cs : List Char) :
    at? '/' ('*' :: (body ++ '*' :: '/' :: cs)) = some (gap ('*' :: (body ++ ['*', '/']))) := by
  change (commentRest? (body ++ '*' :: '/' :: cs)).map (fun more => gap ('*' :: more)) = _
  rw [commentRest?_append h, Option.map_some]

theorem tokenizeFrom_append_of_isGap (h : IsGap skipped) (p : Position) (ds : List Char) :
    tokenizeFrom p (skipped ++ ds) = tokenizeFrom (p.after skipped) ds := by
  induction h generalizing p with
  | nil => rfl
  | @blank c cs hc _ ih =>
    rw [List.cons_append, tokenizeFrom_blank (Piece.isGapChar_iff.mpr hc), ih, Position.after_cons]
  | @line body cs hbody _ ih =>
    have hpiece : Piece.at? '/' ('/' :: body ++ '\n' :: (cs ++ ds)) =
        some (.gap ('/' :: body)) := by
      have hstop : (body ++ '\n' :: (cs ++ ds)).takeWhile (· != '\n') = body := by
        apply Piece.takeWhile_append_eq_iff.mpr
        constructor
        · intro d hd
          simpa using ne_of_mem_of_not_mem hd hbody
        · simp
      rw [List.cons_append, Piece.at?_comment, hstop]
    have hskip := tokenizeFrom_skip hpiece p
    have hline : Piece.isGapChar '\n' = true := rfl
    simp only [List.cons_append, List.append_assoc] at hskip ⊢
    rw [hskip, tokenizeFrom_blank hline, ih]
    simp only [Position.after_cons, Position.after_append]
  | @block body cs hbody _ ih =>
    have hpiece : Piece.at? '/' ('*' :: (body ++ ['*', '/']) ++ (cs ++ ds)) =
        some (.gap ('*' :: (body ++ ['*', '/']))) := by
      have hblock := Piece.at?_block hbody (cs ++ ds)
      simpa using hblock
    have hskip := tokenizeFrom_skip hpiece p
    simp only [List.cons_append, List.append_assoc, List.nil_append] at hskip ⊢
    rw [hskip, ih]
    simp only [Position.after_cons, Position.after_append, Position.after_nil]

theorem IsGap.isMark (h : IsGap (d :: ds)) : Piece.IsMark d := by
  cases h with
  | blank hd _ =>
    simp only [List.mem_cons, List.not_mem_nil, or_false] at hd
    rcases hd with rfl | rfl | rfl | rfl <;> rfl
  | line => rfl
  | block => rfl

theorem Piece.eq_newline_of_comment (h : at? '/' (piece.more ++ d :: ds) = some piece)
    (hmore : piece.more.head? = some '/') : d = '\n' := by
  obtain ⟨more, hm⟩ := List.head?_eq_some_iff.mp hmore
  rw [hm, List.cons_append, at?_comment] at h
  have hmore := congrArg Piece.more (Option.some.inj h)
  rw [hm] at hmore
  obtain ⟨-, hstop⟩ := takeWhile_append_eq_iff.mp (List.cons.inj hmore).2
  simpa using hstop d rfl

/-- A piece that is no blank stays as it is if a gap is put somewhere behind it. A comment of one
line needs the end of the line. -/
theorem Piece.at?_insert (h : at? c (piece.more ++ (cs ++ behind)) = some piece)
    (hc : isGapChar c = false) (hd : IsMark d)
    (hend : d ≠ '\n' → ∃ e es, behind = e :: es ∧ e ≠ '\n') :
    at? c (piece.more ++ (cs ++ d :: ds)) = some piece := by
  obtain ⟨r, hr, htakes⟩ := at?_takes h
  obtain rfl : cs ++ behind = r := List.append_cancel_left hr
  have hcut : at? c (piece.more ++ cs) = some piece := htakes cs (.inl (List.prefix_append _ _))
  obtain ⟨r, hr, htakes⟩ := at?_takes hcut
  obtain rfl : cs = r := List.append_cancel_left hr
  refine htakes _ (.inr ⟨d, ds, hd, fun hcs => ⟨?_, ?_⟩, rfl⟩)
  · intro hblank
    rw [hc] at hblank
    cases hblank
  · intro hslash hmore
    by_contra hne
    obtain ⟨e, es, rfl, he⟩ := hend hne
    subst hcs hslash
    exact he (eq_newline_of_comment h hmore)

theorem Piece.at?_mark_behind {lexeme : Lexeme} (h : at? c (piece.more ++ cs) = some piece)
    (hl : piece.lexeme = some lexeme) (hd : IsMark d) :
    at? c (piece.more ++ d :: ds) = some piece := by
  obtain ⟨r, -, htakes⟩ := at?_takes h
  have hcut : at? c (piece.more ++ []) = some piece := htakes [] (.inl List.nil_prefix)
  obtain ⟨r, hr, htakes⟩ := at?_takes hcut
  obtain rfl : [] = r := List.append_cancel_left hr
  refine htakes _ (.inr ⟨d, ds, hd, fun _ => ⟨?_, ?_⟩, rfl⟩)
  · intro hblank
    rw [at?_blank hblank] at h
    rw [← Option.some.inj h] at hl
    cases hl
  · rintro rfl hslash
    obtain ⟨more, hm⟩ := List.head?_eq_some_iff.mp hslash
    rw [hm, List.cons_append, at?_comment] at h
    rw [← Option.some.inj h] at hl
    cases hl

theorem Piece.blank_of_at? (h : at? c (piece.more ++ cs) = some piece) (hc : isGapChar c = true) :
    (∀ d ∈ c :: piece.more, isGapChar d = true) ∧ piece.tokens c p = [] := by
  rw [at?_blank hc] at h
  have hpiece := (Option.some.inj h).symm
  constructor
  · intro d hd
    rcases List.mem_cons.mp hd with rfl | hd
    · exact hc
    · rw [hpiece] at hd
      exact List.mem_takeWhile_imp hd
  · rw [hpiece]
    rfl

theorem tokenizeFrom_insert (h : Scans behind p cs ts) (hgap : IsGap (d :: skipped))
    (hend : d ≠ '\n' → ∃ e es, behind = e :: es ∧ e ≠ '\n') (ds : List Char) :
    tokenizeFrom p (cs ++ d :: (skipped ++ ds)) =
      (tokenizeFrom (p.after (cs ++ d :: skipped)) ds).map (ts ++ ·) := by
  induction h with
  | @nil p =>
    have hskip := tokenizeFrom_append_of_isGap hgap p ds
    rw [List.nil_append, List.nil_append, ← List.cons_append, hskip]
    cases tokenizeFrom (p.after (d :: skipped)) ds <;> rfl
  | @piece c cs p ts piece hp hr h ih =>
    have hmap : tokenizeFrom p (c :: (piece.more ++ (cs ++ d :: (skipped ++ ds)))) =
        (tokenizeFrom (p.after (c :: piece.more)) (cs ++ d :: (skipped ++ ds))).map
          (piece.tokens c p ++ ·) := by
      cases hc : Piece.isGapChar c with
      | true =>
        obtain ⟨hblank, htokens⟩ := Piece.blank_of_at? (p := p) hp hc
        rw [htokens, ← List.cons_append, tokenizeFrom_blanks hblank]
        cases tokenizeFrom (p.after (c :: piece.more)) _ <;> rfl
      | false =>
        apply tokenizeFrom_piece _ hr
        exact Piece.at?_insert hp hc hgap.isMark hend
    rw [List.cons_append, List.append_assoc, hmap, ih, ← Position.after_append]
    simp only [List.cons_append, List.append_assoc]
    cases tokenizeFrom _ ds <;> simp [Except.map]

theorem tokenizeFrom_line (h : Scans [] p cs ts) (ds : List Char) :
    tokenizeFrom p (cs ++ '\n' :: ds) =
      (tokenizeFrom (p.after (cs ++ ['\n'])) ds).map (ts ++ ·) := by
  have hline : IsGap ['\n'] := .blank (by simp) .nil
  exact tokenizeFrom_insert h hline (fun hne => absurd rfl hne) ds

end ResourceScript
