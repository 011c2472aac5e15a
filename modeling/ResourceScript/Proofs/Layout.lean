import ResourceScript.Proofs.Concatenation

namespace ResourceScript

variable {settings : Settings} {r : Registry} {before inserted after source source' : String}
  {path path' : Option String} {tokens tokens' : List Token} {token : Token}
  {c c' : Cursor} {R : Position → Position → Prop}

/-- Where a place of a script is when a text has been put into the script behind `before`. -/
inductive Position.Moved (path : Option String) (before inserted : String) :
    Position → Position → Prop where
  | kept : p.offset < before.length → Moved path before inserted p p
  | behind (cs : List Char) : Moved path before inserted ((start path).after (before.toList ++ cs))
      ((start path).after (before.toList ++ (inserted.toList ++ cs)))

theorem Scans.forall₂_kept {ts : List Token}
    (h : Scans behind (.start path) before.toList ts) :
    List.Forall₂ (Token.Alike (Position.Moved path before inserted)) ts ts := by
  apply List.forall₂_same.mpr
  intro token ht
  obtain ⟨ds, c, es, ts₁, ts₂, hbefore, -, -, -, hplace, -⟩ := h.exists_split ht
  have hlength : before.length = ds.length + (es.length + 1) := by
    rw [← String.length_toList, hbefore, List.length_append, List.length_cons]
  have hoffset : token.position.offset = ds.length := by
    rw [hplace, Position.offset_after_start]
  exact .mk (.kept (by omega))

theorem length_eq_of_offset {ds : List Char} (hplace : token.position.offset = before.length)
    (hposition : token.position = (Position.start path).after ds) :
    before.toList.length = ds.length := by
  rw [String.length_toList, ← hplace, hposition, Position.offset_after_start]

theorem exists_scans_of_mem (htokens : tokenize (before ++ after) path = .ok tokens)
    (htoken : token ∈ tokens) (hkind : token.kind ≠ .endOfInput)
    (hplace : token.position.offset = before.length) :
    ∃ c cs ts₁ ts₂, after.toList = c :: cs ∧ c ≠ '\n' ∧
      tokens = ts₁ ++ (ts₂ ++
        [Token.endOfInput (((Position.start path).after before.toList).after (c :: cs))]) ∧
      Scans (c :: cs) (.start path) before.toList ts₁ ∧
      Scans [] ((Position.start path).after before.toList) (c :: cs) ts₂ := by
  obtain ⟨ts, us, rfl⟩ := List.append_of_mem htoken
  obtain ⟨vs, rfl, hts⟩ := exists_scans_of_append htokens hkind
  obtain ⟨ds, c, cs, ts₁, ts₂, hsource, hparts, hfront, hback, hposition, hc⟩ :=
    hts.exists_split (List.mem_append_right ts List.mem_cons_self)
  rw [String.toList_append] at hsource
  obtain ⟨rfl, hafter⟩ := List.append_inj hsource (length_eq_of_offset hplace hposition)
  rw [List.append_nil] at hfront
  refine ⟨c, cs, ts₁, ts₂, hafter, hc, ?_, hfront, hback⟩
  rw [← hafter, ← Position.after_append, ← String.toList_append, ← List.append_assoc, ← hparts,
    List.append_assoc, List.cons_append]

/-- Behind a text that has been put into the script the tokens are the same, but for their places.
-/
theorem Scans.exists_moved {cs : List Char} {ts : List Token}
    (h : Scans [] ((Position.start path).after before.toList) cs ts) (inserted : String) :
    ∃ us, tokenizeFrom ((Position.start path).after (before.toList ++ inserted.toList)) cs =
      .ok us ∧
      List.Forall₂ (Token.Alike (Position.Moved path before inserted))
        (ts ++ [Token.endOfInput (((Position.start path).after before.toList).after cs)]) us := by
  have hstep (p q : Position) (c : Char)
      (hpq : ∃ cs, p = (Position.start path).after (before.toList ++ cs) ∧
        q = (Position.start path).after (before.toList ++ (inserted.toList ++ cs))) :
      ∃ cs, p.next c = (Position.start path).after (before.toList ++ cs) ∧
        q.next c = (Position.start path).after (before.toList ++ (inserted.toList ++ cs)) := by
    obtain ⟨cs, rfl, rfl⟩ := hpq
    refine ⟨cs ++ [c], ?_, ?_⟩
    · simp only [← List.append_assoc, Position.after_append _ _ [c]]
      rfl
    · simp only [← List.append_assoc, Position.after_append _ _ [c]]
      rfl
  have hagree := tokenizeFrom_agree hstep (p := (Position.start path).after before.toList)
    (q := (Position.start path).after (before.toList ++ inserted.toList)) ⟨[], by simp⟩ cs
  rw [tokenizeFrom_of_scans h] at hagree
  generalize tokenizeFrom _ cs = scanned at hagree ⊢
  cases hagree with
  | ok hus =>
    refine ⟨_, rfl, hus.imp ?_⟩
    intro token token' ht
    cases ht with
    | mk hp =>
      obtain ⟨cs, rfl, rfl⟩ := hp
      exact .mk (.behind cs)

theorem tokenize_gap (htokens : tokenize (before ++ after) path = .ok tokens)
    (htoken : token ∈ tokens) (hkind : token.kind ≠ .endOfInput)
    (hplace : token.position.offset = before.length) (hgap : IsGap inserted.toList) :
    ∃ tokens', tokenize (before ++ inserted ++ after) path = .ok tokens' ∧
      List.Forall₂ (Token.Alike (Position.Moved path before inserted)) tokens tokens' := by
  obtain ⟨c, cs, ts₁, ts₂, hafter, hc, rfl, hfront, hback⟩ :=
    exists_scans_of_mem htokens htoken hkind hplace
  -- The tokens before the gap are scanned as before; those behind it start at another place.
  have hinsert : tokenizeFrom (.start path) (before.toList ++ (inserted.toList ++ c :: cs)) =
      (tokenizeFrom ((Position.start path).after (before.toList ++ inserted.toList)) (c :: cs)).map
        (ts₁ ++ ·) := by
    generalize inserted.toList = skipped at hgap
    rcases skipped with _ | ⟨d, skipped⟩
    · rw [List.append_nil]
      exact hfront.tokenizeFrom_eq
    · exact tokenizeFrom_insert hfront hgap (fun _ => ⟨c, cs, rfl, hc⟩) (c :: cs)
  obtain ⟨us, hus, hmoved⟩ := hback.exists_moved inserted
  refine ⟨ts₁ ++ us, ?_, List.rel_append hfront.forall₂_kept hmoved⟩
  rw [tokenize, String.toList_append, String.toList_append, hafter, List.append_assoc, hinsert, hus]
  rfl

theorem compile_of_endsAlike {T : Session → Session → Prop}
    (hc : Cursor.ofSource source path = .ok c) (hc' : Cursor.ofSource source' path' = .ok c')
    (hT : ∀ s s', T s s' → s'.registry = s.registry)
    (hends : Compilation.EndsAlike R T (fun xs xs' => xs' = [] ++ xs)
      (Declaration.readAll settings { cursor := c, registry := r })
      (Declaration.readAll settings { cursor := c', registry := r })) :
    (compile settings r source' path').registry = (compile settings r source path).registry ∧
      (compile settings r source path).result.Agree (Failure.Alike R) Eq
        (compile settings r source' path').result := by
  generalize hx : Declaration.readAll settings { cursor := c, registry := r } = x at hends
  generalize hy : Declaration.readAll settings { cursor := c', registry := r } = y at hends
  simp only [compile, hc, hc', hx, hy]
  cases hends with
  | ok hall hs =>
    rw [List.nil_append] at hall
    exact ⟨hT _ _ hs, .ok hall.symm⟩
  | error he hs => exact ⟨hs.registry, .error he⟩

theorem compile_of_alike (h : tokenize source path = .ok tokens)
    (h' : tokenize source' path' = .ok tokens')
    (halike : List.Forall₂ (Token.Alike R) tokens tokens') :
    (compile settings r source' path').registry = (compile settings r source path).registry ∧
      (compile settings r source path).result.Agree (Failure.Alike R) Eq
        (compile settings r source' path').result := by
  obtain ⟨c, hc, hstream⟩ := Cursor.ofSource_of_tokenize h
  obtain ⟨c', hc', hstream'⟩ := Cursor.ofSource_of_tokenize h'
  have hcursor : c.Alike R c' := .of_stream (by rwa [hstream, hstream'])
  have hrun : Compilation.Agree R _ (Declaration.readAll settings) _ := Declaration.agree_readAll []
  exact compile_of_endsAlike hc hc' (fun _ _ hs => hs.registry) (hrun _ _ ⟨hcursor, rfl⟩)

/-- Blanks and comments in front of a token leave what becomes of a script as it is: the same
resources and ids, or a failure that is reported in the same way at the place that has moved. -/
theorem compile_gap (htokens : tokenize (before ++ after) path = .ok tokens)
    (htoken : token ∈ tokens) (hkind : token.kind ≠ .endOfInput)
    (hplace : token.position.offset = before.length) (hgap : IsGap inserted.toList) :
    let dense := compile settings r (before ++ after) path
    let spaced := compile settings r (before ++ inserted ++ after) path
    spaced.registry = dense.registry ∧
      dense.result.Agree (Failure.Alike (Position.Moved path before inserted)) Eq
        spaced.result := by
  obtain ⟨tokens', htokens', halike⟩ := tokenize_gap htokens htoken hkind hplace hgap
  exact compile_of_alike htokens htokens' halike

/-- A gap that holds a quote and a brace, with a comment that is all stars behind them. -/
def Sample.gap : String :=
  "\t// it's \"\x7d\n/* \" **/\n"

theorem Sample.isGap : IsGap gap.toList :=
  .blank (by decide) <| .line (show '\n' ∉ " it's \"\x7d".toList by decide) <|
    .block (show ¬['*', '/'] <:+: " \" *".toList by decide) <| .blank (by decide) .nil

theorem compile_gap_sample :
    let spaced := compile Sample.settings Sample.registry
      ("new (#200) \x7b rank " ++ Sample.gap ++ "= 7; \x7d")
    spaced.registry = (compile Sample.settings Sample.registry Sample.text).registry ∧
      spaced.result = .ok [Sample.note.resource 200 none [("rank", .integer 7)]] := by
  have hdense : (compile Sample.settings Sample.registry
      ("new (#200) \x7b rank " ++ "= 7; \x7d")).result =
      .ok [Sample.note.resource 200 none [("rank", .integer 7)]] := by decide +kernel
  have hplace : ∃ token ∈ (tokenize ("new (#200) \x7b rank " ++ "= 7; \x7d")).toOption.getD [],
      token.kind ≠ .endOfInput ∧ token.position.offset = "new (#200) \x7b rank ".length := by
    decide +kernel
  obtain ⟨token, htoken, hkind, hoffset⟩ := hplace
  cases htokens : tokenize ("new (#200) \x7b rank " ++ "= 7; \x7d") with
  | error e =>
    rw [htokens] at htoken
    cases htoken
  | ok tokens =>
    rw [htokens] at htoken
    obtain ⟨hregistry, hresult⟩ : _ ∧ (compile Sample.settings Sample.registry
        ("new (#200) \x7b rank " ++ "= 7; \x7d")).result.Agree _ Eq _ :=
      compile_gap htokens htoken hkind hoffset Sample.isGap
    rw [hdense] at hresult
    intro spaced
    constructor
    · exact hregistry
    · change Except.Agree _ Eq _ spaced.result at hresult
      generalize spaced.result = x at hresult
      cases hresult with
      | ok h => exact congrArg Except.ok h.symm

end ResourceScript
