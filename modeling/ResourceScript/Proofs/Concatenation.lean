import ResourceScript.Proofs.Gaps
import ResourceScript.Proofs.Places
import ResourceScript.Proofs.Sources
import ResourceScript.Proofs.Uniformity

namespace ResourceScript

variable {settings : Settings} {r : Registry} {t : TypeTemplate} {source : String}
  {path : Option String} {p : Position} {cs : List Char} {tokens tokens' ts us : List Token}
  {c c' : Cursor} {resources : List Resource} {R : Position → Position → Prop}

def Position.behind (before : String) (p : Position) : Position :=
  { p with line := p.line + before.toList.count '\n', offset := p.offset + before.length }

theorem Position.next_behind (before : String) (p : Position) (c : Char) :
    (p.behind before).next c = (p.next c).behind before := by
  unfold behind next
  split <;> simp only [mk.injEq, true_and] <;> omega

theorem Position.after_line (path : Option String) (first : String) :
    (start path).after (first.toList ++ ['\n']) = (start path).behind (first ++ "\n") := by
  have hpath := path_after (start path) (first.toList ++ ['\n'])
  have hline := line_after (start path) (first.toList ++ ['\n'])
  have hoffset := offset_after (start path) (first.toList ++ ['\n'])
  have hcolumn : ((start path).after (first.toList ++ ['\n'])).column = 1 := by
    rw [after_append]
    rfl
  have htext : (first ++ "\n").toList = first.toList ++ ['\n'] := String.toList_append
  rw [behind, htext, ← String.length_toList, htext]
  cases hp : (start path).after (first.toList ++ ['\n'])
  simp_all [start]

theorem rounds_of_compile {first : String} (ht : r.active? = some t)
    (h : (compile settings r first path).result = .ok resources) :
    ∃ ts, Scans [] (.start path) first.toList ts ∧
      ∀ c c', c.Moves ts c' → ∃ journal,
        Declaration.readAll settings { cursor := c, registry := r } =
          repeatWhile Session.remaining (!·.cursor.isFinished) (Declaration.readNext settings)
            resources {
              cursor := c'
              registry := (compile settings r first path).registry
              journal } := by
  obtain ⟨ts, -, hscans, hscript, hregistry⟩ := script_of_compile ht h
  refine ⟨ts, hscans, fun c c' hc => ?_⟩
  obtain ⟨journal, hj⟩ :=
    Declaration.rounds_of_moves (s := { cursor := c, registry := r }) ht hscript hc []
  refine ⟨journal, ?_⟩
  rw [Declaration.readAll, hj, hregistry, List.nil_append]

/-- Two scripts with a line end between them are compiled as one after the other is: to the
resources of both, or to the problem of the second as many lines and characters further on. -/
theorem compile_append {first second : String} (ht : r.active? = some t)
    (hfirst : (compile settings r first path).result = .ok resources)
    (hsecond : tokenize second path = .ok tokens) :
    let apart := compile settings (compile settings r first path).registry second path
    let joined := compile settings r (first ++ "\n" ++ second) path
    joined.registry = apart.registry ∧
      apart.result.Agree (Failure.Alike fun p q => q = p.behind (first ++ "\n"))
        (fun more all => all = resources ++ more) joined.result := by
  intro apart joined
  obtain ⟨ts, hscans, hrounds⟩ := rounds_of_compile ht hfirst
  have htext : (first ++ "\n" ++ second).toList = first.toList ++ '\n' :: second.toList := by
    simp
  have hline := tokenizeFrom_line hscans second.toList
  rw [Position.after_line, ← htext] at hline
  have hagree := tokenizeFrom_agree (R := fun p q => q = p.behind (first ++ "\n"))
    (fun p q c h => h ▸ Position.next_behind _ p c) (p := .start path) rfl second.toList
  rw [show tokenizeFrom (.start path) second.toList = .ok tokens from hsecond] at hagree
  -- Behind the first script the second has its own tokens, moved; it is a run over these that
  -- agrees with the run of the second script alone.
  generalize tokenizeFrom ((Position.start path).behind (first ++ "\n")) second.toList = x
    at hagree hline
  cases hagree with
  | @ok _ tokens' halike =>
  have hjoined : tokenize (first ++ "\n" ++ second) path = .ok (ts ++ tokens') := hline
  obtain ⟨c, hc, hstream⟩ := Cursor.ofSource_of_tokenize hsecond
  obtain ⟨c', hc', hstream'⟩ := Cursor.ofSource_of_tokenize hjoined
  have hne : tokens' ≠ [] := by
    rintro rfl
    cases halike
    exact c.stream_ne_nil hstream
  obtain ⟨c'', hmoves, hstream''⟩ := Cursor.exists_moves hstream' hne
  obtain ⟨journal, hread⟩ := hrounds c' c'' hmoves
  have hcursor : c.Alike _ c'' := .of_stream (by rwa [hstream, hstream''])
  have hrun : Compilation.Agree (fun p q => q = p.behind (first ++ "\n")) _
      (Declaration.readAll settings) _ := Declaration.agree_readAll resources
  have hends := hrun
    { cursor := c, registry := (compile settings r first path).registry }
    { cursor := c'', registry := (compile settings r first path).registry, journal }
    ⟨hcursor, rfl⟩
  subst apart joined
  generalize (compile settings r first path).registry = r' at hread hends ⊢
  generalize hxs : Declaration.readAll settings { cursor := c, registry := r' } = xs at hends
  rw [← hread] at hends
  generalize hys : Declaration.readAll settings { cursor := c', registry := r } = ys at hends
  simp only [compile, hc, hc', hxs, hys]
  cases hends with
  | ok hall hs => exact ⟨hs.registry, .ok hall⟩
  | error he hs => exact ⟨hs.registry, .error he⟩

def Sample.text : String :=
  "new (#200) \x7b rank = 7; \x7d"

/-- The text of two declarations, and the resources that they give. -/
def Sample.texts : String :=
  Sample.text ++ " new (#201, \"b\") \x7b label = \"no\"; rank = 9; \x7d"

def Sample.notes : List Resource :=
  [Sample.note.resource 200 none [("rank", .integer 7)],
    Sample.note.resource 201 (some (Text.ofString "b"))
      [("label", .bytes [110, 111]), ("rank", .integer 9)]]

theorem compile_append_sample :
    let first := compile Sample.settings Sample.registry Sample.text
    let apart := compile Sample.settings first.registry Sample.script
    let joined := compile Sample.settings Sample.registry (Sample.text ++ "\n" ++ Sample.script)
    joined.registry = apart.registry ∧
      apart.result.Agree (Failure.Alike fun p q => q = p.behind (Sample.text ++ "\n"))
        (fun more all => all = [Sample.note.resource 200 none [("rank", .integer 7)]] ++ more)
        joined.result := by
  have ht : Sample.registry.active? = some Sample.note := rfl
  have hfirst : (compile Sample.settings Sample.registry Sample.text).result =
      .ok [Sample.note.resource 200 none [("rank", .integer 7)]] := by decide +kernel
  have hsecond : (tokenize Sample.script).isOk = true := by decide +kernel
  cases htokens : tokenize Sample.script with
  | error e => simp [htokens, Except.isOk, Except.toBool] at hsecond
  | ok tokens => exact compile_append ht hfirst htokens

end ResourceScript
