import ResourceScript.Proofs.Concatenation
import ResourceScript.Proofs.Division

namespace ResourceScript

variable {settings : Settings} {r : Registry} {t : TypeTemplate} {source : String}
  {path : Option String} {p : Position} {behind cs : List Char} {d ts us : List Token}
  {header : Header} {values : List (String × Value)} {resources : List Resource}

def Token.ofSpelling (s : Lexeme × String) : Token :=
  ⟨s.1, s.2, .start none⟩

/-- A session on tokens alone, with a type in use and no ids taken. -/
def Session.alone (t : TypeTemplate) (tokens : List Token) : Session where
  cursor := { rest := tokens, last := .endOfInput (.start none), last_kind := rfl }
  registry := { types := [t], active? := t, claims := [] }

/-- What the body of a declaration gives a resource: its data and the slots that it fills. -/
def contentOf (settings : Settings) (t : TypeTemplate) (body : List (Lexeme × String)) :
    Option (Bytes × List String) :=
  match Declaration.body settings (.ofTemplate t 0 []) (.alone t (body.map .ofSpelling)) with
  | .error _ _ => none
  | .ok draft _ => draft.assemble.toOption.map fun x => (x.data, x.slots)

theorem Token.map_spelling_ofSpelling (body : List (Lexeme × String)) :
    (body.map ofSpelling).map spelling = body := by
  rw [List.map_map]
  exact List.map_id body

theorem Session.alone_alike (h : ts.map Token.spelling = us.map Token.spelling) :
    (alone t ts).Alike (fun _ _ => True) (alone t us) :=
  ⟨⟨Token.forall₂_alike_iff.mpr h, .mk trivial⟩, rfl⟩

theorem contentOf_of_body (h : Grammar.Body settings t us values) (id : Int) (name : Option Text) :
    contentOf settings t (us.map Token.spelling) =
      some ((t.resource id name values).data, (t.resource id name values).slots) := by
  obtain ⟨journal, hbody⟩ :=
    Declaration.body_of_moves (s := .alone t us) rfl h (Cursor.moves_rest _) 0 none
  have hspelling := (Token.map_spelling_ofSpelling (us.map Token.spelling)).symm
  obtain ⟨_, s', hrespelled, rfl, -⟩ := (Declaration.agree_body (t.draft 0 none [])).of_ok
    (Session.alone_alike hspelling) hbody
  have hdraft : t.draft 0 none [] = .ofTemplate t 0 [] := rfl
  rw [hdraft] at hrespelled
  have hassemble : (t.draft 0 none values).assemble = .ok (t.resource 0 none values) :=
    TypeTemplate.assemble_draft h.admissible
  simp only [contentOf, hrespelled, hassemble, Except.toOption, Option.map_some]
  rfl

namespace Scans

theorem exists_stretch {parts : List (List Token)} (h : Scans behind p cs parts.flatten) :
    ∀ part ∈ parts, ∃ before own after, cs = before ++ own ++ after ∧
      Scans (after ++ behind) (p.after before) own part := by
  induction parts generalizing p cs with
  | nil => exact List.forall_mem_nil _
  | cons part parts ih =>
    rw [List.flatten_cons] at h
    obtain ⟨ds, es, rfl, hpart, hparts⟩ := h.split
    rw [List.forall_mem_cons]
    constructor
    · exact ⟨[], ds, es, rfl, hpart⟩
    · intro part' hmem
      obtain ⟨before, own, after, rfl, hown⟩ := ih hparts part' hmem
      refine ⟨ds ++ before, own, after, ?_, ?_⟩
      · simp only [List.append_assoc]
      · rwa [Position.after_append]

end Scans

theorem compile_alone {fresh : Registry} (hscans : Scans behind p cs d)
    (hd : Grammar.Declaration settings t d header values) (ht : fresh.active? = some t)
    (hclaims : fresh.claims = []) (path : Option String) : ∃ id,
      (compile settings fresh (String.ofList cs) path).result =
        .ok [t.resource id header.name values] := by
  have halone : Scans [] p cs d := by
    apply Scans.truncate
    exact hscans
  have hagree := tokenizeFrom_agree (R := fun _ _ => True) (fun _ _ _ _ => trivial)
      (q := .start path)
    trivial cs (p := p)
  rw [tokenizeFrom_of_scans halone] at hagree
  generalize hx : tokenizeFrom (.start path) cs = x at hagree
  cases hagree with
  | @ok _ tokens halike =>
  have htokens : tokenize (String.ofList cs) path = .ok tokens := by
    rw [tokenize, String.toList_ofList, hx]
  obtain ⟨c', hc', hstream⟩ := Cursor.ofSource_of_tokenize htokens
  let c : Cursor := { rest := d, last := .endOfInput (p.after cs), last_kind := rfl }
  have hcursor : c.Alike (fun _ _ => True) c' := .of_stream (by rwa [hstream])
  have htaken : fresh.idsOf t.name = [] := by simp [Registry.idsOf, hclaims]
  obtain ⟨id, hid⟩ : ∃ id, Grammar.TakesId (fresh.idsOf t.name) header.id id := by
    rcases Grammar.TakesId.exists_or_taken (fresh.idsOf t.name) header.id with hid | ⟨n, -, hn⟩
    · exact hid
    · simp [htaken] at hn
  have hscript : Grammar.Script settings t (fresh.idsOf t.name) (d ++ [])
      [t.resource id header.name values] := .cons hd hid .nil
  rw [List.append_nil] at hscript
  have hmoves : c.Moves d (c.advance d.length) := c.moves_rest
  obtain ⟨s, hread⟩ := Declaration.readAll_of_moves (s := { cursor := c, registry := fresh }) ht
    hscript hmoves (by rw [Cursor.peek_advance_rest]; rfl)
  have hs : Session.Alike (fun _ _ => True) { cursor := c, registry := fresh }
      { cursor := c', registry := fresh } := ⟨hcursor, rfl⟩
  obtain ⟨_, s', hread', rfl, -⟩ := (Declaration.agree_readAll []).of_ok hs hread
  exact ⟨id, compile_of_readAll hc' hread'⟩

/-- A declaration of a script that compiles with the type in use, and its resource. -/
def Declares (settings : Settings) (t : TypeTemplate) (d : List Token) (x : Resource) : Prop :=
  ∃ r source path tokens resources, r.active? = some t ∧ tokenize source path = .ok tokens ∧
    (compile settings r source path).result = .ok resources ∧
    (d, x) ∈ (declarationsOf tokens.dropLast).zip resources

/-- The contents of the resource of a declaration come from the body of the declaration alone:
whatever else stands in a script, the same body gives the same contents, and the text of the
declaration gives them when it is compiled on its own with no ids taken. -/
structure HasOwnContents (settings : Settings) (t : TypeTemplate) (source : String)
    (path : Option String) (d : List Token) (x : Resource) : Prop where
  content : contentOf settings t ((bodyOf d).map Token.spelling) = some (x.data, x.slots)
  same : ∀ d' y, Declares settings t d' y →
    (bodyOf d').map Token.spelling = (bodyOf d).map Token.spelling →
    y.data = x.data ∧ y.slots = x.slots
  alone : ∃ before own after, source.toList = before ++ own ++ after ∧
    Scans after ((Position.start path).after before) own d ∧
    ∀ fresh path', fresh.active? = some t → fresh.claims = [] →
      ∃ y, (compile settings fresh (String.ofList own) path').result = .ok [y] ∧
        y.data = x.data ∧ y.slots = x.slots

theorem contentOf_of_declaration (h : Grammar.Declaration settings t d header values) (id : Int) :
    contentOf settings t ((bodyOf d).map Token.spelling) =
      some ((t.resource id header.name values).data, (t.resource id header.name values).slots) :=
  contentOf_of_body h.bodyOf_spells id header.name

theorem Declares.content {x : Resource} (h : Declares settings t d x) :
    contentOf settings t ((bodyOf d).map Token.spelling) = some (x.data, x.slots) := by
  obtain ⟨r, source, path, tokens, resources, ht, htokens, h, hmem⟩ := h
  obtain ⟨ts, htokens', -, hscript, -⟩ := script_of_compile ht h
  obtain rfl := Except.ok.inj (htokens.symm.trans htokens')
  rw [List.dropLast_concat] at hmem
  obtain ⟨header, values, id, hd, rfl⟩ := List.forall₂_zip hscript.declarationsOf_spell hmem
  exact contentOf_of_declaration hd id

/-- Each resource of a script has the contents that the body of its declaration gives it. -/
theorem compile_contents (ht : r.active? = some t)
    (h : (compile settings r source path).result = .ok resources) :
    ∃ tokens, tokenize source path = .ok tokens ∧
      List.Forall₂ (HasOwnContents settings t source path) (declarationsOf tokens.dropLast)
        resources := by
  obtain ⟨ts, htokens, hscans, hscript, -⟩ := script_of_compile ht h
  refine ⟨_, htokens, ?_⟩
  rw [List.dropLast_concat]
  have hparts : ts = (declarationsOf ts).flatten := (List.flatten_splitBy _ ts).symm
  rw [hparts] at hscans
  have hboth := (List.forall₂_and_left _ _).mpr
    ⟨hscans.exists_stretch, hscript.declarationsOf_spell⟩
  apply hboth.imp
  rintro d x ⟨⟨before, own, after, hsource, hown⟩, header, values, id, hd, rfl⟩
  rw [List.append_nil] at hown
  have hcontent := contentOf_of_declaration hd id
  refine ⟨hcontent, ?_, before, own, after, hsource, hown, ?_⟩
  · intro d' y hy hbody
    have hsame := hy.content
    rw [hbody, hcontent] at hsame
    obtain ⟨hdata, hslots⟩ := Prod.mk.inj (Option.some.inj hsame)
    exact ⟨hdata.symm, hslots.symm⟩
  · intro fresh path' hactive hclaims
    obtain ⟨id', hid'⟩ := compile_alone hown hd hactive hclaims path'
    exact ⟨_, hid', rfl, rfl⟩

theorem compile_contents_sample : ∃ tokens, tokenize Sample.texts none = .ok tokens ∧
    List.Forall₂ (HasOwnContents Sample.settings Sample.note Sample.texts none)
      (declarationsOf tokens.dropLast) Sample.notes := by
  have ht : Sample.registry.active? = some Sample.note := rfl
  have h : (compile Sample.settings Sample.registry Sample.texts none).result =
      .ok Sample.notes := by
    decide +kernel
  exact compile_contents ht h

end ResourceScript
