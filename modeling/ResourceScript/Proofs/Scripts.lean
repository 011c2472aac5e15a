import ResourceScript.Proofs.Declarations
import ResourceScript.Proofs.Lexing

namespace ResourceScript

variable {settings : Settings} {t : TypeTemplate} {tokens ts : List Token} {s s' : Session}
  {c : Cursor} {resources : List Resource} {e : Failure} {header : Header} {id : Int}
  {values : List (String × Value)}

namespace Registry

/-- The registry with the ids of resources of a type taken. -/
def withResources (r : Registry) (type : String) (resources : List Resource) : Registry :=
  resources.foldl (fun r x => r.withClaim type x.id) r

theorem withResources_snoc (r : Registry) (type : String) (resources : List Resource)
    (x : Resource) :
    r.withResources type (resources ++ [x]) =
      (r.withResources type resources).withClaim type x.id :=
  List.foldl_append

theorem idsOf_withResources (r : Registry) (type : String) (resources : List Resource) :
    (r.withResources type resources).idsOf type = (resources.map (·.id)).reverse ++
      r.idsOf type := by
  induction resources generalizing r with
  | nil => rfl
  | cons x resources ih =>
    have hx : r.withResources type (x :: resources) =
        (r.withClaim type x.id).withResources type resources := rfl
    rw [hx, ih, idsOf_withClaim_self, List.map_cons, List.reverse_cons, List.append_assoc]
    rfl

end Registry

namespace Declaration

/-- A failure of a script as a whole: one that its tokens explain, or the refusal of an id that is
taken. -/
inductive OfScript (settings : Settings) (t : TypeTemplate) (tokens : List Token) :
    Failure → Prop where
  | explained {e : Failure} : Failure.Explained settings t tokens e → OfScript settings t tokens e
  | refused : number ∈ tokens → number.lexeme.idNumber? = some n → token ∈ tokens →
      OfScript settings t tokens (Registry.refusal n t.name token.position)

theorem hasPlace_refusal (n : Int) (type : String) (position : Position) :
    (Registry.refusal n type position).HasPlace := by
  cases hn : Text.isShown n with
  | true =>
    rw [Registry.refusal_of_shown hn]
    rfl
  | false =>
    rw [Registry.refusal_of_not_shown hn]
    trivial

theorem Fails.ofScript (h : Fails settings t tokens s e s') (hs : Ready s t tokens) :
    OfScript settings t tokens e ∧ e.HasPlace := by
  cases h with
  | header _ he => exact ⟨.explained he.explained, he.hasPlace⟩
  | id _ _ htoken hnumber _ _ =>
    have hpeek : s.cursor.peek ∈ tokens := hs.stream.subset s.cursor.peek_mem_stream
    exact ⟨.refused htoken hnumber hpeek, hasPlace_refusal _ _ _⟩
  | body _ _ he => exact ⟨.explained he.explained, he.hasPlace⟩

theorem not_isFinished : (!s.cursor.isFinished) = true ↔ s.cursor.peek.kind ≠ .endOfInput := by
  simp [Cursor.isFinished]

theorem Ready.claimed (hs : Ready s t tokens) (hm : s.cursor.Moves ts s'.cursor)
    (hr : s'.registry = s.registry.withClaim t.name id) : Ready s' t tokens :=
  ⟨by rw [hr]; exact hs.active, hm.suffix hs.stream⟩

theorem ends_readNext (hs : Ready s t tokens) (resources : List Resource) :
    Ends (readNext settings resources) s
      (fun resources' s' => ∃ ts header values id, s.cursor.Moves ts s'.cursor ∧
        Grammar.Declaration settings t ts header values ∧
        Grammar.TakesId (s.registry.idsOf t.name) header.id id ∧
        s'.registry = s.registry.withClaim t.name id ∧
        resources' = resources ++ [t.resource id header.name values])
      fun e _ => OfScript settings t tokens e ∧ e.HasPlace := by
  apply Ends.get_bind
  simp only
  split
  case isTrue =>
    exact ⟨.explained (.at_token rfl (hs.stream.subset s.cursor.peek_mem_stream)), rfl⟩
  case isFalse =>
    apply Ends.bind ((ends_read hs).mono (fun _ _ h => h) fun e s' he => he.ofScript hs)
    rintro _ s' ⟨ts, header, values, id, hm, -, hd, hid, hr, rfl⟩
    exact Ends.pure ⟨ts, header, values, id, hm, hd, hid, hr, rfl⟩

theorem ends_readAll (hs : Ready s t tokens) :
    Ends (readAll settings) s
      (fun resources s' => ∃ ts, s.cursor.Moves ts s'.cursor ∧
        s'.cursor.peek.kind = .endOfInput ∧
        Grammar.Script settings t (s.registry.idsOf t.name) ts resources ∧
        s'.registry = s.registry.withResources t.name resources)
      fun e _ => OfScript settings t tokens e ∧ e.HasPlace := by
  refine (Ends.repeatWhile (I := fun resources s' => ∃ ts, s.cursor.Moves ts s'.cursor ∧
    Ready s' t tokens ∧ Grammar.Script settings t (s.registry.idsOf t.name) ts resources ∧
    s'.registry = s.registry.withResources t.name resources) ?_
    ⟨[], .refl _, hs, .nil, rfl⟩).imp ?_
  · rintro resources s₁ ⟨ts, h₁, hs₁, hscript, hregistry⟩ -
    apply (ends_readNext hs₁ resources).imp
    rintro _ s₂ ⟨us, header, values, id, h₂, hd, hid, hr, rfl⟩
    rw [hregistry, Registry.idsOf_withResources] at hid
    refine ⟨⟨ts ++ us, h₁.trans h₂, hs₁.claimed h₂ hr, hscript.snoc hd hid, ?_⟩, ?_⟩
    · rw [hr, hregistry, Registry.withResources_snoc]
      rfl
    · obtain ⟨_, _, rfl, -⟩ := hd.exists_head
      rw [Session.remaining, Session.remaining, h₂.length]
      exact Nat.lt_add_of_pos_left (by simp)
  · rintro resources s₁ ⟨⟨ts, h₁, -, hscript, hregistry⟩, hfinished⟩
    rw [← Bool.not_eq_true, not_isFinished, not_not] at hfinished
    exact ⟨ts, h₁, hfinished, hscript, hregistry⟩

theorem readNext_of_moves (ht : s.registry.active? = some t)
    (hv : Grammar.Declaration settings t ts header values) (h : s.cursor.Moves ts c)
    (hid : Grammar.TakesId (s.registry.idsOf t.name) header.id id) (resources : List Resource) :
    ∃ journal, readNext settings resources s =
      .ok (resources ++ [t.resource id header.name values])
        { cursor := c, registry := s.registry.withClaim t.name id, journal } := by
  obtain ⟨journal, hj⟩ := read_of_moves ht hv h hid
  obtain ⟨word, us, rfl, hword⟩ := hv.exists_head
  have hstart : s.cursor.isAtDeclaration = true := by
    rwa [Cursor.isAtDeclaration, Cursor.newWord, Cursor.expects_single, Expectation.isMetBy_word,
      Cursor.peek_of_moves h]
  rw [readNext, bind_of_ok _ Compilation.get_eq]
  simp only [hstart, Bool.not_true, Bool.false_eq_true, if_false]
  rw [bind_of_ok _ hj]
  exact ⟨journal, rfl⟩

theorem rounds_of_moves (ht : s.registry.active? = some t)
    (hv : Grammar.Script settings t (s.registry.idsOf t.name) ts resources)
    (h : s.cursor.Moves ts c) (done : List Resource) : ∃ journal,
      repeatWhile Session.remaining (!·.cursor.isFinished) (readNext settings) done s =
        repeatWhile Session.remaining (!·.cursor.isFinished) (readNext settings) (done ++ resources)
          { cursor := c, registry := s.registry.withResources t.name resources, journal } := by
  generalize htaken : s.registry.idsOf t.name = taken at hv
  induction hv generalizing s done with
  | nil =>
    rw [h.eq_of_nil, List.append_nil]
    exact ⟨s.journal, rfl⟩
  | @cons ts header values taken us resources id hd hid _ ih =>
    obtain ⟨c₁, h₁, h₂⟩ := h.split
    obtain ⟨journal, hj⟩ := readNext_of_moves ht hd h₁ (htaken ▸ hid) done
    obtain ⟨journal', hrest⟩ := ih ht h₂ (done ++ [t.resource id header.name values])
      (s := { cursor := c₁, registry := s.registry.withClaim t.name id, journal })
      (by rw [Registry.idsOf_withClaim_self, htaken])
    obtain ⟨word, _, rfl, hword⟩ := hd.exists_head
    refine ⟨journal', ?_⟩
    rw [repeatWhile_round _ hj, hrest, List.append_assoc, List.singleton_append]
    · rfl
    · rw [Session.remaining, Session.remaining, h₁.length]
      exact Nat.lt_add_of_pos_left (by simp)
    · rw [not_isFinished, Cursor.peek_of_moves h₁, hword.1]
      decide

theorem readAll_of_moves (ht : s.registry.active? = some t)
    (hv : Grammar.Script settings t (s.registry.idsOf t.name) ts resources)
    (h : s.cursor.Moves ts c) (hk : c.peek.kind = .endOfInput) :
    ∃ s', readAll settings s = .ok resources s' := by
  obtain ⟨journal, hj⟩ := rounds_of_moves ht hv h []
  refine ⟨_, hj.trans (repeatWhile_done ?_)⟩
  simp [Cursor.isFinished, hk]

/-- The tokens of a script before the end of input are read to resources exactly when the rules give
them those resources. -/
theorem readAll_eq_ok_iff {tokens : List Token} {c : Cursor} {r : Registry} {t : TypeTemplate}
    (hc : Cursor.ofTokens tokens = .ok c)
    (hend : ∀ token ∈ tokens.dropLast, token.kind ≠ .endOfInput) (ht : r.active? = some t)
    (settings : Settings) (resources : List Resource) :
    (∃ s, readAll settings { cursor := c, registry := r } = .ok resources s) ↔
      Grammar.Script settings t (r.idsOf t.name) tokens.dropLast resources := by
  obtain rfl := Cursor.stream_of_ofTokens hc
  rw [Cursor.dropLast_stream] at hend ⊢
  constructor
  · rintro ⟨s, hs⟩
    have hready : Ready { cursor := c, registry := r } t c.stream := ⟨ht, List.suffix_refl _⟩
    obtain ⟨ts, hm, hk, hscript, -⟩ := (ends_readAll hready).of_ok hs
    rwa [hm.eq_rest hend hk] at hscript
  · intro hscript
    have hk : (c.advance c.rest.length).peek.kind = .endOfInput := by
      rw [Cursor.peek_advance_rest, c.last_kind]
    exact readAll_of_moves (s := { cursor := c, registry := r }) ht hscript c.moves_rest hk

theorem readAll_sample : ∃ s, readAll Sample.settings Sample.session =
    .ok [Sample.note.resource 200 none [("rank", .integer 7)]] s := by
  have hscript : Grammar.Script Sample.settings Sample.note []
      ((Sample.declaration ++ [Sample.tokenOf .endOfInput]).dropLast)
      [Sample.note.resource 200 none [("rank", .integer 7)]] :=
    .cons Sample.declaration_spells ⟨rfl, by decide⟩ .nil
  exact (readAll_eq_ok_iff (r := Sample.registry) rfl (by decide) rfl _ _).mpr hscript

end Declaration

variable {r : Registry} {source : String} {path : Option String}

theorem ofSource_eq_ok (h : Cursor.ofSource source path = .ok c) :
    ∃ tokens, tokenize source path = .ok tokens ∧ Cursor.ofTokens tokens = .ok c := by
  obtain ⟨tokens, htokens, h⟩ := Except.bind_eq_ok.mp h
  exact ⟨tokens, htokens, Except.mapError_eq_ok.mp h⟩

theorem ofSource_eq_error (h : Cursor.ofSource source path = .error e) :
    tokenize source path = .error e := by
  obtain h | ⟨tokens, htokens, h⟩ := Except.bind_eq_error.mp h
  · exact h
  · obtain ⟨c, hc⟩ := ofTokens_tokenize htokens
    simp [hc, Except.mapError] at h

theorem readAll_of_compile (h : (compile settings r source path).result = .ok resources) :
    ∃ c s, Cursor.ofSource source path = .ok c ∧
      Declaration.readAll settings { cursor := c, registry := r } = .ok resources s ∧
      (compile settings r source path).registry = s.registry := by
  rw [compile] at h ⊢
  cases hsource : Cursor.ofSource source path with
  | error e => simp [hsource] at h
  | ok c =>
    cases hread : Declaration.readAll settings { cursor := c, registry := r } with
    | error e s => simp [hsource, hread] at h
    | ok resources' s =>
      obtain rfl : resources' = resources := by simpa [hsource, hread] using h
      exact ⟨c, s, rfl, hread, by simp only [hread]⟩

theorem error_of_compile (h : (compile settings r source path).result = .error e) :
    Cursor.ofSource source path = .error e ∨ ∃ c s, Cursor.ofSource source path = .ok c ∧
      Declaration.readAll settings { cursor := c, registry := r } = .error e s := by
  rw [compile] at h
  cases hsource : Cursor.ofSource source path with
  | error e' =>
    obtain rfl : e' = e := by simpa [hsource] using h
    exact .inl rfl
  | ok c =>
    cases hread : Declaration.readAll settings { cursor := c, registry := r } with
    | error e' s =>
      obtain rfl : e' = e := by simpa [hsource, hread] using h
      exact .inr ⟨c, s, rfl, hread⟩
    | ok resources s => simp [hsource, hread] at h

end ResourceScript
