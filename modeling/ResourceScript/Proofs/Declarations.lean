import ResourceScript.Proofs.Fields
import ResourceScript.Proofs.Headers
import ResourceScript.Proofs.Ids

namespace ResourceScript

variable {settings : Settings} {t : TypeTemplate} {tokens ts : List Token} {s s' : Session}
  {c c' : Cursor} {id : Int} {name : Option Text} {values vs : List (String × Value)}
  {k : LexemeKind} {header : Header}

namespace Compilation

theorem ends_ensureKind_bind {f : Unit → Compilation α} (hr : s'.registry = s.registry)
    (hc : s'.cursor.stream <:+ tokens) (hk : k ≠ .endOfInput)
    (hf : ∀ token c, token.kind = k → s'.cursor.Moves [token] c →
      Ends (f ()) { s' with cursor := c } P (s.FailsAt settings t tokens)) :
    Ends (liftM (CursorM.ensureKind k) >>= f) s' P (s.FailsAt settings t tokens) := by
  refine Ends.bind (ends_onCursor (P := fun _ s'' => ∃ token c, token.kind = k ∧
    s'.cursor.Moves [token] c ∧ s'' = { s' with cursor := c })
    (CursorM.ends_ensureKind hk (fun token c hk hm => ⟨token, c, hk, hm, rfl⟩)
      fun e token ht => ⟨⟨.at_token rfl (hc.subset ht), hr⟩, rfl⟩)) ?_
  rintro _ _ ⟨token, c, hk, hm, rfl⟩
  exact hf token c hk hm

theorem ensureKind_of_moves (h : s.cursor.Moves [token] c) (ht : token.kind = k) :
    (liftM (CursorM.ensureKind k) : Compilation Unit) s = .ok () { s with cursor := c } :=
  reader_of_ok (CursorM.ensureKind_of_moves h ht)

end Compilation

namespace TypeTemplate

theorem fieldNamed_eq_ok {token : Token} :
    t.fieldNamed token = .ok f ↔ t.field? token.text = some f := by
  rw [fieldNamed]
  cases t.field? token.text <;> simp

theorem explained_fieldNamed {token : Token} (ht : token ∈ tokens)
    (h : t.fieldNamed token = .error e) : Failure.Explained settings t tokens e ∧ e.HasPlace := by
  rw [fieldNamed] at h
  split at h
  · simp at h
  · cases h
    exact ⟨.at_token rfl ht, rfl⟩

theorem mem_of_field? (h : t.field? n = some f) : f ∈ t.fields :=
  List.mem_of_find?_eq_some h

end TypeTemplate

namespace Declaration

/-- The session may stand anywhere in the tokens; its registry has the type in use. -/
structure Ready (s : Session) (t : TypeTemplate) (tokens : List Token) : Prop where
  active : s.registry.active? = some t
  stream : s.cursor.stream <:+ tokens

theorem Ready.after (h : Ready s t tokens) (hm : s.Moves ts s') : Ready s' t tokens :=
  ⟨by rw [hm.registry, h.active], hm.cursor.suffix h.stream⟩

theorem ends_assignment (hs : Ready s t tokens) :
    Ends (assignment settings (t.draft id name values)) s
      (fun draft s' => ∃ ts vs, s.Moves ts s' ∧ Grammar.Assignment settings t ts vs ∧
        ((values.map (·.1)).Nodup → ((values ++ vs).map (·.1)).Nodup) ∧
        draft = t.draft id name (values ++ vs))
      (s.FailsAt settings t tokens) := by
  have hp := hs.stream.subset s.cursor.peek_mem_stream
  apply Compilation.ends_peek_bind
  split
  case isTrue => exact ⟨⟨.at_token rfl hp, rfl⟩, rfl⟩
  case isFalse hk =>
    have hk : s.cursor.peek.kind = .identifier := by simpa using hk
    have hm : s.cursor.Moves [s.cursor.peek] s.cursor.advance :=
      Cursor.moves_peek (by rw [hk]; decide)
    apply Compilation.ends_read_bind
    refine Ends.get_bind (Compilation.ends_ok_bind
      (Registry.active_eq_ok.mpr hs.active) ?_)
    refine Ends.bind (Compilation.ends_ofExcept (P := fun f s₁ =>
      t.field? s.cursor.peek.text = some f ∧ s₁ = { s with cursor := s.cursor.advance })
      (fun f hf => ⟨TypeTemplate.fieldNamed_eq_ok.mp hf, rfl⟩) fun e he => ?_) ?_
    · obtain ⟨he, hplace⟩ : Failure.Explained settings t tokens e ∧ e.HasPlace :=
        TypeTemplate.explained_fieldNamed hp he
      exact ⟨⟨he, rfl⟩, hplace⟩
    rintro f _ ⟨hf, rfl⟩
    refine Compilation.ends_ensureKind_bind rfl (hm.suffix hs.stream) (by decide) ?_
    intro equals c₁ hequals h₁
    have h₁ : s.Moves [s.cursor.peek, equals] { s with cursor := c₁ } := ⟨hm.trans h₁, rfl⟩
    refine Ends.bind ((Assignment.ends_run (TypeTemplate.mem_of_field? hf) hp
      (h₁.cursor.suffix hs.stream)).mono (fun _ _ h => h) fun e s' he => he.after rfl) ?_
    rintro _ s₂ ⟨d, ts, vs, hd, h₂, hvs, hnodup, rfl⟩
    have h₂ := h₁.trans h₂
    apply Compilation.ends_ensureKind_bind h₂.registry (h₂.cursor.suffix hs.stream) (by decide)
    intro semicolon c₃ hsemicolon h₃
    have h₃ : s.Moves _ { s₂ with cursor := c₃ } := h₂.trans ⟨h₃, rfl⟩
    rw [List.append_assoc] at h₃
    exact Ends.pure ⟨_, vs, h₃, .mk hk hf hd hequals hvs hsemicolon, hnodup, rfl⟩

theorem assignment_of_moves (ht : s.registry.active? = some t)
    (hv : Grammar.Assignment settings t ts vs) (h : s.cursor.Moves ts c)
    (hn : ((values ++ vs).map (·.1)).Nodup) (id : Int) (name : Option Text) :
    ∃ journal, assignment settings (t.draft id name values) s =
      .ok (t.draft id name (values ++ vs)) { s with cursor := c, journal } := by
  cases hv with
  | @mk f d ts vs token equals semicolon hk hf hd hequals hvs hsemicolon =>
    obtain ⟨c₁, h₁, h₂⟩ := h.split_cons
    obtain ⟨c₂, h₂, h₃⟩ := h₂.split_cons
    obtain ⟨c₃, h₃, h₄⟩ := h₃.split
    obtain ⟨journal, hj⟩ := Assignment.run_of_moves (a := ⟨settings, t, token, f⟩)
      (s := { s with cursor := c₂ }) hd hvs h₃ hn (by rw [Cursor.peek_of_moves h₄, hsemicolon]) id
      name
    refine ⟨journal, ?_⟩
    rw [assignment, bind_of_ok _ Compilation.peek_eq, Cursor.peek_of_moves h₁]
    simp only [hk, ne_eq, not_true_eq_false, if_false]
    rw [bind_of_ok _ (Compilation.reader_of_ok (CursorM.read_of_moves h₁)),
      bind_of_ok _ (Compilation.get_eq),
      bind_of_ok _ (Compilation.ofExcept_of_ok (Registry.active_eq_ok.mpr ht)),
      bind_of_ok _ (Compilation.ofExcept_of_ok (TypeTemplate.fieldNamed_eq_ok.mpr hf)),
      bind_of_ok _ (Compilation.ensureKind_of_moves h₂ hequals), bind_of_ok _ hj,
      bind_of_ok _ (Compilation.ensureKind_of_moves h₄ hsemicolon)]
    rfl

theorem ends_body (hs : Ready s t tokens) :
    Ends (body settings (t.draft id name [])) s
      (fun draft s' => ∃ ts vs, s.Moves ts s' ∧ Grammar.Body settings t ts vs ∧
        draft = t.draft id name vs)
      (s.FailsAt settings t tokens) := by
  apply Compilation.ends_ensureKind_bind rfl hs.stream (by decide)
  intro left c₁ hleft h₁
  have h₁ : s.Moves [left] { s with cursor := c₁ } := ⟨h₁, rfl⟩
  refine Ends.bind (Ends.repeatWhile (I := fun draft s' => ∃ ts vs, s.Moves (left :: ts) s' ∧
    Grammar.Assignments settings t ts vs ∧ (vs.map (·.1)).Nodup ∧ draft = t.draft id name vs) ?_
    ⟨[], [], h₁, .nil, .nil, rfl⟩) ?_
  · rintro _ s₂ ⟨ts, vs, h₂, hvs, hnodup, rfl⟩ -
    refine (ends_assignment (hs.after h₂)).mono ?_ fun e s' he => he.after h₂.registry
    rintro _ s₃ ⟨us, ws, h₃, hws, hnodup', rfl⟩
    refine ⟨⟨ts ++ us, vs ++ ws, h₂.trans h₃, hvs.snoc hws, hnodup' hnodup, rfl⟩, ?_⟩
    obtain ⟨_, _, rfl, -⟩ := hws.exists_head
    rw [Session.remaining, Session.remaining, h₃.cursor.length]
    exact Nat.lt_add_of_pos_left (by simp)
  · rintro _ s₂ ⟨⟨ts, vs, h₂, hvs, hnodup, rfl⟩, -⟩
    apply Compilation.ends_ensureKind_bind h₂.registry (h₂.cursor.suffix hs.stream) (by decide)
    intro right c₃ hright h₃
    have h₃ : s.Moves _ { s₂ with cursor := c₃ } := h₂.trans ⟨h₃, rfl⟩
    exact Ends.pure ⟨_, vs, h₃, .mk hleft hvs hnodup hright, rfl⟩

theorem assignments_of_moves (ht : s.registry.active? = some t)
    (hv : Grammar.Assignments settings t ts vs) (h : s.cursor.Moves ts c)
    (hn : ((values ++ vs).map (·.1)).Nodup) (hk : c.peek.kind = .rightBrace) (id : Int)
    (name : Option Text) :
    ∃ journal, repeatWhile Session.remaining (·.cursor.expects [.anythingBut .rightBrace])
        (assignment settings) (t.draft id name values) s =
      .ok (t.draft id name (values ++ vs)) { s with cursor := c, journal } := by
  induction hv generalizing s values with
  | nil =>
    have hc := h.eq_of_nil
    refine ⟨s.journal, ?_⟩
    rw [repeatWhile_done, List.append_nil, hc]
    rw [Cursor.expects_single, Bool.eq_false_iff, ne_eq, Expectation.isMetBy_anythingBut, ← hc, hk]
    decide
  | @cons ts vs us ws ha _ ih =>
    obtain ⟨c₁, h₁, h₂⟩ := h.split
    rw [← List.append_assoc] at hn ⊢
    have hn₁ : ((values ++ vs).map (·.1)).Nodup := by
      rw [List.map_append] at hn
      exact hn.of_append_left
    obtain ⟨j₁, hj₁⟩ := assignment_of_moves ht ha h₁ hn₁ id name
    obtain ⟨j₂, hj₂⟩ := ih (s := { s with cursor := c₁, journal := j₁ }) ht h₂ hn
    obtain ⟨token, _, rfl, htoken⟩ := ha.exists_head
    refine ⟨j₂, ?_⟩
    rw [repeatWhile_round _ hj₁, hj₂]
    · rw [Session.remaining, Session.remaining, h₁.length]
      exact Nat.lt_add_of_pos_left (by simp)
    · rw [Cursor.expects_single, Expectation.isMetBy_anythingBut, Cursor.peek_of_moves h₁, htoken]
      decide

theorem body_of_moves (ht : s.registry.active? = some t) (hv : Grammar.Body settings t ts vs)
    (h : s.cursor.Moves ts c) (id : Int) (name : Option Text) :
    ∃ journal, body settings (t.draft id name []) s =
      .ok (t.draft id name vs) { s with cursor := c, journal } := by
  cases hv with
  | mk hleft hvs hnodup hright =>
    obtain ⟨c₁, h₁, h₂⟩ := h.split_cons
    obtain ⟨c₂, h₂, h₃⟩ := h₂.split
    have hn : ((([] : List (String × Value)) ++ vs).map (·.1)).Nodup := hnodup
    obtain ⟨journal, hj⟩ := assignments_of_moves (s := { s with cursor := c₁ }) ht hvs h₂ hn
      (by rw [Cursor.peek_of_moves h₃, hright]) id name
    refine ⟨journal, ?_⟩
    rw [body, bind_of_ok _ (Compilation.ensureKind_of_moves h₁ hleft), bind_of_ok _ hj,
      bind_of_ok _ (Compilation.ensureKind_of_moves h₃ hright)]
    rfl

theorem start_of_takes (ht : s.registry.active? = some t)
    (hid : Grammar.TakesId (s.registry.idsOf t.name) header.id id) (position : Position) :
    start header position s =
      .ok (t.draft id header.name []) { s with registry := s.registry.withClaim t.name id } := by
  have hi : s.registry.instantiate header.id header.name (some position) =
      .ok (t.draft id header.name [], s.registry.withClaim t.name id) :=
    Registry.instantiate_of_takes ht hid header.name
  rw [start, bind_of_ok _ Compilation.get_eq, bind_of_ok _ (Compilation.ofExcept_of_ok hi)]
  rfl

theorem start_of_taken (ht : s.registry.active? = some t) (hn : header.id = some n)
    (hmem : n ∈ s.registry.idsOf t.name) (position : Position) :
    start header position s = .error (Registry.refusal n t.name position) s := by
  have hi : s.registry.instantiate header.id header.name (some position) =
      .error (Registry.refusal n t.name position) :=
    Registry.instantiate_of_taken ht hn hmem header.name
  rw [start, bind_of_ok _ Compilation.get_eq, bind_of_error _ (Compilation.ofExcept_of_error hi)]

theorem start_of_inactive (h : s.registry.active? = none) (position : Position) :
    start header position s = .error (Problem.noTypeSelected s.registry.knownNames).anywhere s := by
  have hi : s.registry.instantiate header.id header.name (some position) =
      .error (Problem.noTypeSelected s.registry.knownNames).anywhere := by
    rw [Registry.instantiate, Registry.active_of_inactive h]
    rfl
  rw [start, bind_of_ok _ Compilation.get_eq, bind_of_error _ (Compilation.ofExcept_of_error hi)]

/-- How reading a declaration fails: in its header, for the id it asks for, or in its body, with an
id taken by then. -/
inductive Fails (settings : Settings) (t : TypeTemplate) (tokens : List Token) (s : Session) :
    Failure → Session → Prop where
  | header {s' : Session} {c : Cursor} : Header.read s.cursor = .error e c →
      s.FailsAt settings t tokens e s' → Fails settings t tokens s e s'
  | id {s' : Session} {c : Cursor} {header : Header} : Header.read s.cursor = .ok header c →
      header.id = some n → token ∈ tokens → token.lexeme.idNumber? = some n →
      n ∈ s.registry.idsOf t.name → s'.registry = s.registry →
      Fails settings t tokens s (Registry.refusal n t.name s.cursor.peek.position) s'
  | body {s' : Session} {c : Cursor} {header : Header} {id : Int} :
      Header.read s.cursor = .ok header c →
      Grammar.TakesId (s.registry.idsOf t.name) header.id id →
      Session.FailsAt { s with registry := s.registry.withClaim t.name id } settings t tokens e s' →
      Fails settings t tokens s e s'

/-- A declaration that is read is one that the rules give, and it takes the id that its header asks
for or the least free one. -/
theorem ends_read (hs : Ready s t tokens) :
    Ends (read settings) s
      (fun x s' => ∃ ts header values id, s.cursor.Moves ts s'.cursor ∧
        (∃ c, Header.read s.cursor = .ok header c) ∧
        Grammar.Declaration settings t ts header values ∧
        Grammar.TakesId (s.registry.idsOf t.name) header.id id ∧
        s'.registry = s.registry.withClaim t.name id ∧
        x = t.resource id header.name values)
      (Fails settings t tokens s) := by
  apply Compilation.ends_peek_bind
  have hheader : Ends Header.read s.cursor _ fun e _ =>
      Failure.Explained settings t tokens e ∧ e.HasPlace := Header.ends_read hs.stream
  cases hread : Header.read s.cursor with
  | error e c =>
    obtain ⟨he, hp⟩ := hheader.of_error hread
    exact Ends.bind_of_error (Compilation.reader_of_error hread)
      (.header hread ⟨⟨he, rfl⟩, hp⟩)
  | ok header c =>
    obtain ⟨ts, hm, hts⟩ := hheader.of_ok hread
    apply Ends.bind_of_ok (Compilation.reader_of_ok hread)
    obtain ⟨id, hid⟩ | ⟨n, hn, hmem⟩ :=
      Grammar.TakesId.exists_or_taken (s.registry.idsOf t.name) header.id
    · apply Ends.bind_of_ok (start_of_takes (s := { s with cursor := c }) hs.active hid _)
      have hs' : Ready { s with cursor := c, registry := s.registry.withClaim t.name id } t
          tokens :=
        ⟨hs.active, hm.suffix hs.stream⟩
      refine Ends.bind ((ends_body hs').mono (fun _ _ h => h) fun e s' he => .body hread hid ?_) ?_
      · exact he.after rfl
      · rintro _ s₁ ⟨us, vs, h₁, hvs, rfl⟩
        apply Compilation.ends_ok_bind (TypeTemplate.assemble_draft hvs.admissible)
        refine Ends.bind (Compilation.ends_note (P := fun _ s' => s₁.Moves [] s')
          ⟨.refl _, rfl⟩) fun _ s₂ h₂ => Ends.pure ?_
        have hm' := (hm.trans h₁.cursor).trans h₂.cursor
        rw [List.append_nil] at hm'
        exact ⟨_, header, vs, id, hm', ⟨c, rfl⟩, .mk hts hvs, hid,
          h₂.registry.trans h₁.registry, rfl⟩
    · obtain ⟨token, htoken, hnumber⟩ := hts.exists_number hn
      have htoken := (hm.isInfix hs.stream).subset htoken
      exact Ends.bind_of_error (start_of_taken (s := { s with cursor := c }) hs.active hn hmem _)
        (.id hread hn htoken hnumber hmem rfl)

theorem read_of_moves (ht : s.registry.active? = some t)
    (hv : Grammar.Declaration settings t ts header values) (h : s.cursor.Moves ts c)
    (hid : Grammar.TakesId (s.registry.idsOf t.name) header.id id) :
    ∃ journal, read settings s = .ok (t.resource id header.name values)
      { cursor := c, registry := s.registry.withClaim t.name id, journal } := by
  cases hv with
  | mk hts hvs =>
    obtain ⟨c₁, h₁, h₂⟩ := h.split
    obtain ⟨journal, hj⟩ := body_of_moves
      (s := { s with cursor := c₁, registry := s.registry.withClaim t.name id }) ht hvs h₂ id
      header.name
    rw [read, bind_of_ok _ Compilation.peek_eq,
      bind_of_ok _ (Compilation.reader_of_ok (Header.read_of_moves hts h₁)),
      bind_of_ok _ (start_of_takes (s := { s with cursor := c₁ }) ht hid _), bind_of_ok _ hj,
      bind_of_ok _ (Compilation.ofExcept_of_ok (TypeTemplate.assemble_draft hvs.admissible))]
    exact ⟨_, rfl⟩

end Declaration

end ResourceScript
