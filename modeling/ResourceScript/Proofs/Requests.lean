import ResourceScript.Proofs.Scripts

namespace ResourceScript

/-- The states in which the rounds of a repeated step start. -/
def roundsOf (measure : σ → Nat) (more : σ → Bool) (step : α → EStateM ε σ α) (a : α) (s : σ) :
    List σ :=
  if more s then
    match step a s with
    | .ok b s' => if measure s' < measure s then s :: roundsOf measure more step b s' else [s]
    | .error _ _ => [s]
  else []
termination_by measure s

/-- A request for an id. -/
structure IdRequest where
  /-- The registry it is made to. -/
  registry : Registry
  /-- The id asked for, if any. -/
  asked : Option Int
  /-- The id handed out, with the registry from then on, or why there is none. -/
  answer : Except Failure (Int × Registry)
  /-- The declaration that makes it, if one does: where it stands, and what it is read with. -/
  declaration : Option (Settings × Session) := none

namespace IdRequest

def type? (q : IdRequest) : Option String :=
  q.registry.active?.map (·.name)

def after (q : IdRequest) : Registry :=
  match q.answer with
  | .ok (_, r) => r
  | .error _ => q.registry

def idFor? (type : String) (q : IdRequest) : Option Int :=
  if q.type? = some type then q.answer.toOption.map (·.1) else none

end IdRequest

/-- The ids handed out for a type by requests, in their order. -/
def handedOut (requests : List IdRequest) (type : String) : List Int :=
  requests.filterMap (IdRequest.idFor? type)

namespace Registry

def claimRequest (r : Registry) (asked : Option Int) (position : Option Position) : IdRequest where
  registry := r
  asked
  answer := r.claim asked position

def instantiateRequest (r : Registry) (asked : Option Int) (name : Option Text)
    (position : Option Position) : IdRequest where
  registry := r
  asked
  answer := (r.instantiate asked name position).map fun (draft, r') => (draft.id, r')

end Registry

namespace Declaration

def requestOf (settings : Settings) (s : Session) (header : Header) : IdRequest :=
  { s.registry.instantiateRequest header.id header.name (some s.cursor.peek.position) with
    declaration := some (settings, s) }

/-- The request of the declaration that comes next, if its header can be read. -/
def request? (settings : Settings) (s : Session) : Option IdRequest :=
  match Header.read s.cursor with
  | .ok header _ => some (requestOf settings s header)
  | .error _ _ => none

/-- The requests of the declarations of a script, those of the ones that fail included. -/
def requests (settings : Settings) (s : Session) : List IdRequest :=
  (roundsOf Session.remaining (!·.cursor.isFinished) (readNext settings) [] s).filterMap
    (request? settings)

end Declaration

namespace IdRequest

/-- A request is answered by its registry. A declaration ends in the failure of its request, and in
a problem with its id only if that is the answer. -/
structure IsAnswered (q : IdRequest) : Prop where
  granted : ∀ id r, q.answer = .ok (id, r) → ∃ t, q.registry.active? = some t ∧
    Grammar.TakesId (q.registry.idsOf t.name) q.asked id ∧ r = q.registry.withClaim t.name id
  refused : ∀ e t, q.answer = .error e → q.registry.active? = some t →
    ∃ n place, q.asked = some n ∧ n ∈ q.registry.idsOf t.name ∧
      e = Registry.refusal n t.name place
  declaration : ∀ settings s t, q.declaration = some (settings, s) → q.registry.active? = some t →
    (∀ e, q.answer = .error e → ∃ s', Declaration.read settings s = .error e s') ∧
      ∀ cause place s', Declaration.read settings s = .error (.problem cause place) s' →
        cause.code = "E_DUP_RESOURCE_ID" → q.answer = .error (.problem cause place)

end IdRequest

/-- The registry `r'` has the ids of `r` and those that the requests were answered with. -/
inductive Tracks : Registry → List IdRequest → Registry → Prop where
  | nil : (∀ type, r'.idsOf type = r.idsOf type) → Tracks r [] r'
  | cons : q.IsAnswered → (∀ type, q.registry.idsOf type = r.idsOf type) → Tracks q.after qs r' →
      Tracks r (q :: qs) r'

variable {r r' r'' : Registry} {q : IdRequest} {qs qs' before : List IdRequest} {type : String}
  {t : TypeTemplate} {settings : Settings} {s s' : Session} {c : Cursor} {header : Header}
  {e : Failure}

theorem IdRequest.answer_of_idFor? {id : Int} (h : q.idFor? type = some id) :
    q.type? = some type ∧ ∃ r, q.answer = .ok (id, r) := by
  rw [idFor?] at h
  split at h
  case isTrue htype =>
    cases hq : q.answer with
    | ok p =>
      obtain rfl : p.1 = id := by simpa [hq, Except.toOption] using h
      exact ⟨htype, p.2, rfl⟩
    | error e => simp [hq, Except.toOption] at h
  case isFalse => cases h

namespace IdRequest.IsAnswered

theorem idsOf_after (h : q.IsAnswered) :
    q.after.idsOf type = (q.idFor? type).toList ++ q.registry.idsOf type := by
  rw [after, idFor?]
  cases hq : q.answer with
  | error e =>
    rw [Except.toOption, Option.map_none, ite_self]
    rfl
  | ok p =>
    obtain ⟨id, r⟩ := p
    obtain ⟨t, ht, -, rfl⟩ := h.granted id r hq
    have htype : q.type? = some t.name := by rw [type?, ht]; rfl
    by_cases he : type = t.name
    · rw [he, htype, if_pos rfl]
      exact Registry.idsOf_withClaim_self _ _ _
    · have hne : ¬t.name = type := fun h => he h.symm
      rw [htype, Registry.idsOf_withClaim_of_ne _ _ he]
      simp [hne]

theorem nodup_after (h : q.IsAnswered) (hn : (q.registry.idsOf type).Nodup) :
    (q.after.idsOf type).Nodup := by
  rw [h.idsOf_after]
  cases hid : q.idFor? type with
  | none => exact hn
  | some id =>
    obtain ⟨htype, r, hr⟩ := answer_of_idFor? hid
    obtain ⟨t, ht, htakes, -⟩ := h.granted id r hr
    obtain rfl : t.name = type := by simpa [type?, ht] using htype
    exact List.nodup_cons.mpr ⟨htakes.not_mem, hn⟩

end IdRequest.IsAnswered

theorem reverse_handedOut_cons (q : IdRequest) (qs : List IdRequest) (type : String) :
    (handedOut (q :: qs) type).reverse = (handedOut qs type).reverse ++ (q.idFor? type).toList := by
  rw [handedOut, handedOut, List.filterMap_cons]
  cases q.idFor? type with
  | none => exact (List.append_nil _).symm
  | some id => exact List.reverse_cons

namespace Tracks

theorem of_eq (he : ∀ type, r'.idsOf type = r.idsOf type) (h : Tracks r' qs r'') :
    Tracks r qs r'' := by
  cases h with
  | nil h => exact .nil fun type => (h type).trans (he type)
  | cons hq h ht => exact .cons hq (fun type => (h type).trans (he type)) ht

theorem append (h : Tracks r qs r') (h' : Tracks r' qs' r'') : Tracks r (qs ++ qs') r'' := by
  induction h with
  | nil he => exact h'.of_eq he
  | cons hq he _ ih => exact .cons hq he (ih h')

theorem idsOf (h : Tracks r qs r') (type : String) :
    r'.idsOf type = (handedOut qs type).reverse ++ r.idsOf type := by
  induction h with
  | nil he => exact he type
  | @cons qs r' r q hq he _ ih =>
    rw [ih, hq.idsOf_after, he, reverse_handedOut_cons, List.append_assoc]

theorem nodup (h : Tracks r qs r') (hn : (r.idsOf type).Nodup) : (r'.idsOf type).Nodup := by
  induction h with
  | nil he => rwa [he]
  | cons hq he _ ih => exact ih (hq.nodup_after (by rwa [he]))

theorem split (h : Tracks r (before ++ q :: qs) r') : q.IsAnswered ∧
    ∀ type, q.registry.idsOf type = (handedOut before type).reverse ++ r.idsOf type := by
  induction before generalizing r with
  | nil =>
    cases h with
    | cons hq he _ => exact ⟨hq, he⟩
  | cons p before ih =>
    cases h with
    | cons hp he h =>
      obtain ⟨hq, hids⟩ := ih h
      refine ⟨hq, fun type => ?_⟩
      rw [hids, hp.idsOf_after, he, reverse_handedOut_cons, List.append_assoc]

end Tracks

theorem ends_rounds {step : α → EStateM ε σ α} {measure : σ → Nat} {more : σ → Bool}
    {T : σ → List σ → σ → Prop} (hnil : ∀ s, T s [] s)
    (happend : ∀ s₁ s₂ s₃ xs ys, T s₁ xs s₂ → T s₂ ys s₃ → T s₁ (xs ++ ys) s₃)
    (hround : ∀ a s, Ends (step a) s (fun _ s' => T s [s] s') fun _ s' => T s [s] s') (a : α)
    (s : σ) :
    Ends (repeatWhile measure more step a) s
      (fun _ s' => T s (roundsOf measure more step a s) s')
      (fun _ s' => T s (roundsOf measure more step a s) s') := by
  fun_induction roundsOf measure more step a s with
  | case1 a s hm b s' hs hlt ih =>
    have h : T s [s] s' := (hround a s).of_ok hs
    unfold Ends at ih ⊢
    rw [repeatWhile_round hm hs hlt]
    cases hr : repeatWhile measure more step b s' with
    | ok c s'' => exact happend _ _ _ _ _ h (by simpa only [hr] using ih)
    | error e s'' => exact happend _ _ _ _ _ h (by simpa only [hr] using ih)
  | case2 a s hm b s' hs hlt =>
    unfold Ends
    rw [repeatWhile]
    simpa only [hm, hs, hlt, if_true, if_false] using (hround a s).of_ok hs
  | case3 a s hm e s' hs =>
    unfold Ends
    rw [repeatWhile]
    simpa only [hm, hs, if_true] using (hround a s).of_error hs
  | case4 a s hm =>
    unfold Ends
    rw [repeatWhile_done (by simpa using hm)]
    exact hnil s

namespace Registry

theorem claim_of_inactive (h : r.active? = none) (asked : Option Int)
    (position : Option Position) : ∃ e, r.claim asked position = .error e := by
  rw [claim, active_of_inactive h]
  exact ⟨_, rfl⟩

theorem instantiateRequest_answer (r : Registry) (asked : Option Int) (name : Option Text)
    (position : Option Position) :
    (r.instantiateRequest asked name position).answer = r.claim asked position := by
  rw [instantiateRequest, instantiate]
  cases ha : r.active with
  | error e =>
    rw [claim, ha]
    rfl
  | ok t =>
    simp only [bind, Except.bind]
    cases r.claim asked position with
    | error e => rfl
    | ok p => rfl

theorem isAnswered_of_claim {position : Option Position}
    (ha : q.answer = q.registry.claim q.asked position)
    (hd : ∀ settings s t, q.declaration = some (settings, s) → q.registry.active? = some t →
      (∀ e, q.answer = .error e → ∃ s', Declaration.read settings s = .error e s') ∧
        ∀ cause place s', Declaration.read settings s = .error (.problem cause place) s' →
          cause.code = "E_DUP_RESOURCE_ID" → q.answer = .error (.problem cause place)) :
    q.IsAnswered where
  granted id r h := by
    rw [ha] at h
    cases ht : q.registry.active? with
    | none =>
      obtain ⟨e, he⟩ := claim_of_inactive ht q.asked position
      rw [he] at h
      cases h
    | some t => exact ⟨t, rfl, (claim_eq_ok ht).mp h⟩
  refused e t h ht := by
    rw [ha] at h
    obtain ⟨n, hn, hmem, rfl⟩ := (claim_eq_error ht).mp h
    exact ⟨n, position, hn, hmem, rfl⟩
  declaration := hd

theorem isAnswered_claim (r : Registry) (asked : Option Int) (position : Option Position) :
    (r.claimRequest asked position).IsAnswered :=
  isAnswered_of_claim rfl nofun

theorem isAnswered_instantiate (r : Registry) (asked : Option Int) (name : Option Text)
    (position : Option Position) : (r.instantiateRequest asked name position).IsAnswered :=
  isAnswered_of_claim (instantiateRequest_answer r asked name position) nofun

end Registry

namespace Declaration

theorem request?_of_header (h : Header.read s.cursor = .ok header c) (settings : Settings) :
    request? settings s = some (requestOf settings s header) := by
  rw [request?, h]

theorem request?_of_error (h : Header.read s.cursor = .error e c) (settings : Settings) :
    request? settings s = none := by
  rw [request?, h]

theorem ends_read_of_inactive (h : s.registry.active? = none) (hs : s.cursor.stream <:+ tokens) :
    Ends (read settings) s (fun _ _ => False)
      fun e s' => s'.registry = s.registry ∧ e.BlamesToken tokens := by
  apply Compilation.ends_peek_bind
  cases hread : Header.read s.cursor with
  | error e c =>
    -- A header has no type yet, so the one that its failures are explained by is of no matter.
    have hheader : Ends Header.read s.cursor _ fun e _ =>
        e.Explained settings ⟨"", "", [], []⟩ tokens ∧ e.HasPlace := Header.ends_read hs
    obtain ⟨hexplained, -⟩ := hheader.of_error hread
    exact Ends.bind_of_error (Compilation.reader_of_error hread) ⟨rfl, hexplained.blamesToken⟩
  | ok header c =>
    apply Ends.bind_of_ok (Compilation.reader_of_ok hread)
    have hstart : start header s.cursor.peek.position { s with cursor := c } = .error _ _ :=
      start_of_inactive (s := { s with cursor := c }) h _
    exact Ends.bind_of_error hstart ⟨rfl, Failure.blamesToken_anywhere _⟩

theorem ends_read_of_takes {id : Int} (ht : s.registry.active? = some t)
    (hread : Header.read s.cursor = .ok header c)
    (hid : Grammar.TakesId (s.registry.idsOf t.name) header.id id) :
    Ends (read settings) s (fun _ s' => s'.registry = s.registry.withClaim t.name id)
      fun e s' => s'.registry = s.registry.withClaim t.name id ∧
        ∀ cause place, e = .problem cause place → cause.code ≠ "E_DUP_RESOURCE_ID" := by
  refine (ends_read ⟨ht, List.suffix_refl _⟩).mono ?_ ?_
  · rintro _ s' ⟨_, header', _, id', -, ⟨c', hread'⟩, -, hid', hr, -⟩
    obtain ⟨rfl, -⟩ := EStateM.Result.ok.inj (hread'.symm.trans hread)
    rw [hr, hid'.unique hid]
  · intro e s' he
    cases he with
    | header hread' => simp [hread] at hread'
    | id hread' hn _ _ hmem =>
      obtain ⟨rfl, -⟩ := EStateM.Result.ok.inj (hread'.symm.trans hread)
      rw [hn] at hid
      exact absurd (hid.1 ▸ hmem) hid.not_mem
    | body hread' hid' he =>
      obtain ⟨rfl, -⟩ := EStateM.Result.ok.inj (hread'.symm.trans hread)
      rw [hid'.unique hid] at he
      refine ⟨he.registry, ?_⟩
      rintro cause place rfl hcode
      cases he.explained with
      | problem hc _ =>
        obtain ⟨n, type, rfl⟩ := Problem.code_eq_duplicateId.mp hcode
        simp [Problem.isOfContent] at hc

theorem ends_read_of_taken (ht : s.registry.active? = some t)
    (hread : Header.read s.cursor = .ok header c) (hn : header.id = some n)
    (hmem : n ∈ s.registry.idsOf t.name) :
    Ends (read settings) s (fun _ _ => False) fun e s' => s'.registry = s.registry ∧
      e = Registry.refusal n t.name s.cursor.peek.position := by
  refine Compilation.ends_peek_bind (Ends.bind_of_ok (Compilation.reader_of_ok hread) ?_)
  exact Ends.bind_of_error (start_of_taken (s := { s with cursor := c }) ht hn hmem _) ⟨rfl, rfl⟩

theorem isAnswered_requestOf (hread : Header.read s.cursor = .ok header c) :
    (requestOf settings s header).IsAnswered := by
  have ha : (requestOf settings s header).answer =
      s.registry.claim header.id s.cursor.peek.position :=
    s.registry.instantiateRequest_answer _ _ _
  apply Registry.isAnswered_of_claim ha
  rintro _ _ t ⟨⟩ (ht : s.registry.active? = some t)
  rw [ha]
  obtain ⟨id, hid⟩ | ⟨n, hn, hmem⟩ :=
    Grammar.TakesId.exists_or_taken (s.registry.idsOf t.name) header.id
  · constructor
    · intro e he
      rw [(Registry.claim_eq_ok ht).mpr ⟨hid, rfl⟩] at he
      cases he
    · intro cause place s' hs' hcode
      exact absurd hcode (((ends_read_of_takes ht hread hid).of_error hs').2 cause place rfl)
  · have hends : Ends (read settings) s _ _ := ends_read_of_taken ht hread hn hmem
    have hclaim : s.registry.claim header.id s.cursor.peek.position =
        .error (Registry.refusal n t.name s.cursor.peek.position) :=
      (Registry.claim_eq_error ht).mpr ⟨n, hn, hmem, rfl⟩
    rw [hclaim]
    cases hs' : read settings s with
    | ok x s' => exact (hends.of_ok hs').elim
    | error e s' =>
      obtain ⟨-, he⟩ := hends.of_error hs'
      constructor
      · rintro _ ⟨⟩
        exact ⟨s', by rw [he]⟩
      · rintro cause place s'' ⟨⟩ -
        rw [he]

theorem tracks_requestOf {r' : Registry} (hread : Header.read s.cursor = .ok header c)
    (he : ∀ type, r'.idsOf type = (requestOf settings s header).after.idsOf type) :
    Tracks s.registry (request? settings s).toList r' := by
  rw [request?_of_header hread]
  exact .cons (isAnswered_requestOf hread) (fun _ => rfl) (.nil he)

/-- However reading a declaration ends, the ids that are taken then are those that its request
leaves taken. -/
theorem ends_read_tracks :
    Ends (read settings) s (fun _ s' => Tracks s.registry (request? settings s).toList s'.registry)
      fun _ s' => Tracks s.registry (request? settings s).toList s'.registry := by
  cases hread : Header.read s.cursor with
  | error e c =>
    refine Compilation.ends_peek_bind (Ends.bind_of_error (Compilation.reader_of_error hread) ?_)
    rw [request?_of_error hread]
    exact .nil fun _ => rfl
  | ok header c =>
    have ha : (requestOf settings s header).answer =
      s.registry.claim header.id s.cursor.peek.position :=
        s.registry.instantiateRequest_answer _ _ _
    cases ht : s.registry.active? with
    | none =>
      obtain ⟨e, he⟩ := Registry.claim_of_inactive ht header.id (some s.cursor.peek.position)
      have hafter : (requestOf settings s header).after = s.registry := by
        rw [IdRequest.after, ha, he]
        rfl
      refine (ends_read_of_inactive ht (List.suffix_refl _)).mono (fun _ _ h => h.elim)
        fun _ s' h => ?_
      exact tracks_requestOf hread fun _ => by rw [h.1, hafter]
    | some t =>
      obtain ⟨id, hid⟩ | ⟨n, hn, hmem⟩ :=
        Grammar.TakesId.exists_or_taken (s.registry.idsOf t.name) header.id
      · have hafter : (requestOf settings s header).after = s.registry.withClaim t.name id := by
          rw [IdRequest.after, ha, (Registry.claim_eq_ok ht).mpr ⟨hid, rfl⟩]
        refine (ends_read_of_takes ht hread hid).mono (fun _ s' h => ?_) fun _ s' h => ?_
        · exact tracks_requestOf hread fun _ => by rw [h, hafter]
        · exact tracks_requestOf hread fun _ => by rw [h.1, hafter]
      · have hafter : (requestOf settings s header).after = s.registry := by
          rw [IdRequest.after, ha, (Registry.claim_eq_error ht).mpr ⟨n, hn, hmem, rfl⟩]
          rfl
        refine (ends_read_of_taken ht hread hn hmem).mono (fun _ _ h => h.elim) fun _ s' h => ?_
        exact tracks_requestOf hread fun _ => by rw [h.1, hafter]

theorem ends_readNext_tracks (resources : List Resource) :
    Ends (readNext settings resources) s
      (fun _ s' => Tracks s.registry (request? settings s).toList s'.registry)
      fun _ s' => Tracks s.registry (request? settings s).toList s'.registry := by
  apply Ends.get_bind
  simp only
  split
  case isTrue hstart =>
    apply Ends.bind_of_error rfl
    cases hread : Header.read s.cursor with
    | error e c =>
      rw [request?_of_error hread]
      exact .nil fun _ => rfl
    | ok header c =>
      simp [Header.isAtDeclaration_of_read hread] at hstart
  case isFalse => exact ends_read_tracks.bind fun _ _ h => Ends.pure h

theorem ends_readAll_of_inactive (h : s.registry.active? = none) (hs : s.cursor.stream <:+ tokens) :
    Ends (readAll settings) s (fun resources _ => resources = [])
      fun e _ => e.BlamesToken tokens := by
  refine (Ends.repeatWhile (I := fun resources s' => resources = [] ∧
    s'.registry.active? = none ∧ s'.cursor.stream <:+ tokens) ?_ ⟨rfl, h, hs⟩).imp
      fun _ _ h => h.1.1
  rintro resources s' ⟨rfl, h', hs'⟩ -
  apply Ends.get_bind
  simp only
  split
  case isTrue =>
    exact Ends.bind_of_error rfl (Failure.blamesToken_at _ (hs'.subset s'.cursor.peek_mem_stream))
  case isFalse =>
    exact ((ends_read_of_inactive h' hs').mono (fun _ _ h => h) fun _ _ h => h.2).bind
      fun _ _ h => h.elim

theorem tracks_requests :
    Ends (readAll settings) s (fun _ s' => Tracks s.registry (requests settings s) s'.registry)
      fun _ s' => Tracks s.registry (requests settings s) s'.registry := by
  refine ends_rounds (T := fun s ss s' =>
    Tracks s.registry (ss.filterMap (request? settings)) s'.registry) ?_ ?_ ?_ [] s
  · exact fun s => .nil fun _ => rfl
  · intro s₁ s₂ s₃ xs ys h h'
    rw [List.filterMap_append]
    exact h.append h'
  · intro resources s
    have hsingle : [s].filterMap (request? settings) = (request? settings s).toList := by
      rw [List.filterMap_cons, List.filterMap_nil]
      cases request? settings s <;> rfl
    rw [hsingle]
    exact ends_readNext_tracks resources

end Declaration

end ResourceScript
