import ResourceScript.Proofs.Requests

namespace ResourceScript

/-- A use of a registry. -/
inductive Call where
  | select (name : String)
  | claim (asked : Option Int) (position : Option Position)
  | instantiate (asked : Option Int) (name : Option Text) (position : Option Position)
  | compile (settings : Settings) (source : String) (path : Option String)

namespace Call

/-- The registry after a call, whether it succeeds or fails. -/
def after (r : Registry) : Call → Registry
  | select name => (r.select name).toOption.getD r
  | claim asked position => ((r.claim asked position).toOption.map (·.2)).getD r
  | instantiate asked name position =>
    ((r.instantiate asked name position).toOption.map (·.2)).getD r
  | compile settings source path => (ResourceScript.compile settings r source path).registry

def requests (r : Registry) : Call → List IdRequest
  | select _ => []
  | claim asked position => [r.claimRequest asked position]
  | instantiate asked name position => [r.instantiateRequest asked name position]
  | compile settings source path =>
    match Cursor.ofSource source path with
    | .ok cursor => Declaration.requests settings { cursor, registry := r }
    | .error _ => []

end Call

namespace Registry

def run (r : Registry) (calls : List Call) : Registry :=
  calls.foldl Call.after r

def history (r : Registry) : List Call → List IdRequest
  | [] => []
  | call :: calls => call.requests r ++ (call.after r).history calls

end Registry

/-- A request that is made after those before it were answered. What they were handed out is taken,
and nothing else; an id is refused only for being taken, and no other type is concerned. An id of
too many digits is refused as well, but there is no problem that names it. -/
structure IdRequest.Follows (before : List IdRequest) (q : IdRequest) : Prop where
  taken : ∀ type, q.registry.idsOf type = (handedOut before type).reverse
  anonymous : ∀ t, q.registry.active? = some t → q.asked = none → ∃ id, q.idFor? t.name = some id ∧
    IsLeast {n | 128 ≤ n ∧ n ∉ handedOut before t.name} id
  explicit : ∀ t n, q.registry.active? = some t → q.asked = some n →
    n ∉ handedOut before t.name → q.idFor? t.name = some n
  duplicate : ∀ t n, q.registry.active? = some t → q.asked = some n →
    n ∈ handedOut before t.name →
    (Text.isShown n = true →
      ∃ place, q.answer = .error (.problem (.duplicateId n t.name) place)) ∧
    (Text.isShown n = false → q.answer = .error (.fault .noSuchValue)) ∧
    ∀ type, q.after.idsOf type = q.registry.idsOf type
  others : ∀ type, q.type? ≠ some type → q.after.idsOf type = q.registry.idsOf type
  declaration : ∀ settings s t, q.declaration = some (settings, s) → q.registry.active? = some t →
    ((∃ cause place s', Declaration.read settings s = .error (.problem cause place) s' ∧
        cause.code = "E_DUP_RESOURCE_ID") ↔
      ∃ n, q.asked = some n ∧ n ∈ handedOut before t.name ∧ Text.isShown n = true) ∧
    ∀ n, q.asked = some n → n ∈ handedOut before t.name → Text.isShown n = false →
      ∃ s', Declaration.read settings s = .error (.fault .noSuchValue) s'

variable {r r' : Registry} {q : IdRequest} {before : List IdRequest} {type : String}
  {t : TypeTemplate} {settings : Settings}

namespace IdRequest.IsAnswered

variable {id : Int}

theorem takesId (h : q.IsAnswered) (ht : q.registry.active? = some t)
    (hid : Grammar.TakesId (q.registry.idsOf t.name) q.asked id) :
    ∃ r, q.answer = .ok (id, r) := by
  cases ha : q.answer with
  | ok p =>
    obtain ⟨id', r⟩ := p
    obtain ⟨t', ht', hid', -⟩ := h.granted id' r ha
    obtain rfl := Option.some.inj (ht.symm.trans ht')
    exact ⟨r, by rw [hid'.unique hid]⟩
  | error e =>
    obtain ⟨n, _, hn, hmem, -⟩ := h.refused e t ha ht
    rw [hn] at hid
    exact absurd (hid.1 ▸ hmem) hid.not_mem

theorem answer_eq_error (h : q.IsAnswered) (ht : q.registry.active? = some t)
    (hn : q.asked = some n) (hmem : n ∈ q.registry.idsOf t.name) :
    ∃ place, q.answer = .error (Registry.refusal n t.name place) := by
  cases ha : q.answer with
  | ok p =>
    obtain ⟨id, r⟩ := p
    obtain ⟨t', ht', hid, -⟩ := h.granted id r ha
    obtain rfl := Option.some.inj (ht.symm.trans ht')
    rw [hn] at hid
    exact absurd (hid.1 ▸ hmem) hid.not_mem
  | error e =>
    obtain ⟨m, place, hm, -, rfl⟩ := h.refused e t ha ht
    obtain rfl := Option.some.inj (hm.symm.trans hn)
    exact ⟨place, rfl⟩

theorem idFor?_eq_some (ht : q.registry.active? = some t) (ha : q.answer = .ok (id, r)) :
    q.idFor? t.name = some id := by
  rw [idFor?, type?, ht, ha]
  exact if_pos rfl

theorem idFor?_of_ne (h : q.type? ≠ some type) : q.idFor? type = none := by
  rw [idFor?, if_neg h]

theorem follows (h : q.IsAnswered)
    (htaken : ∀ type, q.registry.idsOf type = (handedOut before type).reverse) :
    q.Follows before := by
  have hmem : ∀ n type, n ∈ q.registry.idsOf type ↔ n ∈ handedOut before type := by
    intro n type
    rw [htaken, List.mem_reverse]
  refine ⟨htaken, ?_, ?_, ?_, ?_, ?_⟩
  · intro t ht hasked
    have hleast := isLeast_leastFree (q.registry.idsOf t.name) firstFreeId
    obtain ⟨r, hr⟩ := h.takesId ht (by rwa [hasked])
    refine ⟨_, idFor?_eq_some ht hr, ?_⟩
    simp only [hmem] at hleast
    exact hleast
  · intro t n ht hasked hn
    have hid : Grammar.TakesId (q.registry.idsOf t.name) q.asked n := by
      rw [hasked]
      exact ⟨rfl, fun hc => hn ((hmem n t.name).mp hc)⟩
    obtain ⟨r, hr⟩ := h.takesId ht hid
    exact idFor?_eq_some ht hr
  · intro t n ht hasked hn
    obtain ⟨place, he⟩ := h.answer_eq_error ht hasked ((hmem n t.name).mpr hn)
    refine ⟨fun hshown => ⟨place, ?_⟩, fun hshown => ?_, fun _ => by rw [after, he]⟩
    · rw [he, Registry.refusal_of_shown hshown]
    · rw [he, Registry.refusal_of_not_shown hshown]
  · intro type hne
    rw [h.idsOf_after, idFor?_of_ne hne]
    rfl
  · intro settings s t hd ht
    obtain ⟨hfails, hanswer⟩ := h.declaration settings s t hd ht
    have hrefused (n : Int) (hn : q.asked = some n) (hc : n ∈ handedOut before t.name) :
        ∃ place s', Declaration.read settings s = .error (Registry.refusal n t.name place) s' := by
      obtain ⟨place, he⟩ := h.answer_eq_error ht hn ((hmem n t.name).mpr hc)
      exact ⟨place, hfails _ he⟩
    refine ⟨⟨?_, ?_⟩, fun n hn hc hshown => ?_⟩
    · rintro ⟨cause, place, s', hs', hcode⟩
      obtain ⟨n, place', hn, hc, he⟩ := h.refused _ t (hanswer cause place s' hs' hcode) ht
      exact ⟨n, hn, (hmem n t.name).mp hc, (Registry.refusal_eq_problem he.symm).1⟩
    · rintro ⟨n, hn, hc, hshown⟩
      obtain ⟨place, s', hs'⟩ := hrefused n hn hc
      rw [Registry.refusal_of_shown hshown] at hs'
      exact ⟨_, place, s', hs', rfl⟩
    · obtain ⟨place, s', hs'⟩ := hrefused n hn hc
      rw [Registry.refusal_of_not_shown hshown] at hs'
      exact ⟨s', hs'⟩

end IdRequest.IsAnswered

theorem idsOf_select (h : r.select name = .ok r') : r'.idsOf type = r.idsOf type := by
  obtain ⟨t, -, h⟩ := Except.bind_eq_ok.mp h
  cases h
  rfl

namespace Call

theorem tracks (r : Registry) (call : Call) : Tracks r (call.requests r) (call.after r) := by
  cases call with
  | select name =>
    refine .nil fun type => ?_
    rw [after]
    cases h : r.select name with
    | ok r' => exact idsOf_select h
    | error e => rfl
  | claim asked position =>
    refine .cons (r.isAnswered_claim asked position) (fun _ => rfl) (.nil fun _ => ?_)
    rw [after, IdRequest.after, Registry.claimRequest]
    cases r.claim asked position <;> rfl
  | instantiate asked name position =>
    refine .cons (r.isAnswered_instantiate asked name position) (fun _ => rfl) (.nil fun _ => ?_)
    rw [after, IdRequest.after, Registry.instantiateRequest]
    cases r.instantiate asked name position <;> rfl
  | compile settings source path =>
    rw [after, requests, ResourceScript.compile]
    cases Cursor.ofSource source path with
    | error e => exact .nil fun _ => rfl
    | ok cursor =>
      have hends : Ends (Declaration.readAll settings) { cursor, registry := r } _ _ :=
        Declaration.tracks_requests
      simp only
      cases hread : Declaration.readAll settings { cursor, registry := r } with
      | ok resources s => exact hends.of_ok hread
      | error e s => exact hends.of_error hread

end Call

theorem ids_of_compile {source : String} {path : Option String} {resources : List Resource}
    (h : (compile settings r source path).result = .ok resources)
    (ht : r.active? = some t) :
    resources.map (·.id) = handedOut ((Call.compile settings source path).requests r) t.name := by
  obtain ⟨c, s, -, hread, hregistry⟩ := readAll_of_compile h
  have hready : Declaration.Ready { cursor := c, registry := r } t c.stream :=
    ⟨ht, List.suffix_refl _⟩
  obtain ⟨-, -, -, -, hclaims⟩ := (Declaration.ends_readAll hready).of_ok hread
  have hids := congrArg (·.idsOf t.name) hclaims
  rw [Registry.idsOf_withResources] at hids
  have htracks := (Call.compile settings source path).tracks r
  rw [Call.after, hregistry] at htracks
  exact List.reverse_injective (List.append_cancel_right (hids.symm.trans (htracks.idsOf t.name)))

theorem resources_eq_nil_of_inactive {source : String} {path : Option String}
    {resources : List Resource} (h : (compile settings r source path).result = .ok resources)
    (ht : r.active? = none) : resources = [] := by
  obtain ⟨c, s, -, hread, -⟩ := readAll_of_compile h
  exact (Declaration.ends_readAll_of_inactive ht (List.suffix_refl _)).of_ok hread

namespace Registry

theorem tracks_history (r : Registry) (calls : List Call) :
    Tracks r (r.history calls) (r.run calls) := by
  induction calls generalizing r with
  | nil => exact .nil fun _ => rfl
  | cons call calls ih => exact (call.tracks r).append (ih (call.after r))

theorem claims_ofTypes {types : List TypeTemplate} {name : Option String}
    (h : ofTypes types name = .ok r) : r.claims = [] := by
  unfold ofTypes at h
  split at h
  · cases h
  · split at h
    · obtain ⟨t, -, h⟩ := Except.bind_eq_ok.mp h
      cases h
      rfl
    · split at h <;> cases h <;> rfl

/-- Over all that is done with a registry, no id is handed out twice for a type, what is handed out
is what is taken, and each request is answered as those before it leave it. The resources of a
script have the ids that it was handed out. -/
theorem ofTypes_hands_out {types : List TypeTemplate} {name : Option String} {r : Registry}
    (h : ofTypes types name = .ok r) (calls : List Call) :
    (∀ type, (handedOut (r.history calls) type).Nodup) ∧
    (∀ type, (r.run calls).idsOf type = (handedOut (r.history calls) type).reverse) ∧
    (∀ before q later, r.history calls = before ++ q :: later → q.Follows before) ∧
    ∀ settings source path resources,
      (compile settings (r.run calls) source path).result = .ok resources →
        (resources.map (·.id)).Nodup ∧ ∀ t, (r.run calls).active? = some t → resources.map (·.id) =
          handedOut ((Call.compile settings source path).requests (r.run calls)) t.name := by
  have hempty : ∀ type, r.idsOf type = [] := fun type => by rw [idsOf, claims_ofTypes h]; rfl
  have hids : ∀ type, (r.run calls).idsOf type = (handedOut (r.history calls) type).reverse := by
    intro type
    rw [(r.tracks_history calls).idsOf, hempty, List.append_nil]
  have hhandedOut : ∀ type, (handedOut (r.history calls) type).Nodup := by
    intro type
    have hn : ((r.run calls).idsOf type).Nodup :=
      (r.tracks_history calls).nodup (by rw [hempty]; exact List.nodup_nil)
    rwa [hids, List.nodup_reverse] at hn
  refine ⟨hhandedOut, hids, fun before q later hsplit => ?_, ?_⟩
  · have htracks := r.tracks_history calls
    rw [hsplit] at htracks
    obtain ⟨hq, htaken⟩ := htracks.split
    exact hq.follows fun type => by rw [htaken, hempty, List.append_nil]
  · intro settings source path resources hcompile
    refine ⟨?_, fun t ht => ids_of_compile hcompile ht⟩
    cases ht : (r.run calls).active? with
    | none =>
      rw [resources_eq_nil_of_inactive hcompile ht]
      exact List.nodup_nil
    | some t =>
      have htracks := (Call.compile settings source path).tracks (r.run calls)
      have hn : ((r.run calls).idsOf t.name).Nodup := by
        rw [hids]
        exact List.nodup_reverse.mpr (hhandedOut t.name)
      have hn := htracks.nodup hn
      rw [htracks.idsOf] at hn
      rw [ids_of_compile hcompile ht]
      exact List.nodup_reverse.mp hn.of_append_left

theorem history_claim_again {n : Int} (hn : Text.isShown n = false) :
    handedOut (Sample.registry.history [.claim (some n) none]) "Note" = [n] ∧
      (Sample.registry.run [.claim (some n) none]).claim (some n) none =
        .error (.fault .noSuchValue) := by
  have ht : Sample.registry.active? = some Sample.note := rfl
  have hclaim : Sample.registry.claim (some n) none = .ok (n, Sample.registry.withClaim "Note" n) :=
    (claim_eq_ok ht).mpr ⟨⟨rfl, List.not_mem_nil⟩, rfl⟩
  have hrun : Sample.registry.run [.claim (some n) none] = Sample.registry.withClaim "Note" n := by
    rw [run, List.foldl_cons, List.foldl_nil, Call.after, hclaim]
    rfl
  have hids := idsOf_withClaim_self Sample.registry "Note" n
  constructor
  · have htracks := (Sample.registry.tracks_history [.claim (some n) none]).idsOf "Note"
    rw [hrun, hids, show Sample.registry.idsOf "Note" = [] from rfl, List.append_nil] at htracks
    exact List.reverse_eq_iff.mp htracks.symm
  · have htaken : n ∈ (Sample.registry.withClaim "Note" n).idsOf "Note" :=
      hids ▸ List.mem_cons_self
    rw [hrun, ← refusal_of_not_shown hn "Note" none]
    exact (claim_eq_error (r := Sample.registry.withClaim "Note" n) ht).mpr ⟨n, rfl, htaken, rfl⟩

def Sample.longId : Int := (10 ^ Text.decimalLimit : Nat)

theorem Sample.isShown_longId : Text.isShown longId = false := by
  rw [← Bool.not_eq_true, Text.isShown_iff, longId]
  generalize Text.decimalLimit = limit
  exact Nat.lt_irrefl _

/-- A long id that is asked for once more is refused without a problem that names it. -/
theorem claim_long_id_again :
    handedOut (Sample.registry.history [.claim (some Sample.longId) none]) "Note" =
        [Sample.longId] ∧
      (Sample.registry.run [.claim (some Sample.longId) none]).claim (some Sample.longId) none =
        .error (.fault .noSuchValue) :=
  history_claim_again Sample.isShown_longId

/-- Requests of every kind, one of them by a declaration whose body fails. -/
def Sample.calls : List Call :=
  [.claim none none, .instantiate (some 200) none none, .select "Memo", .claim (some 128) none,
    .compile Sample.settings "new (#129) \x7b rank = 70000; \x7d" none, .claim none none]

theorem ofTypes_hands_out_sample :
    (handedOut (Sample.registry.history Sample.calls) "Note").Nodup ∧
      (Sample.registry.run Sample.calls).idsOf "Note" = [130, 129, 200, 128] := by
  have h : ofTypes [Sample.note] none = .ok Sample.registry := rfl
  obtain ⟨hnodup, hids, -, -⟩ := ofTypes_hands_out h Sample.calls
  exact ⟨hnodup "Note", (hids "Note").trans (by decide +kernel)⟩

end Registry

end ResourceScript
