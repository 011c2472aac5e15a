import ResourceScript.Proofs.Grammar
import ResourceScript.Proofs.Outcome
import ResourceScript.Resource.Declaration

namespace ResourceScript

open Grammar (TakesId)

theorem isLeast_leastFree (taken : List Int) (n : Int) :
    IsLeast {m | n ≤ m ∧ m ∉ taken} (leastFree taken n) := by
  fun_induction leastFree taken n with
  | case1 taken n hn ih =>
    obtain ⟨⟨hle, hfree⟩, hleast⟩ := ih
    refine ⟨⟨by omega, fun h => hfree ?_⟩, fun m hm => hleast ?_⟩
    · exact (List.mem_erase_of_ne (by omega)).mpr h
    · obtain ⟨hnm, hm⟩ := hm
      have hne : m ≠ n := fun h => hm (h ▸ hn)
      exact ⟨by omega, fun h => hm (List.mem_of_mem_erase h)⟩
  | case2 taken n hn => exact ⟨⟨Int.le_refl n, hn⟩, fun m hm => hm.1⟩

namespace Grammar.TakesId

variable {taken : List Int} {asked : Option Int} {id id' : Int}

theorem not_mem (h : TakesId taken asked id) : id ∉ taken := by
  cases asked with
  | none => exact h.1.2
  | some n => exact h.1 ▸ h.2

theorem unique (h : TakesId taken asked id) (h' : TakesId taken asked id') : id = id' := by
  cases asked with
  | none => exact IsLeast.unique h h'
  | some n => exact h.1.trans h'.1.symm

theorem exists_or_taken (taken : List Int) (asked : Option Int) :
    (∃ id, TakesId taken asked id) ∨ ∃ n, asked = some n ∧ n ∈ taken := by
  cases asked with
  | none => exact .inl ⟨_, isLeast_leastFree taken firstFreeId⟩
  | some n =>
    by_cases hn : n ∈ taken
    · exact .inr ⟨n, rfl, hn⟩
    · exact .inl ⟨n, rfl, hn⟩

end Grammar.TakesId

namespace Registry

variable {r r' : Registry} {t : TypeTemplate} {asked : Option Int} {id : Int}
  {position : Option Position}

theorem active_eq_ok : r.active = .ok t ↔ r.active? = some t := by
  rw [active]
  cases r.active? <;> simp

theorem idsOf_withClaim_self (r : Registry) (type : String) (id : Int) :
    (r.withClaim type id).idsOf type = id :: r.idsOf type := by
  simp [idsOf, withClaim]

theorem idsOf_withClaim_of_ne (r : Registry) {type other : String} (id : Int) (h : other ≠ type) :
    (r.withClaim type id).idsOf other = r.idsOf other := by
  simp [idsOf, withClaim, Ne.symm h]

theorem refusal_eq_problem {type : String} {cause : Problem} {place : Option Position}
    (h : refusal id type position = .problem cause place) :
    Text.isShown id = true ∧ cause = .duplicateId id type ∧ place = position := by
  cases hid : Text.isShown id with
  | true =>
    rw [refusal_of_shown hid] at h
    cases h
    exact ⟨rfl, rfl, rfl⟩
  | false =>
    rw [refusal_of_not_shown hid] at h
    cases h

theorem claim_eq_ok (h : r.active? = some t) : r.claim asked position = .ok (id, r') ↔
    TakesId (r.idsOf t.name) asked id ∧ r' = r.withClaim t.name id := by
  have hleast := isLeast_leastFree (r.idsOf t.name) firstFreeId
  rw [claim, active_eq_ok.mpr h, Except.bind_eq_ok]
  simp only [Except.ok.injEq, exists_eq_left']
  cases asked with
  | none =>
    constructor
    · rintro ⟨⟩
      exact ⟨hleast, rfl⟩
    · rintro ⟨hid, rfl⟩
      rw [hleast.unique hid]
      rfl
  | some n =>
    by_cases hn : n ∈ r.idsOf t.name
    · simp only [hn, if_true, TakesId, not_true_eq_false, and_false, false_and, reduceCtorEq]
    · simp only [hn, if_false, TakesId, not_false_eq_true, and_true]
      constructor
      · rintro ⟨⟩
        exact ⟨rfl, rfl⟩
      · rintro ⟨rfl, rfl⟩
        rfl

theorem claim_eq_error (h : r.active? = some t) : r.claim asked position = .error e ↔
    ∃ n, asked = some n ∧ n ∈ r.idsOf t.name ∧ e = refusal n t.name position := by
  rw [claim, active_eq_ok.mpr h, Except.bind_eq_error]
  cases asked with
  | none => simp [pure, Except.pure]
  | some n =>
    by_cases hn : n ∈ r.idsOf t.name
    · simp [hn, eq_comm]
    · simp [hn, pure, Except.pure]

theorem instantiate_of_takes (h : r.active? = some t)
    (hid : TakesId (r.idsOf t.name) asked id) (name : Option Text) :
    r.instantiate asked name position =
      .ok (.ofTemplate t id (name.getD []), r.withClaim t.name id) := by
  have hclaim : r.claim asked position = .ok (id, r.withClaim t.name id) :=
    (claim_eq_ok h).mpr ⟨hid, rfl⟩
  rw [instantiate, active_eq_ok.mpr h, Except.bind_eq_ok]
  exact ⟨t, rfl, by rw [hclaim]; rfl⟩

theorem instantiate_of_taken (h : r.active? = some t) (hn : asked = some n)
    (hmem : n ∈ r.idsOf t.name) (name : Option Text) :
    r.instantiate asked name position = .error (refusal n t.name position) := by
  have hclaim : r.claim asked position = .error (refusal n t.name position) :=
    (claim_eq_error h).mpr ⟨n, hn, hmem, rfl⟩
  rw [instantiate, active_eq_ok.mpr h, Except.bind_eq_error]
  exact .inr ⟨t, rfl, by rw [hclaim]; rfl⟩

theorem active_of_inactive (h : r.active? = none) :
    r.active = .error (Problem.noTypeSelected r.knownNames).anywhere := by
  rw [active, h]

end Registry

end ResourceScript
