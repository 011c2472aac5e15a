import ResourceScript.Json.Basic
import ResourceScript.Proofs.Outcome

namespace ResourceScript

variable {key : String} {value : α} {members added : List (String × α)}

theorem setMember_of_notMem (h : key ∉ members.map Prod.fst) :
    setMember key value members = members ++ [(key, value)] := by
  fun_induction setMember key value members with
  | case1 => rfl
  | case2 v rest => exact absurd List.mem_cons_self h
  | case3 k v rest hk ih => rw [ih (mt (List.mem_cons_of_mem _) h), List.cons_append]

theorem keys_setMember (h : key ∈ members.map Prod.fst) :
    (setMember key value members).map Prod.fst = members.map Prod.fst := by
  fun_induction setMember key value members with
  | case1 => exact absurd h List.not_mem_nil
  | case2 v rest => rfl
  | case3 k v rest hk ih =>
    rw [List.map_cons, List.map_cons, ih]
    exact (List.mem_cons.mp h).resolve_left (Ne.symm hk)

theorem mem_keys_setMember (key key' : String) (value : α) (members : List (String × α)) :
    key' ∈ (setMember key value members).map Prod.fst ↔
      key' ∈ members.map Prod.fst ∨ key' = key := by
  by_cases h : key ∈ members.map Prod.fst
  · rw [keys_setMember h]
    constructor
    · exact .inl
    · rintro (h | rfl) <;> assumption
  · rw [setMember_of_notMem h, List.map_append, List.mem_append, List.map_singleton,
      List.mem_singleton]

theorem lookup_setMember (name key : String) (value : α) (members : List (String × α)) :
    (setMember key value members).lookup name =
      if name = key then some value else members.lookup name := by
  induction members with
  | nil =>
    rw [setMember, List.lookup_cons, List.lookup_nil]
    by_cases hname : name = key
    · simp [hname]
    · simp [hname, beq_eq_false_iff_ne.mpr hname]
  | cons m members ih =>
    obtain ⟨k, v⟩ := m
    rw [setMember]
    by_cases hkey : k = key
    · subst hkey
      rw [if_pos rfl, List.lookup_cons, List.lookup_cons]
      by_cases hname : name = k
      · simp [hname]
      · simp [hname, beq_eq_false_iff_ne.mpr hname]
    · rw [if_neg hkey, List.lookup_cons, List.lookup_cons, ih]
      by_cases hname : name = k
      · simp [hname, hkey]
      · simp [beq_eq_false_iff_ne.mpr hname]

theorem mem_keys_mergeMembers :
    key ∈ (mergeMembers members added).map Prod.fst ↔
      key ∈ members.map Prod.fst ∨ key ∈ added.map Prod.fst := by
  induction added generalizing members with
  | nil => simp [mergeMembers]
  | cons m added ih =>
    rw [List.map_cons, List.mem_cons, ← or_assoc, ← mem_keys_setMember m.1 key m.2]
    exact ih

theorem nodup_setMember (h : (members.map Prod.fst).Nodup) :
    ((setMember key value members).map Prod.fst).Nodup := by
  by_cases hkey : key ∈ members.map Prod.fst
  · rw [keys_setMember hkey]
    exact h
  · rw [setMember_of_notMem hkey]
    exact nodup_map_snoc h hkey

theorem nodup_mergeMembers (h : (members.map Prod.fst).Nodup) :
    ((mergeMembers members added).map Prod.fst).Nodup := by
  induction added generalizing members with
  | nil => exact h
  | cons m added ih => exact ih (nodup_setMember h)

theorem lookup_mergeMembers (h : (added.map Prod.fst).Nodup) (name : String) :
    (mergeMembers members added).lookup name = (added.lookup name).or (members.lookup name) := by
  induction added generalizing members with
  | nil => rfl
  | cons m added ih =>
    obtain ⟨hm, hadded⟩ := List.nodup_cons.mp h
    have hmerge : mergeMembers members (m :: added) =
        mergeMembers (setMember m.1 m.2 members) added := rfl
    rw [hmerge, ih hadded, lookup_setMember, List.lookup_cons]
    by_cases hname : name = m.1
    · have hnone : added.lookup m.1 = none := by
        rw [List.lookup_eq_none_iff]
        intro p hp
        exact bne_iff_ne.mpr (ne_of_mem_of_not_mem (List.mem_map_of_mem hp) hm).symm
      simp [hnone, hname]
    · simp [hname, beq_eq_false_iff_ne.mpr hname]

theorem mergeMembers_of_nodup (h : ((members ++ added).map Prod.fst).Nodup) :
    mergeMembers members added = members ++ added := by
  induction added generalizing members with
  | nil => exact (List.append_nil members).symm
  | cons m added ih =>
    have hm : m.1 ∉ members.map Prod.fst := by
      rw [List.map_append, List.nodup_append] at h
      exact fun hm => h.2.2 _ hm _ List.mem_cons_self rfl
    have hset : setMember m.1 m.2 members = members ++ [m] := setMember_of_notMem hm
    rw [List.append_cons, ← hset] at h ⊢
    exact ih h

theorem mergeMembers_nil_of_nodup (h : (added.map Prod.fst).Nodup) :
    mergeMembers [] added = added :=
  mergeMembers_of_nodup h

end ResourceScript
