import ResourceScript.Proofs.Grammar

namespace ResourceScript

variable {t : TypeTemplate} {values : List (String × Value)} {v : Value} {slot : Slot}
  {name : Option Text} {id : Int}

namespace TypeTemplate

def draft (t : TypeTemplate) (id : Int) (name : Option Text) (values : List (String × Value)) :
    Draft :=
  { Draft.ofTemplate t id (name.getD []) with
    written := values.map fun p => (p.1, (t.typeOf p.1).encode p.2) }

theorem slots_draft : (t.draft id name values).slots = values.map (·.1) := by
  rw [draft, Draft.slots, List.map_map]
  rfl

theorem exists_entry (h : t.typeOf n ≠ .unknown) :
    ∃ e ∈ t.entries, e.name = n ∧ e.type = t.typeOf n := by
  rw [typeOf] at h ⊢
  cases he : t.entry? n with
  | none => simp [he] at h
  | some e =>
    have hn := List.find?_some he
    exact ⟨e, List.mem_of_find?_eq_some he, by simpa using hn, rfl⟩

theorem put_draft (ha : v.Admissible (t.typeOf slot.name)) (hn : slot.name ∉ values.map (·.1)) :
    (t.draft id name values).put slot (t.typeOf slot.name) v =
      .ok (t.draft id name (values ++ [(slot.name, v)])) := by
  have hc : (t.draft id name values).closed = false := rfl
  simp only [Draft.put, Draft.write.eq_def, hc, Bool.false_eq_true, slots_draft, hn, if_false,
    ValueType.write_of_admissible ha, Except.map]
  simp only [draft, List.map_append, List.map_cons, List.map_nil]
  rfl

theorem put_draft_again (hn : slot.name ∈ values.map (·.1)) :
    (t.draft id name values).put slot (t.typeOf slot.name) v =
      .error (Problem.duplicateValue slot.name).anywhere := by
  have hc : (t.draft id name values).closed = false := rfl
  simp only [Draft.put, Draft.write.eq_def, hc, Bool.false_eq_true, slots_draft, hn, if_false,
    if_true, Except.map]

theorem lookup_written (values : List (String × Value)) (n : String) :
    (values.map fun p => (p.1, (t.typeOf p.1).encode p.2)).lookup n =
      (values.lookup n).map (t.typeOf n).encode := by
  induction values with
  | nil => rfl
  | cons p values ih =>
    obtain ⟨m, v⟩ := p
    rw [List.map_cons, List.lookup_cons, List.lookup_cons, ih]
    by_cases hm : n = m
    · simp [hm]
    · simp [beq_eq_false_iff_ne.mpr hm]

theorem bytesOf_draft (e : Entry) : (t.draft id name values).bytesOf e = t.bytesOf values e := by
  rw [Draft.bytesOf, draft, lookup_written, bytesOf]
  cases values.lookup e.name <;> rfl

theorem assemble_draft (h : ∀ p ∈ values, p.2.Admissible (t.typeOf p.1)) :
    (t.draft id name values).assemble = .ok (t.resource id name values) := by
  have hc : (t.draft id name values).closed = false := rfl
  have hp : (t.draft id name values).unplaced = [] := by
    rw [Draft.unplaced, slots_draft, List.filter_eq_nil_iff.mpr, List.mergeSort_nil]
    intro n hn
    obtain ⟨p, hp, rfl⟩ := List.mem_map.mp hn
    obtain ⟨e, he, hname, -⟩ := exists_entry (t := t) (n := p.1) fun hu => by
      have ha := h p hp
      rw [hu] at ha
      cases hv : p.2 <;> simp [hv, Value.Admissible] at ha
    have hl : p.1 ∈ (t.draft id name values).layout.map (·.name) :=
      List.mem_map.mpr ⟨e, he, hname⟩
    simpa using hl
  rw [Draft.assemble, hc, hp, resource, slots_draft]
  simp only [Bool.false_eq_true, if_false, List.isEmpty_nil, if_true, funext bytesOf_draft]
  rfl

end TypeTemplate

end ResourceScript
