import Mathlib.Data.List.Nodup
import ResourceScript.Proofs.Drafts
import ResourceScript.Proofs.Values

namespace ResourceScript

variable {a : Assignment} {slot : Slot} {slots : List Slot} {tokens : List Token} {c : Cursor}
  {s : Session} {d : Directive} {id : Int} {name : Option Text} {values : List (String × Value)}
  {settings : Settings} {t : TypeTemplate}

namespace Directive

theorem mem_slots {f : FieldTemplate} (h : slot ∈ d.slots f) : slot ∈ f.slots := by
  cases d with
  | positional => exact h
  | _ =>
    obtain rfl := List.mem_singleton.mp h
    exact List.mem_cons_self

theorem ofField_of_ok {f : FieldTemplate} (h : ofField f p = .ok d) (q : Option Position) :
    ofField f q = .ok d := by
  unfold ofField at h ⊢
  split at h
  case h_1 => exact h
  case h_2 =>
    split at h
    case isTrue hr => rwa [if_pos hr]
    case isFalse hr =>
      rw [if_neg hr]
      split at h
      case h_1 => exact h
      case h_2 => simp at h

theorem explained_ofField {f : FieldTemplate} {token : Token} (ht : token ∈ tokens)
    (h : ofField f (some token.position) = .error e) :
    Failure.Explained settings t tokens e ∧ e.HasPlace := by
  unfold ofField at h
  split at h
  · simp at h
  · split at h
    · simp at h
    · split at h
      · simp at h
      · cases h
        exact ⟨.at_token rfl ht, rfl⟩

end Directive

namespace Assignment

theorem ends_store (hf : a.field ∈ a.type.fields) (hslot : slot ∈ a.field.slots)
    (hc : s.cursor.stream <:+ tokens) :
    Ends (a.store d (a.type.draft id name values) slot) s
      (fun draft s' => ∃ ts v, s.Moves ts s' ∧
        Grammar.SlotValue a.settings a.type a.field slot d ts v ∧
        v.Admissible (a.typeOf slot) ∧ slot.name ∉ values.map (·.1) ∧
        draft = a.type.draft id name (values ++ [(slot.name, v)]))
      (s.FailsBy a.settings a.type tokens) := by
  apply (ends_value hf hslot hc d).bind
  rintro v s' ⟨⟨ts, hc', hv, ha⟩, hr⟩
  have hm : s.Moves ts s' := ⟨hc', hr⟩
  by_cases hn : slot.name ∈ values.map (·.1)
  · have hput : (a.type.draft id name values).put slot (a.typeOf slot) v = _ :=
      TypeTemplate.put_draft_again hn
    rw [hput]
    exact Compilation.ends_error ⟨.anywhere rfl, hm.registry⟩
  · have hput : (a.type.draft id name values).put slot (a.typeOf slot) v = _ :=
      TypeTemplate.put_draft ha hn
    rw [hput]
    exact Compilation.ends_ok ⟨ts, v, hm, hv, ha, hn, rfl⟩

theorem store_of_moves (h : s.cursor.Moves ts c)
    (hv : Grammar.SlotValue a.settings a.type a.field slot d ts v)
    (ha : v.Admissible (a.typeOf slot)) (hk : d = .bitmask → c.peek.kind = .semicolon)
    (hn : slot.name ∉ values.map (·.1)) (id : Int) (name : Option Text) :
    ∃ journal, a.store d (a.type.draft id name values) slot s =
      .ok (a.type.draft id name (values ++ [(slot.name, v)])) { s with cursor := c, journal } := by
  obtain ⟨journal, hj⟩ := value_of_moves h hv ha hk
  refine ⟨journal, ?_⟩
  rw [store, bind_of_ok _ hj]
  exact Compilation.ofExcept_of_ok (TypeTemplate.put_draft ha hn)

theorem ends_stores (hf : a.field ∈ a.type.fields)
    (hslots : ∀ slot ∈ slots, slot ∈ a.field.slots) (hc : s.cursor.stream <:+ tokens) :
    Ends (slots.foldlM (a.store d) (a.type.draft id name values)) s
      (fun draft s' => ∃ ts vs, s.Moves ts s' ∧
        Grammar.SlotValues a.settings a.type a.field d slots ts vs ∧
        ((values.map (·.1)).Nodup → ((values ++ vs).map (·.1)).Nodup) ∧
        draft = a.type.draft id name (values ++ vs))
      (s.FailsBy a.settings a.type tokens) := by
  induction slots generalizing s values with
  | nil => exact Ends.pure ⟨[], [], .refl s, .nil, by simp, by simp⟩
  | cons slot slots ih =>
    obtain ⟨hslot, hslots⟩ := List.forall_mem_cons.mp hslots
    rw [List.foldlM_cons]
    apply (ends_store hf hslot hc).bind
    rintro _ s₁ ⟨ts, v, hm, hv, ha, hn, rfl⟩
    refine (ih hslots (hm.cursor.suffix hc)).mono ?_ fun e s' he => he.after hm.registry
    rintro _ s' ⟨us, vs, hm', hvs, hnodup, rfl⟩
    refine ⟨ts ++ us, (slot.name, v) :: vs, hm.trans hm', .cons hv ha hvs, fun hvalues => ?_, ?_⟩
    · rw [List.append_cons]
      exact hnodup (nodup_map_snoc hvalues hn)
    · rw [List.append_assoc, List.singleton_append]

theorem stores_of_moves (hv : Grammar.SlotValues a.settings a.type a.field d slots ts vs)
    (h : s.cursor.Moves ts c) (hn : ((values ++ vs).map (·.1)).Nodup)
    (hk : d = .bitmask → slots.tail = [] ∧ c.peek.kind = .semicolon) (id : Int)
    (name : Option Text) :
    ∃ journal, slots.foldlM (a.store d) (a.type.draft id name values) s =
      .ok (a.type.draft id name (values ++ vs)) { s with cursor := c, journal } := by
  induction hv generalizing s values with
  | nil =>
    exact ⟨s.journal, by rw [h.eq_of_nil, List.append_nil]; rfl⟩
  | @cons ts v slots us vs slot hv ha hvs ih =>
    obtain ⟨c₁, h₁, h₂⟩ := h.split
    have hn' : slot.name ∉ values.map (·.1) := by
      rw [List.map_append, List.nodup_append] at hn
      exact fun hmem => hn.2.2 _ hmem slot.name (by simp) rfl
    have hk₁ (hd : d = .bitmask) : c₁.peek.kind = .semicolon := by
      obtain ⟨rfl, hp⟩ : slots = [] ∧ c.peek.kind = .semicolon := hk hd
      cases hvs
      rwa [h₂.eq_of_nil] at hp
    obtain ⟨j₁, hj₁⟩ := store_of_moves h₁ hv ha hk₁ hn' id name
    rw [List.append_cons] at hn ⊢
    obtain ⟨j₂, hj₂⟩ := ih (s := { s with cursor := c₁, journal := j₁ }) h₂ hn fun hd =>
      ⟨by rw [show slots = [] from (hk hd).1]; rfl, (hk hd).2⟩
    exact ⟨j₂, by rw [List.foldlM_cons, bind_of_ok _ hj₁, hj₂]⟩

theorem ends_run (hf : a.field ∈ a.type.fields) (hname : a.name ∈ tokens)
    (hc : s.cursor.stream <:+ tokens) :
    Ends (a.run (a.type.draft id name values)) s
      (fun draft s' => ∃ d ts vs, Directive.ofField a.field none = .ok d ∧ s.Moves ts s' ∧
        Grammar.SlotValues a.settings a.type a.field d (d.slots a.field) ts vs ∧
        ((values.map (·.1)).Nodup → ((values ++ vs).map (·.1)).Nodup) ∧
        draft = a.type.draft id name (values ++ vs))
      (s.FailsAt a.settings a.type tokens) := by
  refine Compilation.ends_peek_bind (Ends.bind (Compilation.ends_ofExcept
    (P := fun d s' => Directive.ofField a.field none = .ok d ∧ s = s') ?_ fun e he => ?_) ?_)
  · exact fun d hd => ⟨Directive.ofField_of_ok hd none, rfl⟩
  · obtain ⟨he, hp⟩ := Directive.explained_ofField (hc.subset s.cursor.peek_mem_stream) he
    exact ⟨⟨he, rfl⟩, hp⟩
  · rintro d _ ⟨hd, rfl⟩
    apply Ends.bind (Compilation.ends_note (P := fun _ s' => s.Moves [] s') ⟨.refl _, rfl⟩)
    rintro _ s₁ hm
    apply Compilation.ends_locating
    refine (ends_stores hf (fun _ => Directive.mem_slots) (hm.cursor.suffix hc)).mono ?_ ?_
    · rintro draft s' ⟨ts, vs, hm', h⟩
      exact ⟨d, ts, vs, hd, hm.trans hm', h⟩
    · exact fun e s' he => (he.after hm.registry).locate hname

theorem run_of_moves (hd : Directive.ofField a.field none = .ok d)
    (hv : Grammar.SlotValues a.settings a.type a.field d (d.slots a.field) ts vs)
    (h : s.cursor.Moves ts c) (hn : ((values ++ vs).map (·.1)).Nodup)
    (hk : c.peek.kind = .semicolon) (id : Int) (name : Option Text) :
    ∃ journal, a.run (a.type.draft id name values) s =
      .ok (a.type.draft id name (values ++ vs)) { s with cursor := c, journal } := by
  have hslots (hb : d = .bitmask) : (d.slots a.field).tail = [] := by
    rw [hb]
    rfl
  obtain ⟨journal, hj⟩ := stores_of_moves
    (s := { s with journal := s.journal ++ [text s!"field {a.name.text}: directive={d.name}"] })
    hv h hn (fun hb => ⟨hslots hb, hk⟩) id name
  refine ⟨journal, ?_⟩
  rw [run, bind_of_ok _ Compilation.peek_eq,
    bind_of_ok _ (Compilation.ofExcept_of_ok (Directive.ofField_of_ok hd _))]
  exact Compilation.locating_of_ok hj

end Assignment

end ResourceScript
