import Mathlib.Data.List.Forall2
import Mathlib.Data.List.Nodup
import Mathlib.Data.List.Perm.Subperm
import ResourceScript.Proofs.Outcome
import ResourceScript.Template.Load

namespace Except

variable {xs : List α}

theorem exists_of_mem_right {R : α → β → Prop} (h : List.Forall₂ R xs ys) (hy : y ∈ ys) :
    ∃ x ∈ xs, R x y := by
  induction h with
  | nil => cases hy
  | @cons x _ xs _ hx _ ih =>
    cases hy with
    | head => exact ⟨x, List.mem_cons_self, hx⟩
    | tail _ hy =>
      obtain ⟨x', hx', hr⟩ := ih hy
      exact ⟨x', List.mem_cons_of_mem x hx', hr⟩

theorem forall₂_of_mapM {f : α → Except ε β} (h : xs.mapM f = .ok ys) :
    List.Forall₂ (fun x y => f x = .ok y) xs ys := by
  induction xs generalizing ys with
  | nil =>
    rw [List.mapM_nil] at h
    cases h
    exact .nil
  | cons x xs ih =>
    rw [List.mapM_cons] at h
    obtain ⟨y, hy, h⟩ := bind_eq_ok.mp h
    obtain ⟨ys, hys, h⟩ := bind_eq_ok.mp h
    cases h
    exact .cons hy (ih hys)

theorem forall₂_of_foldlM {f : List β → α → Except ε (List β)} {R : α → β → Prop} {ys : List β}
    (hf : ∀ ys x ys', f ys x = .ok ys' → ∃ y, R x y ∧ ys' = ys ++ [y])
    (h : xs.foldlM f ys = .ok ys') : ∃ zs, ys' = ys ++ zs ∧ List.Forall₂ R xs zs := by
  induction xs generalizing ys with
  | nil =>
    obtain rfl : ys = ys' := Except.ok.inj h
    exact ⟨[], (List.append_nil ys).symm, .nil⟩
  | cons x xs ih =>
    rw [List.foldlM_cons] at h
    obtain ⟨ys₁, h₁, h⟩ := bind_eq_ok.mp h
    obtain ⟨y, hy, rfl⟩ := hf ys x ys₁ h₁
    obtain ⟨zs, rfl, hzs⟩ := ih h
    exact ⟨y :: zs, by rw [List.append_assoc]; rfl, .cons hy hzs⟩

end Except

namespace ResourceScript

open TypeTemplate (Members)

/-- A member of a configuration that is there, is not null and has a text other than the empty one.
-/
def Document.HasText (parts : Parts) (members : Members) (key s : String) : Prop :=
  ∃ d, member? members key = some d ∧ d ≠ .null ∧ d ≠ .text "" ∧ d.shown parts = .ok s

/-- The members that a document stands for: its own, or a name if it is a text. -/
def Document.StandsFor (parts : Parts) (d : Document) (members : Members) : Prop :=
  (∃ s, d = .text s ∧ members = [(.text "name", .text s)]) ∨ d.whole parts = .map members

/-- The value of a constant is what a document holds: an integer that is no truth value, or a text.
-/
def SymbolValue.IsOf : SymbolValue → Document → Prop
  | integer n, d => d = .int n
  | text s, d => d = .text s

/-- The constants that a slot is given: none, or those of a map of integers and texts. -/
inductive Slot.HasSymbols (parts : Document.Parts) (s : Slot) : Option Document → Prop where
  | absent : s.symbols = [] → HasSymbols parts s none
  | null : s.symbols = [] → HasSymbols parts s (some .null)
  | map : d.whole parts = .map members → (∀ m ∈ members, ∃ v : SymbolValue, v.IsOf m.2) →
      (∀ p ∈ s.symbols, ∃ m ∈ members, m.1.shown parts = .ok p.1 ∧ p.2.IsOf m.2) →
      HasSymbols parts s (some d)

/-- The entry that an item of a configuration describes. -/
def Entry.DescribedBy (parts : Document.Parts) (item : Document) (e : Entry) : Prop :=
  ∃ members typeName, item.whole parts = .map members ∧
    Document.HasText parts members "name" e.name ∧
    Document.HasText parts members "type" typeName ∧ ValueType.ofName? typeName = some e.type

/-- The slot that an item of a configuration describes, one of the entries. -/
def Slot.DescribedBy (parts : Document.Parts) (entries : List Entry) (item : Document) (s : Slot) :
    Prop :=
  ⟨s.name, s.type⟩ ∈ entries ∧ ∃ members, Document.StandsFor parts item members ∧
    Document.HasText parts members "name" s.name ∧
    s.HasSymbols parts (Document.member? members "symbols")

/-- The field that an item of a configuration describes. Without values it has the slot of its own
name. -/
def FieldTemplate.DescribedBy (parts : Document.Parts) (entries : List Entry) (item : Document)
    (f : FieldTemplate) : Prop :=
  ∃ members values, Document.StandsFor parts item members ∧
    Document.HasText parts members "name" f.name ∧
    TypeTemplate.elementsOf parts members "values" = .ok values ∧
    List.Forall₂ (Slot.DescribedBy parts entries)
      (if values.isEmpty then [.text f.name] else values) f.slots

/-- The type that the members of a map describe. -/
structure TypeTemplate.DescribedBy (parts : Document.Parts) (members : Members) (t : TypeTemplate) :
    Prop where
  name : Document.HasText parts members "name" t.name
  code : ((Document.member? members "code").getD (.text t.name)).shown parts = .ok t.code
  entries : ∃ items, elementsOf parts members "template" = .ok items ∧
    List.Forall₂ (Entry.DescribedBy parts) items t.entries
  fields : ∃ items, elementsOf parts members "fields" = .ok items ∧
    List.Forall₂ (FieldTemplate.DescribedBy parts t.entries) items t.fields

namespace TypeTemplate

def HasDistinctEntries (entries : List Entry) : Prop :=
  (entries.map (·.name)).Nodup

variable {parts : Document.Parts} {members : Members} {entries entries' : List Entry}
  {fields fields' : List FieldTemplate} {t : TypeTemplate} {e : Entry}

theorem required_eq_ok (h : required members key place = .ok d) :
    Document.member? members key = some d ∧ d ≠ .null ∧ d ≠ .text "" := by
  unfold required at h
  split at h
  · cases h
  · cases h
  case h_3 s hs =>
    split at h
    · cases h
    case isFalse hne =>
      cases h
      refine ⟨hs, nofun, fun heq => ?_⟩
      rw [Document.text.inj heq] at hne
      exact hne rfl
  case h_4 hnull htext hd =>
    cases h
    exact ⟨hd, hnull, htext ""⟩

theorem nameOf_eq_ok : nameOf parts d = .ok s ↔ d.shown parts = .ok s :=
  Except.mapError_eq_ok

theorem hasText_of_required (hd : required members key place = .ok d)
    (hs : nameOf parts d = .ok s) : Document.HasText parts members key s := by
  obtain ⟨hmember, hnull, hempty⟩ := required_eq_ok hd
  exact ⟨d, hmember, hnull, hempty, nameOf_eq_ok.mp hs⟩

theorem membersOr_eq_ok (h : membersOr parts flaw d = .ok members) :
    d.whole parts = .map members := by
  unfold membersOr at h
  split at h
  case h_1 hmap =>
    cases h
    exact hmap
  · cases h

theorem standsFor_of_nameOrMembers (h : nameOrMembers parts flaw d = .ok members) :
    Document.StandsFor parts d members := by
  unfold nameOrMembers at h
  split at h
  case h_1 s =>
    cases h
    exact .inl ⟨s, rfl, rfl⟩
  case h_2 => exact .inr (membersOr_eq_ok h)

theorem isOf_of_symbolValue {key : Document} (h : symbolValue parts place key d = .ok value) :
    value.IsOf d := by
  unfold symbolValue at h
  split at h
  · cases h
    rfl
  · cases h
    rfl
  · obtain ⟨_, -, h⟩ := Except.bind_eq_ok.mp h
    cases h

theorem hasSymbols_of_symbolsOfMembers {s : Slot}
    (h : symbolsOfMembers parts place found = .ok s.symbols) : s.HasSymbols parts found := by
  unfold symbolsOfMembers at h
  split at h
  · exact .absent (Except.ok.inj h).symm
  · exact .null (Except.ok.inj h).symm
  case h_3 d _ =>
    obtain ⟨members, hmembers, h⟩ := Except.bind_eq_ok.mp h
    apply Slot.HasSymbols.map (membersOr_eq_ok hmembers)
    · intro m hm
      obtain ⟨_, _, hstep⟩ := Except.exists_step_of_foldlM h hm
      obtain ⟨value, hvalue, -⟩ := Except.bind_eq_ok.mp hstep
      exact ⟨value, isOf_of_symbolValue hvalue⟩
    · have hnil : ∀ p ∈ ([] : List (String × SymbolValue)), ∃ m ∈ members,
          m.1.shown parts = .ok p.1 ∧ p.2.IsOf m.2 := List.forall_mem_nil _
      refine Except.foldlM_keeps (I := fun symbols : List (String × SymbolValue) => ∀ p ∈ symbols,
        ∃ m ∈ members, m.1.shown parts = .ok p.1 ∧ p.2.IsOf m.2) ?_ hnil h
      intro symbols m hm symbols' hsymbols hstep
      obtain ⟨value, hvalue, hstep⟩ := Except.bind_eq_ok.mp hstep
      obtain ⟨name, hname, hstep⟩ := Except.bind_eq_ok.mp hstep
      cases hstep
      exact forall_mem_setMember hsymbols
        ⟨m, hm, nameOf_eq_ok.mp hname, isOf_of_symbolValue hvalue⟩

theorem valueType_eq_ok {s : String} (h : valueType s = .ok type) :
    ValueType.ofName? s = some type := by
  unfold valueType at h
  split at h
  case h_1 htype =>
    cases h
    exact htype
  · cases h

theorem entryOf_eq_ok (h : entryOf parts place entries item = .ok entries') :
    ∃ e, Entry.DescribedBy parts item.1 e ∧ (∀ e' ∈ entries, e'.name ≠ e.name) ∧
      entries' = entries ++ [e] := by
  obtain ⟨members, hmembers, h⟩ := Except.bind_eq_ok.mp h
  obtain ⟨document, hrequired, h⟩ := Except.bind_eq_ok.mp h
  obtain ⟨name, hname, h⟩ := Except.bind_eq_ok.mp h
  split at h
  · cases h
  case isFalse hnew =>
    obtain ⟨typeDocument, htype, h⟩ := Except.bind_eq_ok.mp h
    obtain ⟨typeName, htypeName, h⟩ := Except.bind_eq_ok.mp h
    obtain ⟨type, hvalue, h⟩ := Except.bind_eq_ok.mp h
    cases h
    refine ⟨⟨name, type⟩, ⟨members, typeName, membersOr_eq_ok hmembers, ?_, ?_, ?_⟩, ?_, rfl⟩
    · exact hasText_of_required hrequired hname
    · exact hasText_of_required htype htypeName
    · exact valueType_eq_ok hvalue
    · simpa using hnew

theorem describedBy_of_slotOf (h : slotOf parts entries place item = .ok s) :
    Slot.DescribedBy parts entries item s := by
  obtain ⟨members, hmembers, h⟩ := Except.bind_eq_ok.mp h
  obtain ⟨document, hrequired, h⟩ := Except.bind_eq_ok.mp h
  obtain ⟨name, hname, h⟩ := Except.bind_eq_ok.mp h
  split at h
  · cases h
  case h_2 entry hentry =>
    obtain ⟨symbols, hsymbols, h⟩ := Except.bind_eq_ok.mp h
    cases h
    have hmem := List.mem_of_find?_eq_some hentry
    have hentryName : entry.name = name := by simpa using List.find?_some hentry
    refine ⟨?_, members, standsFor_of_nameOrMembers hmembers, ?_, ?_⟩
    · rw [← hentryName]
      exact hmem
    · exact hasText_of_required hrequired hname
    · exact hasSymbols_of_symbolsOfMembers hsymbols

theorem slots_of_ofSlots {s : String} (h : FieldTemplate.ofSlots s slots tag = .ok f) :
    f.name = s ∧ f.slots = slots := by
  unfold FieldTemplate.ofSlots at h
  split at h
  · cases h
    exact ⟨rfl, rfl⟩
  · cases h

theorem fieldOf_eq_ok (h : fieldOf parts place entries fields item = .ok fields') :
    ∃ f, FieldTemplate.DescribedBy parts entries item.1 f ∧ (∀ f' ∈ fields, f'.name ≠ f.name) ∧
      fields' = fields ++ [f] := by
  obtain ⟨members, hmembers, h⟩ := Except.bind_eq_ok.mp h
  obtain ⟨document, hrequired, h⟩ := Except.bind_eq_ok.mp h
  obtain ⟨name, hname, h⟩ := Except.bind_eq_ok.mp h
  split at h
  · cases h
  case isFalse hnew =>
    obtain ⟨values, hvalues, h⟩ := Except.bind_eq_ok.mp h
    obtain ⟨slots, hslots, h⟩ := Except.bind_eq_ok.mp h
    obtain ⟨tag, -, h⟩ := Except.bind_eq_ok.mp h
    obtain ⟨field, hfield, h⟩ := Except.bind_eq_ok.mp h
    cases h
    obtain ⟨rfl, rfl⟩ := slots_of_ofSlots hfield
    refine ⟨field, ⟨members, values, ?_, ?_, hvalues, ?_⟩, ?_, rfl⟩
    · exact standsFor_of_nameOrMembers hmembers
    · exact hasText_of_required hrequired hname
    · exact (Except.forall₂_of_mapM hslots).imp fun _ _ => describedBy_of_slotOf
    · simpa using hnew

theorem forall₂_of_zipIdx {R : Document → α → Prop} {items : List Document} {xs : List α}
    (h : List.Forall₂ (fun item x => R item.1 x) items.zipIdx xs) : List.Forall₂ R items xs := by
  have hmap := List.forall₂_map_left_iff.mpr h
  rwa [List.zipIdx_map_fst] at hmap

theorem ofMembers_eq_ok (h : ofMembers parts members index = .ok t) :
    t.DescribedBy parts members ∧ HasDistinctEntries t.entries ∧ (t.fields.map (·.name)).Nodup := by
  obtain ⟨document, hrequired, h⟩ := Except.bind_eq_ok.mp h
  obtain ⟨name, hname, h⟩ := Except.bind_eq_ok.mp h
  obtain ⟨code, hcode, h⟩ := Except.bind_eq_ok.mp h
  obtain ⟨items, hitems, h⟩ := Except.bind_eq_ok.mp h
  obtain ⟨entries, hentries, h⟩ := Except.bind_eq_ok.mp h
  obtain ⟨fieldItems, hfieldItems, h⟩ := Except.bind_eq_ok.mp h
  obtain ⟨fields, hfields, h⟩ := Except.bind_eq_ok.mp h
  cases h
  refine ⟨⟨hasText_of_required hrequired hname, nameOf_eq_ok.mp hcode, ⟨items, hitems, ?_⟩,
    ⟨fieldItems, hfieldItems, ?_⟩⟩, ?_, ?_⟩
  · obtain ⟨es, rfl, hes⟩ := Except.forall₂_of_foldlM (fun _ _ _ hstep => by
      obtain ⟨e, he, -, heq⟩ := entryOf_eq_ok hstep
      exact ⟨e, he, heq⟩) hentries
    exact forall₂_of_zipIdx hes
  · obtain ⟨fs, rfl, hfs⟩ := Except.forall₂_of_foldlM (fun _ _ _ hstep => by
      obtain ⟨f, hf, -, heq⟩ := fieldOf_eq_ok hstep
      exact ⟨f, hf, heq⟩) hfields
    exact forall₂_of_zipIdx hfs
  · have hnil : HasDistinctEntries [] := List.nodup_nil
    refine Except.foldlM_keeps (fun entries _ _ entries' hd hstep => ?_) hnil hentries
    obtain ⟨e, -, hnew, rfl⟩ := entryOf_eq_ok hstep
    exact nodup_map_snoc hd (by simpa using hnew)
  · have hnil : (([] : List FieldTemplate).map (·.name)).Nodup := List.nodup_nil
    refine Except.foldlM_keeps (I := fun fields : List FieldTemplate => (fields.map (·.name)).Nodup)
      (fun fields _ _ fields' hd hstep => ?_) hnil hfields
    obtain ⟨f, -, hnew, rfl⟩ := fieldOf_eq_ok hstep
    exact nodup_map_snoc hd (by simpa using hnew)

theorem allOfConfiguration_eq_ok (h : allOfConfiguration c = .ok types) :
    ∃ all items, c.root.whole c.parts = .map all ∧
      (Document.member? all "types").map (Document.whole c.parts) = some (.list items) ∧
      List.Forall₂ (fun item t => ∃ members index, item.whole c.parts = .map members ∧
        ofMembers c.parts members index = .ok t) items types := by
  obtain ⟨all, hall, h⟩ := Except.bind_eq_ok.mp h
  split at h
  case h_1 items hitems =>
    refine ⟨all, items, membersOr_eq_ok hall, hitems, forall₂_of_zipIdx ?_⟩
    refine (Except.forall₂_of_mapM h).imp fun item t ht => ?_
    obtain ⟨members, hmembers, ht⟩ := Except.bind_eq_ok.mp ht
    exact ⟨members, item.2, membersOr_eq_ok hmembers, ht⟩
  · cases h

theorem exists_configuration_of_loadTypes (h : loadTypes tree file = .ok types) :
    ∃ source c, Configuration.parse file source = .ok c ∧ allOfConfiguration c = .ok types := by
  rw [loadTypes] at h
  split at h
  · cases h
  · cases h
  · obtain ⟨source, -, h⟩ := Except.bind_eq_ok.mp h
    obtain ⟨c, hparse, h⟩ := Except.bind_eq_ok.mp h
    exact ⟨source, c, hparse, h⟩

theorem exists_members_of_loadTypes (h : loadTypes tree file = .ok types) (ht : t ∈ types) :
    ∃ parts members index, ofMembers parts members index = .ok t := by
  obtain ⟨source, c, -, hc⟩ := exists_configuration_of_loadTypes h
  obtain ⟨all, items, -, -, hitems⟩ := allOfConfiguration_eq_ok hc
  obtain ⟨item, -, members, index, -, hmembers⟩ := Except.exists_of_mem_right hitems ht
  exact ⟨c.parts, members, index, hmembers⟩

theorem loadTypes_distinct (h : loadTypes tree file = .ok types) (ht : t ∈ types) :
    HasDistinctEntries t.entries := by
  obtain ⟨_, _, _, hmembers⟩ := exists_members_of_loadTypes h ht
  exact (ofMembers_eq_ok hmembers).2.1

theorem find?_name_eq_some_iff {α : Type} {name : α → String} {xs : List α} {x : α} {key : String}
    (h : (xs.map name).Nodup) : xs.find? (name · == key) = some x ↔ x ∈ xs ∧ name x = key := by
  constructor
  · intro hx
    have hname : name x = key := by simpa using List.find?_some hx
    exact ⟨List.mem_of_find?_eq_some hx, hname⟩
  · rintro ⟨hx, rfl⟩
    cases hfound : xs.find? (name · == name x) with
    | none =>
      have hne := List.find?_eq_none.mp hfound x hx
      simp at hne
    | some y =>
      have hname : name y = name x := by simpa using List.find?_some hfound
      rw [List.inj_on_of_nodup_map h (List.mem_of_find?_eq_some hfound) hx hname]

theorem entry?_of_mem (hd : HasDistinctEntries t.entries) (he : e ∈ t.entries) :
    t.entry? e.name = some e :=
  (find?_name_eq_some_iff hd).mpr ⟨he, rfl⟩

theorem typeOf_of_mem (hd : HasDistinctEntries t.entries) (he : e ∈ t.entries) :
    t.typeOf e.name = e.type := by
  rw [typeOf, entry?_of_mem hd he]
  rfl

end TypeTemplate

end ResourceScript
