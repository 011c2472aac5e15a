import ResourceScript.Proofs.Calls
import ResourceScript.Proofs.Names
import ResourceScript.Template.Registry

namespace ResourceScript

namespace Draft

variable {d : Draft} {slot : String} {call : Call} {calls : List Call} {event : Event}

def IsPlaced (d : Draft) : Prop :=
  ∀ slot ∈ d.slots, slot ∈ d.layout.map (·.name)

def Call.WritesInto (slots : List String) : Call → Prop
  | .write slot _ => slot ∈ slots
  | .assemble => True

/-- Values were left over that are not part of the layout. -/
def LeftOver (e : Failure) : Prop :=
  ∃ values place, e = .problem (.valuesOutsideTemplate values) place

theorem not_leftOver_of_write {value : Except Fault Written} (h : d.write slot value = .error e) :
    ¬LeftOver e := by
  rintro ⟨values, place, rfl⟩
  rw [write.eq_def] at h
  split at h
  · cases h
  · split at h
    · cases h
    · split at h <;> cases h

theorem IsPlaced.not_leftOver_of_assemble (hd : d.IsPlaced) (h : d.assemble = .error e) :
    ¬LeftOver e := by
  rintro ⟨values, place, rfl⟩
  have hnil : d.unplaced = [] := unplaced_eq_nil_iff.mpr hd
  rw [assemble.eq_def, hnil] at h
  split at h <;> cases h

theorem IsPlaced.not_leftOver_of_answer (hd : d.IsPlaced) (h : (d.answer call).1 = .error e) :
    ¬LeftOver e := by
  cases call with
  | write slot value =>
    rw [answer] at h
    split at h
    · cases h
    case h_2 hwrite =>
      cases h
      exact not_leftOver_of_write hwrite
  | assemble => exact hd.not_leftOver_of_assemble (Except.map_eq_error.mp h)

theorem layout_answer (d : Draft) (call : Call) : (d.answer call).2.layout = d.layout := by
  rw [answer_snd]

theorem IsPlaced.answer (hd : d.IsPlaced) (hcall : call.WritesInto (d.layout.map (·.name))) :
    (d.answer call).2.IsPlaced := by
  cases call with
  | assemble => exact hd
  | write slot value =>
    obtain ⟨e, ha⟩ | ⟨w, -, -, ha⟩ := d.answer_write slot value
    · rw [ha]
      exact hd
    · rw [ha]
      intro slot' hslot'
      rw [slots, List.map_append, List.mem_append] at hslot'
      obtain hold | hnew := hslot'
      · exact hd slot' hold
      · obtain rfl := List.mem_singleton.mp hnew
        exact hcall

theorem IsPlaced.not_leftOver_of_events (hd : d.IsPlaced)
    (hcalls : ∀ call ∈ calls, call.WritesInto (d.layout.map (·.name)))
    (hevent : event ∈ d.events calls)
    (h : event.answer = .error e) : ¬LeftOver e := by
  induction calls generalizing d with
  | nil => cases hevent
  | cons call calls ih =>
    obtain ⟨hcall, hcalls⟩ := List.forall_mem_cons.mp hcalls
    rw [events] at hevent
    cases hevent with
    | head => exact hd.not_leftOver_of_answer h
    | tail _ hevent =>
      apply ih (hd.answer hcall) _ hevent
      rwa [layout_answer]

end Draft

namespace TypeTemplate

variable {t : TypeTemplate} {types : List TypeTemplate} {f : FieldTemplate} {s : Slot}
  {r : Registry}

/-- What the other stages take for granted of a type. -/
structure IsSound (t : TypeTemplate) : Prop where
  distinct : HasDistinctEntries t.entries
  named : ∀ e ∈ t.entries, e.name ≠ ""
  keyed : ∀ name f, t.field? name = some f ↔ f ∈ t.fields ∧ f.name = name
  filled : ∀ f ∈ t.fields, f.slots ≠ []
  placed : ∀ f ∈ t.fields, ∀ s ∈ f.slots, ⟨s.name, s.type⟩ ∈ t.entries

def slotNames (t : TypeTemplate) : List String :=
  (t.fields.flatMap FieldTemplate.slots).map (·.name)

theorem DescribedBy.placed (h : t.DescribedBy parts members) :
    ∀ f ∈ t.fields, ∀ s ∈ f.slots, ⟨s.name, s.type⟩ ∈ t.entries := by
  intro f hf s hs
  obtain ⟨items, -, hitems⟩ := h.fields
  obtain ⟨item, -, members, values, -, -, -, hslots⟩ := Except.exists_of_mem_right hitems hf
  obtain ⟨value, -, hplaced, -⟩ := Except.exists_of_mem_right hslots hs
  exact hplaced

theorem isSound_of_ofMembers (h : ofMembers parts members index = .ok t) : t.IsSound := by
  obtain ⟨hdescribed, hentries, hfields⟩ := ofMembers_eq_ok h
  exact {
    distinct := hentries
    named := hdescribed.named
    keyed := fun _ _ => find?_name_eq_some_iff hfields
    filled := fun f _ => List.cons_ne_nil f.first f.others
    placed := hdescribed.placed }

theorem IsSound.entryNamed (h : t.IsSound) (hr : r.active? = some t) (hf : f ∈ t.fields)
    (hs : s ∈ f.slots) : r.entryNamed s.name = .ok (t.symbolsOf s.name, s.type) := by
  have hactive : r.active = .ok t := by
    rw [Registry.active, hr]
  have htype : t.typeOf s.name = s.type := typeOf_of_mem h.distinct (h.placed f hf s hs)
  rw [Registry.entryNamed, hactive, ← htype]
  rfl

theorem IsSound.mem_names (h : t.IsSound) {slot : String} (hslot : slot ∈ t.slotNames) :
    slot ∈ t.entries.map (·.name) := by
  obtain ⟨s, hs, rfl⟩ := List.mem_map.mp hslot
  obtain ⟨f, hf, hs⟩ := List.mem_flatMap.mp hs
  exact List.mem_map_of_mem (h.placed f hf s hs)

theorem IsSound.not_leftOver (h : t.IsSound) {id : Int} {name : Text} {calls : List Draft.Call}
    {event : Draft.Event}
    (hcalls : ∀ call ∈ calls, call.WritesInto t.slotNames)
    (hevent : event ∈ (Draft.ofTemplate t id name).events calls) (he : event.answer = .error e) :
    ¬Draft.LeftOver e := by
  have hempty : (Draft.ofTemplate t id name).IsPlaced := List.forall_mem_nil _
  apply hempty.not_leftOver_of_events _ hevent he
  intro call hcall
  have hinto := hcalls call hcall
  cases call with
  | write slot value => exact h.mem_names hinto
  | assemble => trivial

/-- The types of a configuration are those it describes, one for each item and in their order. Each
is sound: an entry that a field names is found with the type of the slot, and no sequence of writes
to the slots of fields leaves a value over. -/
theorem isSound_of_allOfConfiguration (h : allOfConfiguration c = .ok types) :
    (∃ all items, c.root.whole c.parts = .map all ∧
      (Document.member? all "types").map (Document.whole c.parts) = some (.list items) ∧
      List.Forall₂ (fun item t => ∃ members, item.whole c.parts = .map members ∧
        t.DescribedBy c.parts members) items types) ∧
    ∀ t ∈ types, t.IsSound ∧
      (∀ r : Registry, r.active? = some t → ∀ f ∈ t.fields, ∀ s ∈ f.slots,
        t.entry? s.name = some ⟨s.name, s.type⟩ ∧
          r.entryNamed s.name = .ok (t.symbolsOf s.name, s.type)) ∧
      ∀ (id : Int) (name : Text) (calls : List Draft.Call),
        (∀ call ∈ calls, call.WritesInto t.slotNames) →
        ∀ event ∈ (Draft.ofTemplate t id name).events calls, ∀ e, event.answer = .error e →
          ¬Draft.LeftOver e := by
  obtain ⟨all, items, hroot, hitems, htypes⟩ := allOfConfiguration_eq_ok h
  refine ⟨⟨all, items, hroot, hitems, htypes.imp ?_⟩, ?_⟩
  · rintro item t ⟨members, index, hitem, ht⟩
    exact ⟨members, hitem, (ofMembers_eq_ok ht).1⟩
  · intro t ht
    obtain ⟨item, -, members, index, -, hmembers⟩ := Except.exists_of_mem_right htypes ht
    have hsound := isSound_of_ofMembers hmembers
    refine ⟨hsound, ?_, ?_⟩
    · intro r hr f hf s hs
      exact ⟨entry?_of_mem hsound.distinct (hsound.placed f hf s hs), hsound.entryNamed hr hf hs⟩
    · intro id name calls hcalls event hevent e he
      exact hsound.not_leftOver hcalls hevent he

end TypeTemplate

namespace Sample

/-- Names that are numbers, and a number and a text for constants. -/
def gaugeFile : Configuration where
  root := .map [(.text "types", .list [.map [
    (.text "name", .text "Gauge"),
    (.text "template", .list [
      .map [(.text "name", .int 5), (.text "type", .text "dwrd")],
      .map [(.text "name", .text "on"), (.text "type", .text "DBYT")]]),
    (.text "fields", .list [
      .text "on",
      .map [(.text "name", .text "both"), (.text "values", .list [
        .map [(.text "name", .int 5), (.text "symbols", .map [
          (.int 1, .int 2),
          (.text "low", .text "-1")])],
        .text "on"])]])]])]

def gauge : TypeTemplate where
  name := "Gauge"
  code := "Gauge"
  entries := [⟨"5", .integer ⟨.two, true⟩⟩, ⟨"on", .integer ⟨.one, true⟩⟩]
  fields := [
    { name := "on", first := { name := "on", type := .integer ⟨.one, true⟩ } },
    { name := "both"
      first := {
        name := "5"
        type := .integer ⟨.two, true⟩
        symbols := [("1", .integer 2), ("low", .text "-1")] }
      others := [{ name := "on", type := .integer ⟨.one, true⟩ }] }]

end Sample

theorem TypeTemplate.isSound_of_allOfConfiguration_sample :
    allOfConfiguration Sample.gaugeFile = .ok [Sample.gauge] ∧ Sample.gauge.IsSound ∧
      ({ types := [], active? := some Sample.gauge, claims := [] } : Registry).entryNamed "5" =
        .ok ([("1", .integer 2), ("low", .text "-1")], .integer ⟨.two, true⟩) ∧
      ∀ event ∈ (Draft.ofTemplate Sample.gauge 128 []).events
        [.write "5" (.raw [1]), .write "on" (.raw [2]), .write "5" (.raw [3]), .assemble],
        ∀ e, event.answer = .error e → ¬Draft.LeftOver e := by
  have h : allOfConfiguration Sample.gaugeFile = .ok [Sample.gauge] :=
    Except.toOption_eq_some.mp (by decide +kernel)
  obtain ⟨-, hsound⟩ := isSound_of_allOfConfiguration h
  obtain ⟨hgauge, hentries, hcalls⟩ := hsound Sample.gauge List.mem_cons_self
  refine ⟨h, hgauge, ?_, ?_⟩
  · exact (hentries _ rfl _ (List.mem_cons_of_mem _ List.mem_cons_self) _ List.mem_cons_self).2
  · apply hcalls
    intro call hcall
    simp only [List.mem_cons, List.not_mem_nil, or_false] at hcall
    obtain rfl | rfl | rfl | rfl := hcall
    · exact List.mem_cons_of_mem _ List.mem_cons_self
    · exact List.mem_cons_self
    · exact List.mem_cons_of_mem _ List.mem_cons_self
    · trivial

end ResourceScript
