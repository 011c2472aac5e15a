import Mathlib.Data.List.Induction
import ResourceScript.Proofs.Statuses

namespace ResourceScript

namespace Details

/-- The names of the details that are told about tasks. -/
def taskNames : List String :=
  "current_item" :: Task.figureNames

/-- Details of a task, each under a name of its own. -/
structure OfTask (details : Details) : Prop where
  nodup : (details.map Prod.fst).Nodup
  names : ∀ name ∈ details.map Prod.fst, name ∈ taskNames

instance (details : Details) : Decidable details.OfTask :=
  decidable_of_iff
    ((details.map Prod.fst).Nodup ∧ ∀ name ∈ details.map Prod.fst, name ∈ taskNames)
    ⟨fun h => ⟨h.1, h.2⟩, fun h => ⟨h.nodup, h.names⟩⟩

theorem OfTask.merge {details added : Details} (h : details.OfTask) (hadded : added.OfTask) :
    OfTask (mergeMembers details added) where
  nodup := nodup_mergeMembers h.nodup
  names := by
    intro name hname
    rcases mem_keys_mergeMembers.mp hname with hname | hname
    · exact h.names name hname
    · exact hadded.names name hname

theorem OfTask.record_eq {details parts : Details} (h : details.OfTask) (event : String)
    (hparts : ∀ name ∈ taskNames, name ∉ parts.map Prod.fst) :
    details.record event parts =
      .ok (Json.obj (("event", .ofString event) :: parts ++ details)).sortKeys := by
  have hown : ∀ name ∈ taskNames, name ≠ "self" ∧ name ≠ "event" := by decide
  rw [record, if_pos]
  refine ⟨?_, h.nodup⟩
  intro d hd htaken
  have hname := h.names d.1 (List.mem_map_of_mem hd)
  simp only [List.mem_cons, hown d.1 hname, false_or] at htaken
  exact hparts d.1 hname htaken

end Details

namespace Event

def IsTaskCall (e : Event) : Prop :=
  match e with
  | taskStart .. | taskAdvance .. | taskEnd .. => e.details.OfTask
  | message .. | diagnostic .. | heading _ | flush => False

instance (e : Event) : Decidable e.IsTaskCall :=
  match e with
  | taskStart .. | taskAdvance .. | taskEnd .. => inferInstanceAs (Decidable (Details.OfTask _))
  | message .. | diagnostic .. | heading _ | flush => .isFalse id

def bound? : Event → Option String
  | taskStart id .. | taskEnd id .. => some id
  | _ => none

/-- The steps and the details that a call adds to a task under way. -/
def advanceOf? (id : String) : Event → Option (Int × Details)
  | taskAdvance id' step details => if id' = id then some (step, details) else none
  | _ => none

variable {e : Event} {calls since : List Event} {id name : String} {total : Option Int}
  {details : Details}

/-- The last start of a task that is under way, and the calls since. -/
structure LastStart (id name : String) (total : Option Int) (details : Details)
    (calls since : List Event) : Prop where
  split : ∃ before, calls = before ++ taskStart id name total details :: since
  unbound : ∀ e ∈ since, e.bound? ≠ some id

namespace LastStart

theorem start : LastStart id name total details (calls ++ [taskStart id name total details]) [] :=
  ⟨⟨calls, rfl⟩, List.forall_mem_nil _⟩

theorem snoc (h : LastStart id name total details calls since) (he : e.bound? ≠ some id) :
    LastStart id name total details (calls ++ [e]) (since ++ [e]) where
  split := by
    obtain ⟨before, rfl⟩ := h.split
    exact ⟨before, by rw [List.append_assoc, List.cons_append]⟩
  unbound := by
    rw [List.forall_mem_append, List.forall_mem_singleton]
    exact ⟨h.unbound, he⟩

theorem not_nil : ¬ LastStart id name total details [] since := by
  rintro ⟨⟨before, h⟩, -⟩
  simp at h

theorem of_snoc (h : LastStart id name total details (calls ++ [e]) since) :
    e = taskStart id name total details ∨
      e.bound? ≠ some id ∧ ∃ since', LastStart id name total details calls since' := by
  obtain ⟨before, hsplit⟩ := h.split
  rcases List.eq_nil_or_concat since with rfl | ⟨init, last, rfl⟩
  · left
    obtain ⟨-, hlast⟩ := List.append_inj' hsplit rfl
    exact List.head_eq_of_cons_eq hlast
  · right
    rw [List.concat_eq_append] at h hsplit
    rw [← List.cons_append, ← List.append_assoc] at hsplit
    obtain ⟨rfl, hlast⟩ := List.append_inj' hsplit rfl
    obtain rfl := List.head_eq_of_cons_eq hlast
    obtain ⟨hinit, hlast⟩ := List.forall_mem_append.mp h.unbound
    exact ⟨hlast e List.mem_cons_self, init, ⟨before, rfl⟩, hinit⟩

end LastStart

/-- What a call makes of the task of an id, if that is under way. -/
def track (id : String) (e : Event) (t? : Option Task) : Option Task :=
  match e with
  | taskStart id' name total details => if id' = id then some (.start name total details) else t?
  | taskAdvance id' step details => if id' = id then t?.map (·.advance step details) else t?
  | taskEnd id' _ _ => if id' = id then none else t?
  | message .. | diagnostic .. | heading _ | flush => t?

end Event

/-- The record of a task that was started with some details and advanced since. Of the values of a
detail the last one counts. -/
structure Task.Records (t : Task) (details : Details) (advances : List (Int × Details)) : Prop where
  completed_eq : t.completed = (advances.map Prod.fst).foldl (· + ·) 0
  ofTask : t.details.OfTask
  lookup_eq : ∀ name, t.details.lookup name =
    (details :: advances.map Prod.snd).reverse.findSome? (·.lookup name)

/-- The record of a task under way, by the calls so far. -/
def Task.AccountedBy (t : Task) (id : String) (calls : List Event) : Prop :=
  ∃ details since, Event.LastStart id t.name t.total details calls since ∧
    t.Records details (since.filterMap (Event.advanceOf? id))

variable {t : Task} {id : String} {calls : List Event} {e : Event} {details : Details}
  {advances : List (Int × Details)} {tasks : TaskTable}

namespace Task

theorem Records.start (h : details.OfTask) (name : String) (total : Option Int) :
    (Task.start name total details).Records details [] where
  completed_eq := rfl
  ofTask := h
  lookup_eq := by
    intro name
    rw [List.map_nil, List.reverse_singleton, List.findSome?_singleton]
    rfl

theorem Records.advance {added : Details} (h : t.Records details advances) (hadded : added.OfTask)
    (step : Int) : (t.advance step added).Records details (advances ++ [(step, added)]) where
  completed_eq := by
    rw [List.map_append, List.foldl_append, ← h.completed_eq]
    rfl
  ofTask := h.ofTask.merge hadded
  lookup_eq := by
    intro name
    have hmerge : (t.advance step added).details = mergeMembers t.details added := rfl
    rw [hmerge, lookup_mergeMembers hadded.nodup, h.lookup_eq, List.map_append, ← List.cons_append,
      List.reverse_append]
    cases hname : added.lookup name <;> simp [hname]

end Task

/-- Whether and how a task is under way is what the calls so far say. -/
def Accounted (id : String) (calls : List Event) : Option Task → Prop
  | some t => t.AccountedBy id calls
  | none => ∀ name total details since, ¬ Event.LastStart id name total details calls since

namespace Accounted

variable {t? : Option Task}

theorem nil (id : String) : Accounted id [] none :=
  fun _ _ _ _ => Event.LastStart.not_nil

theorem other (h : Accounted id calls t?) (hbound : e.bound? ≠ some id)
    (hadvance : e.advanceOf? id = none) : Accounted id (calls ++ [e]) t? := by
  cases t? with
  | none =>
    intro name total details since hlast
    rcases hlast.of_snoc with rfl | ⟨-, since', hlast⟩
    · exact hbound rfl
    · exact h name total details since' hlast
  | some t =>
    obtain ⟨details, since, hlast, ht⟩ := h
    refine ⟨details, since ++ [e], hlast.snoc hbound, ?_⟩
    rw [List.filterMap_append, List.filterMap_cons_none hadvance, List.filterMap_nil,
      List.append_nil]
    exact ht

theorem advance (h : Accounted id calls t?) (hdetails : details.OfTask) (step : Int) :
    Accounted id (calls ++ [.taskAdvance id step details]) (t?.map (·.advance step details)) := by
  have hbound : (Event.taskAdvance id step details).bound? ≠ some id := nofun
  have hadvance : (Event.taskAdvance id step details).advanceOf? id = some (step, details) :=
    if_pos rfl
  cases t? with
  | none =>
    intro name total details' since hlast
    rcases hlast.of_snoc with hstart | ⟨-, since', hlast⟩
    · cases hstart
    · exact h name total details' since' hlast
  | some t =>
    obtain ⟨details', since, hlast, ht⟩ := h
    refine ⟨details', since ++ [_], hlast.snoc hbound, ?_⟩
    rw [List.filterMap_append, List.filterMap_cons_some hadvance, List.filterMap_nil]
    exact ht.advance hdetails step

theorem finish (calls : List Event) (id : String) (status : TaskStatus) (details : Details) :
    Accounted id (calls ++ [.taskEnd id status details]) none := by
  intro name total details' since hlast
  rcases hlast.of_snoc with hstart | ⟨hbound, -⟩
  · cases hstart
  · exact hbound rfl

theorem track (h : Accounted id calls t?) (he : e.IsTaskCall) :
    Accounted id (calls ++ [e]) (e.track id t?) := by
  cases e with
  | taskStart id' name total details =>
    by_cases hid : id' = id
    · subst hid
      rw [Event.track, if_pos rfl]
      exact ⟨details, [], .start, .start he name total⟩
    · rw [Event.track, if_neg hid]
      exact h.other (by simpa [Event.bound?] using hid) rfl
  | taskAdvance id' step details =>
    by_cases hid : id' = id
    · subst hid
      rw [Event.track, if_pos rfl]
      exact h.advance he step
    · rw [Event.track, if_neg hid]
      exact h.other nofun (if_neg hid)
  | taskEnd id' status details =>
    by_cases hid : id' = id
    · subst hid
      rw [Event.track, if_pos rfl]
      exact finish calls id' status details
    · rw [Event.track, if_neg hid]
      exact h.other (by simpa [Event.bound?] using hid) rfl
  | message | diagnostic | heading | flush => cases he

end Accounted

namespace TaskTable

def after (tasks : TaskTable) (e : Event) : TaskTable :=
  ((e.follow tasks).map Prod.snd).getD tasks

theorem lookup_filter_ne (id id' : String) (tasks : TaskTable) :
    (tasks.filter (·.1 ≠ id')).lookup id = if id' = id then none else tasks.lookup id := by
  induction tasks with
  | nil => simp
  | cons m tasks ih =>
    by_cases hm : m.1 = id'
    · rw [List.filter_cons_of_neg (by simpa using hm), ih, List.lookup_cons]
      by_cases hid : id' = id
      · rw [if_pos hid, if_pos hid]
      · have hne : (id == m.1) = false :=
          beq_eq_false_iff_ne.mpr fun h => hid (hm.symm.trans h.symm)
        rw [if_neg hid, if_neg hid, hne]
    · rw [List.filter_cons_of_pos (by simpa using hm), List.lookup_cons, List.lookup_cons, ih]
      by_cases hid : id = m.1
      · have hne : id' ≠ id := fun h => hm (hid.symm.trans h.symm)
        rw [if_neg hne, if_neg hne]
      · rw [beq_eq_false_iff_ne.mpr hid]

theorem lookup_after (id : String) (e : Event) (tasks : TaskTable) :
    (tasks.after e).lookup id = e.track id (tasks.lookup id) := by
  cases e with
  | taskStart id' name total details =>
    have hafter : tasks.after (.taskStart id' name total details) =
        setMember id' (Task.start name total details) tasks := rfl
    rw [hafter, lookup_setMember, Event.track]
    simp only [eq_comm]
  | taskAdvance id' step details =>
    rw [after, Event.follow, TaskTable.advance, Event.track]
    by_cases hid : id' = id
    · subst hid
      rw [if_pos rfl]
      cases ht : tasks.lookup id' with
      | none => exact ht
      | some t => simp [lookup_setMember]
    · rw [if_neg hid]
      cases tasks.lookup id' with
      | none => rfl
      | some t => simp [lookup_setMember, Ne.symm hid]
  | taskEnd id' status details =>
    rw [after, Event.follow, TaskTable.finish, Event.track]
    cases ht : tasks.lookup id' with
    | none =>
      by_cases hid : id' = id
      · subst hid
        rw [if_pos rfl]
        exact ht
      · rw [if_neg hid]
        rfl
    | some t => exact lookup_filter_ne id id' tasks
  | message | diagnostic | heading | flush => rfl

/-- The table has the tasks that are under way by the calls so far. -/
structure Accounts (tasks : TaskTable) (calls : List Event) : Prop where
  nodup : (tasks.map Prod.fst).Nodup
  accounted : ∀ id, Accounted id calls (tasks.lookup id)

theorem nodup_after (h : (tasks.map Prod.fst).Nodup) (e : Event) :
    ((tasks.after e).map Prod.fst).Nodup := by
  cases e with
  | taskStart => exact nodup_setMember h
  | taskAdvance id step details =>
    rw [after, Event.follow, TaskTable.advance]
    cases tasks.lookup id with
    | none => exact h
    | some t => exact nodup_setMember h
  | taskEnd id status details =>
    rw [after, Event.follow, TaskTable.finish]
    cases tasks.lookup id with
    | none => exact h
    | some t => exact h.sublist (List.filter_sublist.map Prod.fst)
  | message | diagnostic | heading | flush => exact h

theorem Accounts.after (h : Accounts tasks calls) (he : e.IsTaskCall) :
    Accounts (tasks.after e) (calls ++ [e]) where
  nodup := nodup_after h.nodup e
  accounted := by
    intro id
    rw [lookup_after]
    exact (h.accounted id).track he

theorem Accounts.ofTask (h : Accounts tasks calls) (ht : tasks.lookup id = some t) :
    t.details.OfTask := by
  have hid := h.accounted id
  rw [ht] at hid
  obtain ⟨details, since, -, hrecords⟩ := hid
  exact hrecords.ofTask

end TaskTable

/-- How a detail is told in a line: texts as they are and numbers in decimal. -/
inductive Json.IsTold : Json → Text → Prop where
  | str : IsTold (.str content) content
  | int : IsTold (.int n) (text s!"{n}")
  | other {j : Json} : (∀ content, j ≠ .str content) → (∀ n, j ≠ .int n) → IsTold j j.display

/-- The figures of a task: its details under these names, if they are there, in the order of the
names. -/
inductive Details.Figures (details : Details) : List String → List Text → Prop where
  | nil : Figures details [] []
  | told : details.lookup name = some j → j.IsTold told → Figures details names figures →
      Figures details (name :: names) ((text name ++ text "=" ++ told) :: figures)
  | absent : details.lookup name = none → Figures details names figures →
      Figures details (name :: names) figures

def TaskStatus.sign : TaskStatus → String
  | running => "?"
  | success => "✔"
  | failed => "✖"
  | skipped => "→"

theorem Json.IsTold.unique {j : Json} (h : j.IsTold told) (h' : j.IsTold told') : told = told' := by
  cases h with
  | str =>
    cases h' with
    | str => rfl
    | other hstr _ => exact absurd rfl (hstr _)
  | int =>
    cases h' with
    | int => rfl
    | other _ hint => exact absurd rfl (hint _)
  | other hstr hint =>
    cases h' with
    | str => exact absurd rfl (hstr _)
    | int => exact absurd rfl (hint _)
    | other => rfl

theorem Details.Figures.unique {details : Details} (h : details.Figures names figures)
    (h' : details.Figures names figures') : figures = figures' := by
  induction h generalizing figures' with
  | nil =>
    cases h' with
    | nil => rfl
  | told hj htold _ ih =>
    cases h' with
    | told hj' htold' h' =>
      rw [hj] at hj'
      cases hj'
      rw [htold.unique htold', ih h']
    | absent hnone _ => simp [hj] at hnone
  | absent hnone _ ih =>
    cases h' with
    | told hj' _ _ => simp [hnone] at hj'
    | absent _ h' => exact ih h'

namespace Event

end Event

namespace Reporter

variable {r : Reporter} {task : Option Task}

end Reporter

end ResourceScript
