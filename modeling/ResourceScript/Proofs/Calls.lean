import Mathlib.Data.List.Nodup
import ResourceScript.Proofs.Outcome

namespace ResourceScript.Draft

/-- A value with the way it is packed. -/
inductive Packing where
  | integer (type : IntegerType) (n : Int)
  /-- An integer in the width of a type, which need not be one of integers. -/
  | sized (type : ValueType) (n : Int)
  | pascal (b : Bytes)
  | terminated (b : Bytes)
  | fixed (b : Bytes) (size : Int)
  | raw (b : Bytes)
  | rectangle (components : List Int)
  deriving DecidableEq, Repr

namespace Packing

def written : Packing → Except Fault Written
  | integer type n => Written.integer type n
  | sized type n => type.writeInteger n
  | pascal b => Written.pascal b
  | terminated b => .ok (Written.terminated b)
  | fixed b size => .ok (Written.fixed b size.toNat)
  | raw b => .ok (Written.raw b)
  | rectangle components => Written.rectangle components

def bytes (value : Packing) : Bytes :=
  match value.written with
  | .ok w => w.bytes
  | .error _ => []

/-- How many bytes are told to have been written. A size is told as it is asked for, though no text
is shorter than nothing. -/
def told (value : Packing) (count : Nat) : Int :=
  match value with
  | fixed _ size => size
  | _ => count

end Packing

inductive Call where
  | write (slot : String) (value : Packing)
  | assemble
  deriving DecidableEq, Repr

inductive Answer where
  | wrote (count : Int)
  | assembled (resource : Resource)
  deriving DecidableEq, Repr

/-- What a draft answers to a call, and the draft from then on. -/
def answer (d : Draft) : Call → Except Failure Answer × Draft
  | .write slot value =>
    match d.write slot value.written with
    | .ok (d', count) => (.ok (.wrote (value.told count)), d')
    | .error e => (.error e, d)
  | .assemble => (d.assemble.map .assembled, d.close)

/-- A call and what was answered to it. -/
structure Event where
  call : Call
  answer : Except Failure Answer

def Event.stored? (e : Event) : Option (String × Bytes) :=
  match e.call, e.answer with
  | .write slot value, .ok _ => some (slot, value.bytes)
  | _, _ => none

def events (d : Draft) : List Call → List Event
  | [] => []
  | call :: calls => ⟨call, (d.answer call).1⟩ :: (d.answer call).2.events calls

def after (d : Draft) : List Call → Draft
  | [] => d
  | call :: calls => (d.answer call).2.after calls

/-- The values that were stored, in the order of the calls. -/
def stored (events : List Event) : List (String × Bytes) :=
  events.filterMap Event.stored?

/-- The call fails with a problem of that code and changes nothing. -/
def Refuses (d : Draft) (call : Call) (code : String) : Prop :=
  ∃ cause : Problem, cause.code = code ∧ d.answer call = (.error cause.anywhere, d)

/-- The answers of a draft that has not been assembled. -/
structure AnswersOpen (d : Draft) : Prop where
  duplicate : ∀ slot value, slot ∈ d.slots → d.Refuses (.write slot value) "E_DUPLICATE_VALUE"
  unpacked : ∀ slot value fault, slot ∉ d.slots → value.written = .error fault →
    d.answer (.write slot value) = (.error (.fault fault), d)
  packed : ∀ slot value w, slot ∉ d.slots → value.written = .ok w →
    d.answer (.write slot value) =
      (.ok (.wrote (value.told w.count)), { d with written := d.written ++ [(slot, w.bytes)] })
  whole : (∀ slot ∈ d.slots, slot ∈ d.layout.map (·.name)) →
    (d.answer .assemble).1 = .ok (.assembled {
      code := d.code
      id := d.id
      name := d.name
      data := d.layout.flatMap fun e => (d.written.lookup e.name).getD e.type.default
      slots := d.slots })
  outside : (∃ slot ∈ d.slots, slot ∉ d.layout.map (·.name)) →
    ∃ cause : Problem, cause.code = "E_INTERNAL" ∧ (d.answer .assemble).1 = .error cause.anywhere

/-- The answers of a draft after it was assembled, or was to be. -/
structure AnswersClosed (d : Draft) : Prop where
  write : ∀ slot value, d.Refuses (.write slot value) "E_INTERNAL"
  assemble : d.Refuses .assemble "E_INTERNAL"

variable {d : Draft} {slot : String} {value : Packing} {call : Call} {calls : List Call}

theorem write_of_closed (h : d.closed = true) (value : Except Fault Written) :
    d.write slot value = .error (Problem.writeAfterAssembly slot d.id).anywhere := by
  rw [write.eq_def, h]
  rfl

theorem write_again (h : d.closed = false) (hs : slot ∈ d.slots) (value : Except Fault Written) :
    d.write slot value = .error (Problem.duplicateValue slot).anywhere := by
  rw [write.eq_def, h]
  simp only [Bool.false_eq_true, if_false, hs, if_true]

theorem write_free (h : d.closed = false) (hs : slot ∉ d.slots) (value : Except Fault Written) :
    d.write slot value = match value with
      | .ok w => .ok ({ d with written := d.written ++ [(slot, w.bytes)] }, w.count)
      | .error fault => .error (.fault fault) := by
  have hopen : ¬d.closed = true := by
    rw [h]
    exact Bool.false_ne_true
  cases value with
  | ok w => exact (if_neg hopen).trans (if_neg hs)
  | error fault => exact (if_neg hopen).trans (if_neg hs)

theorem unplaced_eq_nil_iff : d.unplaced = [] ↔ ∀ slot ∈ d.slots, slot ∈ d.layout.map (·.name) := by
  have hlength : d.unplaced = [] ↔
      (d.slots.filter fun s => !(d.layout.map (·.name)).contains s) = [] := by
    rw [unplaced, ← List.length_eq_zero_iff, List.length_mergeSort, List.length_eq_zero_iff]
  rw [hlength, List.filter_eq_nil_iff]
  apply forall₂_congr
  intro slot _
  simp

theorem answersOpen (h : d.closed = false) : d.AnswersOpen where
  duplicate := by
    intro slot value hs
    refine ⟨.duplicateValue slot, rfl, ?_⟩
    rw [answer, write_again h hs]
  unpacked := by
    intro slot value fault hs hv
    rw [answer, write_free h hs, hv]
  packed := by
    intro slot value w hs hv
    rw [answer, write_free h hs, hv]
  whole := by
    intro hplaced
    have hu := unplaced_eq_nil_iff.mpr hplaced
    simp only [answer, Draft.assemble, h, hu, List.isEmpty_nil, Bool.false_eq_true, if_false,
      if_true]
    rfl
  outside := by
    intro houtside
    have hu : d.unplaced.isEmpty = false := by
      rw [List.isEmpty_eq_false_iff]
      intro hnil
      obtain ⟨slot, hs, hout⟩ := houtside
      exact hout (unplaced_eq_nil_iff.mp hnil slot hs)
    refine ⟨.valuesOutsideTemplate d.unplaced, rfl, ?_⟩
    simp only [answer, Draft.assemble, h, hu, Bool.false_eq_true, if_false]
    rfl

theorem answersClosed (h : d.closed = true) : d.AnswersClosed where
  write := by
    intro slot value
    refine ⟨.writeAfterAssembly slot d.id, rfl, ?_⟩
    rw [answer, write_of_closed h]
  assemble := by
    refine ⟨.secondAssembly d.id, rfl, ?_⟩
    have hclose : d.close = d := by
      rw [close, ← h]
    simp only [answer, Draft.assemble, h, if_true, hclose]
    rfl

theorem answer_write (d : Draft) (slot : String) (value : Packing) :
    (∃ e, d.answer (.write slot value) = (.error e, d)) ∨
      ∃ w, slot ∉ d.slots ∧ value.written = .ok w ∧ d.answer (.write slot value) =
        (.ok (.wrote (value.told w.count)),
          { d with written := d.written ++ [(slot, w.bytes)] }) := by
  by_cases hc : d.closed = true
  · obtain ⟨cause, -, ha⟩ := (answersClosed hc).write slot value
    exact .inl ⟨_, ha⟩
  have hopen := answersOpen (Bool.eq_false_iff.mpr hc)
  by_cases hs : slot ∈ d.slots
  · obtain ⟨cause, -, ha⟩ := hopen.duplicate slot value hs
    exact .inl ⟨_, ha⟩
  · cases hv : value.written with
    | error fault => exact .inl ⟨_, hopen.unpacked slot value fault hs hv⟩
    | ok w => exact .inr ⟨w, hs, rfl, hopen.packed slot value w hs hv⟩

theorem answer_snd (d : Draft) (call : Call) : (d.answer call).2 =
    { d with
      written := d.written ++ (Event.stored? ⟨call, (d.answer call).1⟩).toList
      closed := d.closed || decide (call = .assemble) } := by
  cases call with
  | assemble => simp [answer, close, Event.stored?]
  | write slot value =>
    obtain ⟨e, ha⟩ | ⟨w, -, hv, ha⟩ := d.answer_write slot value
    · simp [ha, Event.stored?]
    · simp [ha, Event.stored?, Packing.bytes, hv]

theorem nodup_answer (h : d.slots.Nodup) (call : Call) : (d.answer call).2.slots.Nodup := by
  cases call with
  | assemble => exact h
  | write slot value =>
    obtain ⟨e, ha⟩ | ⟨w, hs, -, ha⟩ := d.answer_write slot value
    · rwa [ha]
    · rw [ha, slots]
      exact nodup_map_snoc h hs

theorem nodup_after (h : d.slots.Nodup) (calls : List Call) : (d.after calls).slots.Nodup := by
  induction calls generalizing d with
  | nil => exact h
  | cons call calls ih => exact ih (nodup_answer h call)

theorem after_eq (d : Draft) (calls : List Call) : d.after calls =
    { d with
      written := d.written ++ stored (d.events calls)
      closed := d.closed || decide (.assemble ∈ calls) } := by
  induction calls generalizing d with
  | nil => simp [after, events, stored]
  | cons call calls ih =>
    have hstored : stored (d.events (call :: calls)) =
        (Event.stored? ⟨call, (d.answer call).1⟩).toList ++
          stored ((d.answer call).2.events calls) := by
      rw [stored, events, List.filterMap_cons]
      cases Event.stored? ⟨call, (d.answer call).1⟩ <;> rfl
    rw [after, ih, hstored]
    generalize stored ((d.answer call).2.events calls) = more
    rw [d.answer_snd call]
    simp [eq_comm (a := call), Bool.or_assoc]

/-- Whatever the calls, a draft holds what was stored by those that succeeded, each slot once and in
their order; what it answers next hangs on this and on whether one of them was to assemble it. -/
theorem answers_after_calls (code : String) (id : Int) (name : Text) (layout : List Entry)
    (calls : List Call) :
    let start : Draft := { code, id, name, layout }
    let values := stored (start.events calls)
    let d := start.after calls
    d = { code, id, name, layout, written := values, closed := decide (.assemble ∈ calls) } ∧
      d.slots = values.map (·.1) ∧ d.slots.Nodup ∧
      (.assemble ∉ calls → d.AnswersOpen) ∧ (.assemble ∈ calls → d.AnswersClosed) := by
  intro start values d
  have hd : d =
      { code, id, name, layout, written := values, closed := decide (.assemble ∈ calls) } := by
    have hafter := start.after_eq calls
    simpa [start, values, d] using hafter
  have hnodup : d.slots.Nodup := nodup_after (d := start) List.nodup_nil calls
  refine ⟨hd, ?_, hnodup, ?_, ?_⟩
  · rw [hd, slots]
  · intro hopen
    exact answersOpen (by rw [hd]; exact decide_eq_false hopen)
  · intro hclosed
    exact answersClosed (by rw [hd]; exact decide_eq_true hclosed)

example :
    let start : Draft :=
      { code := "TEST", id := 128, name := [], layout := [⟨"rank", .terminated⟩] }
    let calls : List Call := [.write "rank" (.integer ⟨.one, true⟩ 128), .write "rank" (.raw [7]),
      .write "rank" (.raw [8]), .write "else" (.raw []), .assemble, .assemble]
    (start.after calls).written = [("rank", [7]), ("else", [])] ∧
      (start.events calls).map (·.answer.toOption.isSome) =
        [false, true, false, true, false, false] := by
  decide +kernel

end ResourceScript.Draft
