import ResourceScript.Proofs.Loading

namespace ResourceScript

variable {s : String}

theorem append_ne_empty_left (h : s ≠ "") (t : String) : s ++ t ≠ "" :=
  fun he => h (String.append_eq_empty_iff.mp he).1

theorem append_ne_empty_right (s : String) {t : String} (h : t ≠ "") : s ++ t ≠ "" :=
  fun he => h (String.append_eq_empty_iff.mp he).2

theorem Decimal.render_ne_nil (d : Decimal) : d.render ≠ [] := by
  unfold render
  simp only
  split
  · split
    · simp
    · split <;> simp
  · simp

theorem renderFloat_ne_nil (x : Float) : renderFloat Document.floatWords x ≠ [] := by
  unfold renderFloat
  simp only
  split
  · decide
  · split
    · exact List.append_ne_nil_of_right_ne_nil _ (by decide)
    · split
      · exact List.append_ne_nil_of_right_ne_nil _ (by decide)
      · exact List.append_ne_nil_of_right_ne_nil _ (Decimal.render_ne_nil _)

theorem Date.display_ne_empty (d : Date) : d.display ≠ "" :=
  append_ne_empty_left (append_ne_empty_right _ (by decide)) _

namespace Document

variable {d : Document} {parts : Parts}

theorem quotedWith_ne_empty (hd : ∀ n, d ≠ .shared n) (part : Nat → String) :
    quotedWith part d ≠ "" := by
  cases d with
  | null => simp [quotedWith]
  | bool b => cases b <;> simp [quotedWith]
  | int n =>
    rw [quotedWith]
    change n.repr ≠ ""
    rw [Int.repr_eq_if]
    split
    · exact Nat.repr_ne_empty
    · exact append_ne_empty_left (by decide) _
  | float x =>
    rw [quotedWith]
    exact fun h => renderFloat_ne_nil x (String.ofList_eq_empty_iff.mp h)
  | text s =>
    rw [quotedWith]
    simp [Text.quoted]
  | bytes b => simp [quotedWith, quotedBytes]
  | date d =>
    rw [quotedWith]
    exact append_ne_empty_right _ (by decide)
  | moment d c =>
    rw [quotedWith]
    exact append_ne_empty_right _ (by decide)
  | pair first second =>
    rw [quotedWith]
    exact append_ne_empty_right _ (by decide)
  | list items =>
    rw [quotedWith]
    exact append_ne_empty_right _ (by decide)
  | set items =>
    cases items with
    | nil => simp [quotedWith]
    | cons item items =>
      rw [quotedWith]
      exact append_ne_empty_right _ (by decide)
  | map members =>
    rw [quotedWith]
    exact append_ne_empty_right _ (by decide)
  | shared n => exact absurd rfl (hd n)

theorem ellipsis_ne_empty (d : Document) : ellipsis d ≠ "" := by
  unfold ellipsis
  split <;> decide

/-- Parts inside each other come to an end before the depth does, since none is shown inside itself.
-/
theorem quotedInside_ne_empty {around : List Nat} {depth : Nat} (hnodup : around.Nodup)
    (hlt : ∀ n ∈ around, n < parts.size) (hdepth : parts.size < around.length + depth)
    (d : Document) : quotedInside parts around depth d ≠ "" := by
  induction depth generalizing around d with
  | zero =>
    have hsub : around ⊆ List.range parts.size := fun n hn => List.mem_range.mpr (hlt n hn)
    have hle := (List.subperm_of_subset hnodup hsub).length_le
    rw [List.length_range] at hle
    omega
  | succ depth ih =>
    by_cases hd : ∃ n, d = .shared n
    · obtain ⟨n, rfl⟩ := hd
      rw [quotedInside, quotedWith]
      simp only
      split
      · exact ellipsis_ne_empty _
      case isFalse hnew =>
        by_cases hn : n < parts.size
        · apply ih
          · exact List.nodup_cons.mpr ⟨by simpa using hnew, hnodup⟩
          · exact List.forall_mem_cons.mpr ⟨hn, hlt⟩
          · rw [List.length_cons]
            omega
        · have hnull : whole parts (.shared n) = .null := by
            rw [whole, Array.getElem?_eq_none (Nat.le_of_not_lt hn)]
            rfl
          have hplain (m : Nat) : Document.null ≠ .shared m := nofun
          rw [hnull]
          cases depth <;> exact quotedWith_ne_empty hplain _
    · rw [quotedInside]
      exact quotedWith_ne_empty (fun n h => hd ⟨n, h⟩) _

theorem quoted_ne_empty (parts : Parts) (d : Document) : quoted parts d ≠ "" :=
  quotedInside_ne_empty List.nodup_nil (List.forall_mem_nil _)
    (by rw [List.length_nil, Nat.zero_add]; exact Nat.lt_succ_self _) d

theorem display_ne_empty (hd : d ≠ .text "") : display parts d ≠ "" := by
  cases d with
  | text s => exact fun h => hd (congrArg text h)
  | date d => exact d.display_ne_empty
  | moment d c => exact append_ne_empty_left (append_ne_empty_left d.display_ne_empty _) _
  | _ => exact quoted_ne_empty parts _

theorem HasText.ne_empty (h : HasText parts members key s) : s ≠ "" := by
  obtain ⟨d, -, -, hd, hs⟩ := h
  unfold shown at hs
  split at hs
  · cases hs
    exact display_ne_empty hd
  · cases hs

end Document

namespace TypeTemplate

variable {parts : Document.Parts} {t : TypeTemplate} {types : List TypeTemplate}

theorem DescribedBy.named (h : t.DescribedBy parts members) : ∀ e ∈ t.entries, e.name ≠ "" := by
  intro e he
  obtain ⟨items, -, hitems⟩ := h.entries
  obtain ⟨item, -, members, typeName, -, hname, -⟩ := Except.exists_of_mem_right hitems he
  exact hname.ne_empty

theorem loadTypes_named (h : loadTypes tree file = .ok types) (ht : t ∈ types) :
    ∀ e ∈ t.entries, e.name ≠ "" := by
  obtain ⟨parts, members, index, hmembers⟩ := exists_members_of_loadTypes h ht
  exact (ofMembers_eq_ok hmembers).1.named

end TypeTemplate

end ResourceScript
