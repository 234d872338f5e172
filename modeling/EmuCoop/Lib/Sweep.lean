import EmuCoop.Lib.Patching

/-!
# Linear sweeps

A list of items that follow one another, each of which says with its first entry how long it is: a
disassembler finds the instructions of a program that way.  The sweep ends where the list ends, or
at an item that the end of the list cuts off.

What comes behind the first entry of an item does not matter to a sweep.  So a patch whose records
are inside the items leaves the sweep alone, and its records do not get into each other's way.

## Main results

- `sweep_rounds` : rounds enough.
- `mem_sweep` : the items of a sweep are in the list.
- `sweep_congr` : only first entries matter.
- `ascending_flatten` : records inside the items follow one another.
- `sweep_overlay` : a patch inside the items leaves the sweep alone.
-/

namespace EmuCoop.Lib

open Patching

namespace Sweep

variable {β : Type*}

/-- The items from a position on, each with its position and its first entry. -/
def sweep (len : β → ℕ) (l : List β) : ℕ → ℕ → List (ℕ × β)
  | 0, _ => []
  | rounds + 1, i =>
    match l[i]? with
    | none => []
    | some b => if l.length < i + len b then [] else (i, b) :: sweep len l rounds (i + len b)

variable {len : β → ℕ} {l l' : List β} {rounds i j : ℕ} {b : β}

theorem sweep_end (h : l[i]? = none) : sweep len l (rounds + 1) i = [] := by
  simp only [sweep, h]

theorem sweep_cut (h : l[i]? = some b) (hcut : l.length < i + len b) :
    sweep len l (rounds + 1) i = [] := by
  simp only [sweep, h, if_pos hcut]

theorem sweep_item (h : l[i]? = some b) (hroom : i + len b ≤ l.length) :
    sweep len l (rounds + 1) i = (i, b) :: sweep len l rounds (i + len b) := by
  simp only [sweep, h, if_neg (not_lt.mpr hroom)]

/-- A sweep goes on with an item, or it is over. -/
theorem sweep_cases (len : β → ℕ) (l : List β) (i : ℕ) :
    (∃ b, l[i]? = some b ∧ i + len b ≤ l.length) ∨
      l[i]? = none ∨ ∃ b, l[i]? = some b ∧ l.length < i + len b := by
  cases h : l[i]? with
  | none => exact .inr (.inl rfl)
  | some b =>
    rcases Nat.lt_or_ge l.length (i + len b) with hcut | hroom
    · exact .inr (.inr ⟨b, rfl, hcut⟩)
    · exact .inl ⟨b, rfl, hroom⟩

theorem sweep_behind (hi : l.length ≤ i) : sweep len l rounds i = [] := by
  cases rounds with
  | zero => rfl
  | succ rounds => exact sweep_end (List.getElem?_eq_none hi)

/-- **Rounds enough**: as many as there are entries. -/
theorem sweep_rounds (hlen : ∀ b, 0 < len b) {rounds' : ℕ} (h : l.length ≤ i + rounds)
    (h' : l.length ≤ i + rounds') : sweep len l rounds i = sweep len l rounds' i := by
  induction rounds generalizing i rounds' with
  | zero => exact (sweep_behind (by omega)).trans (sweep_behind (by omega)).symm
  | succ rounds ih =>
    rcases Nat.lt_or_ge i l.length with hi | hi
    · obtain ⟨rounds', rfl⟩ : ∃ k, rounds' = k + 1 := Nat.exists_eq_succ_of_ne_zero (by omega)
      obtain ⟨b, hb, hroom⟩ | hend | ⟨b, hb, hcut⟩ := sweep_cases len l i
      · have hpos := hlen b
        rw [sweep_item hb hroom, sweep_item hb hroom]
        rw [ih (by omega : l.length ≤ i + len b + rounds)
          (by omega : l.length ≤ i + len b + rounds')]
      · rw [sweep_end hend, sweep_end hend]
      · rw [sweep_cut hb hcut, sweep_cut hb hcut]
    · rw [sweep_behind hi, sweep_behind hi]

/-- Every item of a sweep is in the list, with all of its entries. -/
theorem mem_sweep {p : ℕ × β} (h : p ∈ sweep len l rounds i) :
    i ≤ p.1 ∧ l[p.1]? = some p.2 ∧ p.1 + len p.2 ≤ l.length := by
  induction rounds generalizing i with
  | zero => simp [sweep] at h
  | succ rounds ih =>
    obtain ⟨b, hb, hroom⟩ | hend | ⟨b, hb, hcut⟩ := sweep_cases len l i
    · rw [sweep_item hb hroom] at h
      rcases List.mem_cons.mp h with rfl | h
      · exact ⟨le_rfl, hb, hroom⟩
      · obtain ⟨hle, hrest⟩ := ih h
        exact ⟨(Nat.le_add_right _ _).trans hle, hrest⟩
    · rw [sweep_end hend] at h
      simp at h
    · rw [sweep_cut hb hcut] at h
      simp at h

/-! ## Inside the items -/

/-- The position is inside an item, behind its first entry. -/
def Interior (len : β → ℕ) (items : List (ℕ × β)) (j : ℕ) : Prop :=
  ∃ p ∈ items, p.1 < j ∧ j < p.1 + len p.2

/-- **Only first entries matter**: what is inside the items may differ. -/
theorem sweep_congr (hlength : l'.length = l.length)
    (h : ∀ j, i ≤ j → ¬ Interior len (sweep len l rounds i) j → l'[j]? = l[j]?) :
    sweep len l' rounds i = sweep len l rounds i := by
  induction rounds generalizing i with
  | zero => rfl
  | succ rounds ih =>
    -- no item begins before the position the sweep has come to
    have hfirst : l'[i]? = l[i]? := by
      refine h i le_rfl ?_
      rintro ⟨p, hp, hlt, -⟩
      have hle := (mem_sweep hp).1
      omega
    obtain ⟨b, hb, hroom⟩ | hend | ⟨b, hb, hcut⟩ := sweep_cases len l i
    · rw [sweep_item hb hroom] at h ⊢
      rw [sweep_item (hfirst.trans hb) (hlength ▸ hroom)]
      congr 1
      refine ih fun j hj hout => h j (by omega) ?_
      rintro ⟨p, hp, hlo, hhi⟩
      rcases List.mem_cons.mp hp with rfl | hp
      · exact absurd hhi (not_lt.mpr hj)
      · exact hout ⟨p, hp, hlo, hhi⟩
    · rw [sweep_end hend, sweep_end (hfirst.trans hend)]
    · rw [sweep_cut hb hcut, sweep_cut (hfirst.trans hb) (hlength ▸ hcut)]

/-- The records are inside the item and follow one another. -/
structure Inside (len : β → ℕ) (p : ℕ × β) (rs : List (ℕ × List β)) : Prop where
  ascending : Ascending (p.1 + 1) rs
  stop : ∀ r ∈ rs, r.1 + r.2.length ≤ p.1 + len p.2

theorem Inside.length_overlay {p : ℕ × β} {rs : List (ℕ × List β)} (fill : β)
    (h : Inside len p rs) (hroom : p.1 + len p.2 ≤ l.length) :
    (overlay fill l rs).length = l.length :=
  length_overlay_of_room fun r hr => (h.stop r hr).trans hroom

/-- What is behind the item stays. -/
theorem Inside.overlay_behind {p : ℕ × β} {rs : List (ℕ × List β)} {fill : β}
    (h : Inside len p rs) (hroom : p.1 + len p.2 ≤ l.length) (hj : p.1 + len p.2 ≤ j) :
    (overlay fill l rs)[j]? = l[j]? := by
  rcases Nat.lt_or_ge j l.length with hlt | hge
  · refine overlay_uncovered ?_ hlt
    rintro ⟨r, hr, -, hhi⟩
    have hstop := h.stop r hr
    omega
  · have hlength := h.length_overlay fill hroom
    rw [List.getElem?_eq_none hge, List.getElem?_eq_none (by omega)]

variable {records : List (List (ℕ × List β))}

/-- Records inside the items follow one another. -/
theorem ascending_flatten
    (h : List.Forall₂ (Inside len) (sweep len l rounds i) records) :
    Ascending i records.flatten := by
  induction rounds generalizing i records with
  | zero =>
    cases h
    exact trivial
  | succ rounds ih =>
    obtain ⟨b, hb, hroom⟩ | hend | ⟨b, hb, hcut⟩ := sweep_cases len l i
    · rw [sweep_item hb hroom] at h
      cases h with
      | cons hitem hrest =>
        rw [List.flatten_cons]
        exact (hitem.ascending.mono (Nat.le_succ i)).append hitem.stop (Nat.le_add_right _ _)
          (ih hrest)
    · rw [sweep_end hend] at h
      cases h
      exact trivial
    · rw [sweep_cut hb hcut] at h
      cases h
      exact trivial

section Items

variable {α γ : Type*} {R : α → List γ → Prop} {items : List α} {lists : List (List γ)}

/-- Every item has its list. -/
theorem exists_list_of_mem (h : List.Forall₂ R items lists) {a : α} (ha : a ∈ items) :
    ∃ list, R a list ∧ ∀ c ∈ list, c ∈ lists.flatten := by
  induction h with
  | nil => simp at ha
  | @cons a' list items lists hitem _ ih =>
    rw [List.flatten_cons]
    rcases List.mem_cons.mp ha with rfl | ha
    · exact ⟨list, hitem, fun c hc => List.mem_append_left _ hc⟩
    · obtain ⟨list', hitem', hmem⟩ := ih ha
      exact ⟨list', hitem', fun c hc => List.mem_append_right _ (hmem c hc)⟩

/-- What is in one of the lists belongs to an item. -/
theorem exists_item_of_mem (h : List.Forall₂ R items lists) {c : γ} (hc : c ∈ lists.flatten) :
    ∃ a ∈ items, ∃ list, R a list ∧ c ∈ list := by
  induction h with
  | nil => simp at hc
  | @cons a list items lists hitem _ ih =>
    rw [List.flatten_cons] at hc
    rcases List.mem_append.mp hc with hc | hc
    · exact ⟨a, List.mem_cons_self, list, hitem, hc⟩
    · obtain ⟨a', ha', hlist⟩ := ih hc
      exact ⟨a', List.mem_cons_of_mem a ha', hlist⟩

end Items

theorem length_overlay_sweep (fill : β)
    (h : List.Forall₂ (Inside len) (sweep len l rounds i) records) :
    (overlay fill l records.flatten).length = l.length := by
  refine length_overlay_of_room fun r hr => ?_
  obtain ⟨p, hp, rs, hinside, hmem⟩ := exists_item_of_mem h hr
  exact (hinside.stop r hmem).trans (mem_sweep hp).2.2

/-- **A patch inside the items leaves the sweep alone.** -/
theorem sweep_overlay {fill : β}
    (h : List.Forall₂ (Inside len) (sweep len l rounds i) records) :
    sweep len (overlay fill l records.flatten) rounds i = sweep len l rounds i := by
  have hlength := length_overlay_sweep fill h
  refine sweep_congr hlength fun j _ hout => ?_
  rcases Nat.lt_or_ge j l.length with hj | hj
  · refine overlay_uncovered ?_ hj
    rintro ⟨r, hr, hlo, hhi⟩
    obtain ⟨p, hp, rs, hinside, hmem⟩ := exists_item_of_mem h hr
    have hstart := hinside.ascending.start_le r hmem
    have hstop := hinside.stop r hmem
    exact hout ⟨p, hp, by omega, by omega⟩
  · rw [List.getElem?_eq_none hj, List.getElem?_eq_none (by omega)]

end Sweep

end EmuCoop.Lib
