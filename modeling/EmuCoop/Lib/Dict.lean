import Mathlib.Data.List.Nodup
import Mathlib.Data.List.Perm.Subperm

/-!
# Insertion-ordered dictionaries

A dictionary as scripting languages have it: every key occurs once, and iteration follows the
order in which the keys were first inserted.  Setting a key that is present keeps its place,
setting a new one appends it, removing one keeps the order of the others.

That every key occurs once is a field, so an ill-formed dictionary cannot be built.
-/

namespace EmuCoop.Lib

/-- An insertion-ordered dictionary. -/
@[ext]
structure Dict (κ ν : Type*) where
  /-- The items in insertion order. -/
  items : List (κ × ν)
  /-- No key occurs twice. -/
  nodup : (items.map Prod.fst).Nodup

namespace Dict

variable {κ ν : Type*}

def empty : Dict κ ν := ⟨[], List.nodup_nil⟩

/-- The keys, in insertion order. -/
def keys (d : Dict κ ν) : List κ := d.items.map Prod.fst

/-- The values, in insertion order of their keys. -/
def values (d : Dict κ ν) : List ν := d.items.map Prod.snd

def size (d : Dict κ ν) : ℕ := d.items.length

@[simp] theorem length_keys (d : Dict κ ν) : d.keys.length = d.size := by simp [keys, size]

@[simp] theorem length_values (d : Dict κ ν) : d.values.length = d.size := by simp [values, size]

@[simp] theorem size_empty : (empty : Dict κ ν).size = 0 := rfl

variable [DecidableEq κ]

def get? (d : Dict κ ν) (k : κ) : Option ν :=
  (d.items.find? fun p => p.1 = k).map Prod.snd

def set (d : Dict κ ν) (k : κ) (v : ν) : Dict κ ν :=
  if h : k ∈ d.keys then
    ⟨d.items.map fun p => if p.1 = k then (k, v) else p, by
      have hfst : (d.items.map fun p => if p.1 = k then (k, v) else p).map Prod.fst
          = d.items.map Prod.fst := by
        rw [List.map_map]
        refine List.map_congr_left fun p _ => ?_
        by_cases hp : p.1 = k <;> simp [hp]
      rw [hfst]
      exact d.nodup⟩
  else
    ⟨d.items ++ [(k, v)], by
      simp only [List.map_append, List.map_cons, List.map_nil]
      refine List.nodup_append.mpr ⟨d.nodup, by simp, ?_⟩
      intro a ha b hb
      obtain rfl : b = k := by simpa using hb
      exact fun hab => h (hab ▸ ha)⟩

/-- Store one value under each of the keys. -/
def setAll (d : Dict κ ν) (keys : List κ) (v : ν) : Dict κ ν :=
  keys.foldl (fun d k => d.set k v) d

/-- The dictionary of a comprehension: the items are stored one after the other. -/
def ofPairs (pairs : List (κ × ν)) : Dict κ ν := pairs.foldl (fun d p => d.set p.1 p.2) empty

def pop (d : Dict κ ν) (k : κ) : Dict κ ν :=
  ⟨d.items.filter fun p => p.1 ≠ k,
    d.nodup.sublist (List.filter_sublist.map Prod.fst)⟩

/-- A pass over the items in order.  For each item, `f` sees the entry of its key in a table `m`,
and returns the entry's new value and what the pass emits for the item. -/
def pass {β γ : Type*} (d : Dict κ ν) (f : κ → ν → β → β × List γ) (m : κ → β) :
    (κ → β) × List γ :=
  d.items.foldl (fun acc p =>
    let r := f p.1 p.2 (acc.1 p.1)
    (Function.update acc.1 p.1 r.1, acc.2 ++ r.2)) (m, [])

/-! ## Lookup -/

/-- In a list with distinct keys, the pair found under a key is the pair that is in the list. -/
private theorem find_eq_some_of_mem {l : List (κ × ν)} (hl : (l.map Prod.fst).Nodup)
    {k : κ} {v : ν} (h : (k, v) ∈ l) : l.find? (fun p => p.1 = k) = some (k, v) := by
  induction l with
  | nil => simp at h
  | cons p l ih =>
    obtain ⟨hp, hl'⟩ := List.nodup_cons.mp hl
    rcases List.mem_cons.mp h with rfl | hmem
    · simp
    · have hne : p.1 ≠ k := by
        rintro rfl
        exact hp (List.mem_map.mpr ⟨_, hmem, rfl⟩)
      simp only [List.find?_cons, hne, decide_false]
      exact ih hl' hmem

/-- A key has a value exactly if the pair is an item. -/
theorem get?_eq_some_iff {d : Dict κ ν} {k : κ} {v : ν} :
    d.get? k = some v ↔ (k, v) ∈ d.items := by
  constructor
  · intro h
    simp only [get?, Option.map_eq_some_iff] at h
    obtain ⟨⟨k', v'⟩, hf, rfl⟩ := h
    have hk : k' = k := by simpa using List.find?_some hf
    exact hk ▸ List.mem_of_find?_eq_some hf
  · intro h
    simp [get?, find_eq_some_of_mem d.nodup h]

/-- A key has no value exactly if it is not a key. -/
theorem get?_eq_none_iff {d : Dict κ ν} {k : κ} : d.get? k = none ↔ k ∉ d.keys := by
  constructor
  · intro h hk
    obtain ⟨⟨k', v⟩, hp, rfl⟩ := List.mem_map.mp hk
    simp [get?_eq_some_iff.mpr hp] at h
  · intro hk
    refine Option.eq_none_iff_forall_ne_some.mpr fun v hv => hk ?_
    exact List.mem_map.mpr ⟨_, get?_eq_some_iff.mp hv, rfl⟩

/-- A key with a value is a key. -/
theorem mem_keys_of_get? {d : Dict κ ν} {k : κ} {v : ν} (h : d.get? k = some v) : k ∈ d.keys :=
  List.mem_map.mpr ⟨_, get?_eq_some_iff.mp h, rfl⟩

@[simp] theorem get?_empty (k : κ) : (empty : Dict κ ν).get? k = none := rfl

/-- A dictionary without a value is empty. -/
theorem eq_empty_of_get? {d : Dict κ ν} (h : ∀ k v, d.get? k ≠ some v) : d = empty := by
  refine Dict.ext (List.eq_nil_iff_forall_not_mem.mpr fun p hp => ?_)
  exact h p.1 p.2 (get?_eq_some_iff.mpr hp)

/-- Looking up a key that was just set. -/
@[simp] theorem get?_set_self (d : Dict κ ν) (k : κ) (v : ν) : (d.set k v).get? k = some v := by
  rw [get?_eq_some_iff]
  by_cases h : k ∈ d.keys
  · obtain ⟨p, hp, rfl⟩ := List.mem_map.mp h
    simp only [set, h, ↓reduceDIte]
    exact List.mem_map.mpr ⟨p, hp, by simp⟩
  · simp [set, h]

/-- Setting a key leaves the others alone. -/
@[simp] theorem get?_set_of_ne (d : Dict κ ν) {k k' : κ} (v : ν) (hne : k' ≠ k) :
    (d.set k v).get? k' = d.get? k' := by
  refine Option.ext fun w => ?_
  rw [get?_eq_some_iff, get?_eq_some_iff]
  by_cases h : k ∈ d.keys
  · simp only [set, h, ↓reduceDIte, List.mem_map]
    constructor
    · rintro ⟨p, hp, heq⟩
      by_cases hpk : p.1 = k
      · simp only [hpk, if_true, Prod.mk.injEq] at heq
        exact absurd heq.1.symm hne
      · simp only [hpk, if_false] at heq
        exact heq ▸ hp
    · intro hmem
      exact ⟨_, hmem, by simp [hne]⟩
  · simp [set, h, hne]

/-- Looking up a key after a value has been stored under each of some keys. -/
theorem get?_setAll (d : Dict κ ν) (keys : List κ) (v : ν) (k : κ) :
    (d.setAll keys v).get? k = if k ∈ keys then some v else d.get? k := by
  induction keys generalizing d with
  | nil => rfl
  | cons key keys ih =>
    rw [setAll, List.foldl_cons, ← setAll, ih (d.set key v)]
    by_cases hk : k = key
    · subst hk
      simp
    · simp [hk]

/-- A popped key is gone. -/
@[simp] theorem get?_pop_self (d : Dict κ ν) (k : κ) : (d.pop k).get? k = none := by
  rw [get?_eq_none_iff]
  simp [pop, keys]

/-- Popping a key leaves the others alone. -/
@[simp] theorem get?_pop_of_ne (d : Dict κ ν) {k k' : κ} (hne : k' ≠ k) :
    (d.pop k).get? k' = d.get? k' := by
  refine Option.ext fun w => ?_
  rw [get?_eq_some_iff, get?_eq_some_iff]
  simp [pop, hne]

/-- A popped dictionary has no new values. -/
theorem get?_of_pop {d : Dict κ ν} {k k' : κ} {v : ν} (h : (d.pop k).get? k' = some v) :
    k' ≠ k ∧ d.get? k' = some v := by
  by_cases hk : k' = k
  · subst hk
    simp at h
  · exact ⟨hk, by simpa [hk] using h⟩

/-! ## Keys and sizes -/

/-- Setting a key that is present keeps the keys. -/
theorem keys_set_of_mem {d : Dict κ ν} {k : κ} (h : k ∈ d.keys) (v : ν) :
    (d.set k v).keys = d.keys := by
  rw [set, dif_pos h, keys, keys, List.map_map]
  refine List.map_congr_left fun p _ => ?_
  by_cases hp : p.1 = k <;> simp [hp]

/-- Setting a new key appends it. -/
theorem keys_set_of_notMem {d : Dict κ ν} {k : κ} (h : k ∉ d.keys) (v : ν) :
    (d.set k v).keys = d.keys ++ [k] := by
  rw [set, dif_neg h, keys, keys, List.map_append]
  rfl

/-- Pairs with new and different keys are stored behind the items that are there. -/
theorem items_foldl_set {pairs : List (κ × ν)} (h : (pairs.map Prod.fst).Nodup) (d : Dict κ ν)
    (hnew : ∀ p ∈ pairs, p.1 ∉ d.keys) :
    (pairs.foldl (fun d p => d.set p.1 p.2) d).items = d.items ++ pairs := by
  induction pairs generalizing d with
  | nil => simp
  | cons p pairs ih =>
    obtain ⟨hp, hrest⟩ := List.nodup_cons.mp h
    have hfirst := hnew p List.mem_cons_self
    have hitems : (d.set p.1 p.2).items = d.items ++ [p] := by rw [set, dif_neg hfirst]
    rw [List.foldl_cons, ih hrest, hitems, List.append_assoc, List.singleton_append]
    intro q hq hmem
    rw [keys_set_of_notMem hfirst] at hmem
    rcases List.mem_append.mp hmem with hold | heq
    · exact hnew q (List.mem_cons_of_mem p hq) hold
    · exact hp (List.mem_singleton.mp heq ▸ List.mem_map_of_mem hq)

/-- A comprehension with different keys. -/
theorem items_ofPairs {pairs : List (κ × ν)} (h : (pairs.map Prod.fst).Nodup) :
    (ofPairs pairs).items = pairs := by
  rw [ofPairs, items_foldl_set h empty (by simp [keys, empty])]
  rfl

theorem mem_of_get?_foldl_set {pairs : List (κ × ν)} {d : Dict κ ν} {k : κ} {v : ν}
    (h : (pairs.foldl (fun d p => d.set p.1 p.2) d).get? k = some v) :
    (k, v) ∈ pairs ∨ d.get? k = some v := by
  induction pairs generalizing d with
  | nil => exact .inr h
  | cons p pairs ih =>
    rcases ih h with hmem | hget
    · exact .inl (List.mem_cons_of_mem p hmem)
    · by_cases hk : k = p.1
      · rw [hk, get?_set_self] at hget
        obtain rfl := Option.some.inj hget
        exact .inl (hk ▸ List.mem_cons_self)
      · rw [get?_set_of_ne d p.2 hk] at hget
        exact .inr hget

/-- What a comprehension stores is one of its pairs. -/
theorem mem_of_get?_ofPairs {pairs : List (κ × ν)} {k : κ} {v : ν}
    (h : (ofPairs pairs).get? k = some v) : (k, v) ∈ pairs := by
  rcases mem_of_get?_foldl_set h with hmem | hget
  · exact hmem
  · rw [get?_empty] at hget
    cases hget

/-- Where a key is put only depends on the keys. -/
theorem keys_set_congr {μ : Type*} {d : Dict κ ν} {d' : Dict κ μ} (h : d.keys = d'.keys) (k : κ)
    (v : ν) (w : μ) : (d.set k v).keys = (d'.set k w).keys := by
  by_cases hk : k ∈ d.keys
  · rw [keys_set_of_mem hk, keys_set_of_mem (h ▸ hk), h]
  · rw [keys_set_of_notMem hk, keys_set_of_notMem (h ▸ hk), h]

/-- Popping a key takes it out of the keys. -/
theorem keys_pop (d : Dict κ ν) (k : κ) : (d.pop k).keys = d.keys.filter fun k' => k' ≠ k := by
  simp [keys, pop, List.filter_map, Function.comp_def]

/-- The size after setting a key that is present. -/
theorem size_set_of_some {d : Dict κ ν} {k : κ} {w : ν} (h : d.get? k = some w) (v : ν) :
    (d.set k v).size = d.size := by
  rw [← length_keys, keys_set_of_mem (mem_keys_of_get? h), length_keys]

/-- The size after setting a new key. -/
theorem size_set_of_none {d : Dict κ ν} {k : κ} (h : d.get? k = none) (v : ν) :
    (d.set k v).size = d.size + 1 := by
  rw [← length_keys, keys_set_of_notMem (get?_eq_none_iff.mp h)]
  simp

/-- The size after removing a key that is present. -/
theorem size_pop_of_some {d : Dict κ ν} {k : κ} {v : ν} (h : d.get? k = some v) :
    (d.pop k).size + 1 = d.size := by
  obtain ⟨items, nodup⟩ := d
  have hmem : (k, v) ∈ items := get?_eq_some_iff.mp h
  clear h
  simp only [pop, size]
  induction items with
  | nil => simp at hmem
  | cons p items ih =>
    obtain ⟨hp, hnodup⟩ := List.nodup_cons.mp nodup
    rcases List.mem_cons.mp hmem with rfl | hmem
    -- the key occurs nowhere else
    · have hrest : items.filter (fun p => p.1 ≠ k) = items := by
        refine List.filter_eq_self.mpr fun q hq => ?_
        have hne : q.1 ≠ k := fun heq => hp (heq ▸ List.mem_map.mpr ⟨q, hq, rfl⟩)
        simpa using hne
      rw [List.filter_cons_of_neg (by simp), hrest, List.length_cons]
    · have hne : p.1 ≠ k := fun heq => hp (heq ▸ List.mem_map.mpr ⟨_, hmem, rfl⟩)
      simpa [hne] using ih hnodup hmem

/-- Removing a key leaves at most as many items. -/
theorem size_pop_le (d : Dict κ ν) (k : κ) : (d.pop k).size ≤ d.size :=
  List.length_filter_le _ _

/-- A dictionary whose keys are all keys of another one is no larger. -/
theorem size_le_of_get? {μ : Type*} {d : Dict κ ν} {d' : Dict κ μ}
    (h : ∀ k v, d.get? k = some v → d'.get? k ≠ none) : d.size ≤ d'.size := by
  have hsub : d.keys ⊆ d'.keys := by
    intro k hk
    obtain ⟨v, hv⟩ := Option.ne_none_iff_exists'.mp fun hnone => get?_eq_none_iff.mp hnone hk
    by_contra hnot
    exact h k v hv (get?_eq_none_iff.mpr hnot)
  have hlen : d.keys.length ≤ d'.keys.length := (d.nodup.subperm hsub).length_le
  rwa [length_keys, length_keys] at hlen

omit [DecidableEq κ] in
/-- A dictionary with two items has two different keys. -/
theorem items_of_size_two {d : Dict κ ν} (h : d.size = 2) :
    ∃ p q, d.items = [p, q] ∧ p.1 ≠ q.1 := by
  obtain ⟨p, q, hitems⟩ := List.length_eq_two.mp h
  refine ⟨p, q, hitems, ?_⟩
  have hnodup := d.nodup
  rw [hitems] at hnodup
  simpa using hnodup

/-- A value is stored under some key. -/
theorem mem_values {d : Dict κ ν} {v : ν} : v ∈ d.values ↔ ∃ k, d.get? k = some v := by
  constructor
  · intro h
    obtain ⟨⟨k, w⟩, hp, rfl⟩ := List.mem_map.mp h
    exact ⟨k, get?_eq_some_iff.mpr hp⟩
  · rintro ⟨k, hk⟩
    exact List.mem_map.mpr ⟨(k, v), get?_eq_some_iff.mp hk, rfl⟩

/-- The values after one has been stored: the new one, or one that was there. -/
theorem mem_values_of_set {d : Dict κ ν} {k : κ} {v w : ν} (h : w ∈ (d.set k v).values) :
    w = v ∨ w ∈ d.values := by
  obtain ⟨k', hk'⟩ := mem_values.mp h
  by_cases hk : k' = k
  · subst hk
    exact .inl (by simpa using hk'.symm)
  · exact .inr (mem_values.mpr ⟨k', by simpa [hk] using hk'⟩)

/-- The values after a key has been removed were there. -/
theorem mem_values_of_pop {d : Dict κ ν} {k : κ} {w : ν} (h : w ∈ (d.pop k).values) :
    w ∈ d.values := by
  obtain ⟨k', hk'⟩ := mem_values.mp h
  exact mem_values.mpr ⟨k', (get?_of_pop hk').2⟩

/-! ## Passes -/

section Pass

variable {β γ : Type*}

/-- A pass over a list of items with distinct keys leaves the other keys alone. -/
private theorem foldl_pass_of_notMem (f : κ → ν → β → β × List γ) (l : List (κ × ν))
    (acc : (κ → β) × List γ) {k : κ} (hk : k ∉ l.map Prod.fst) :
    (l.foldl (fun acc p =>
      let r := f p.1 p.2 (acc.1 p.1)
      (Function.update acc.1 p.1 r.1, acc.2 ++ r.2)) acc).1 k = acc.1 k := by
  induction l generalizing acc with
  | nil => rfl
  | cons p l ih =>
    simp only [List.map_cons, List.mem_cons, not_or] at hk
    rw [List.foldl_cons, ih _ hk.2]
    simp [hk.1]

/-- A pass over a list of items with distinct keys: every item meets the entry its key had at the
start, and the emissions come in order. -/
private theorem foldl_pass (f : κ → ν → β → β × List γ) (l : List (κ × ν))
    (hl : (l.map Prod.fst).Nodup) (acc : (κ → β) × List γ) :
    (∀ p ∈ l, (l.foldl (fun acc p =>
      let r := f p.1 p.2 (acc.1 p.1)
      (Function.update acc.1 p.1 r.1, acc.2 ++ r.2)) acc).1 p.1 = (f p.1 p.2 (acc.1 p.1)).1) ∧
    (l.foldl (fun acc p =>
      let r := f p.1 p.2 (acc.1 p.1)
      (Function.update acc.1 p.1 r.1, acc.2 ++ r.2)) acc).2
        = acc.2 ++ l.flatMap fun p => (f p.1 p.2 (acc.1 p.1)).2 := by
  induction l generalizing acc with
  | nil => simp
  | cons q l ih =>
    obtain ⟨hq, hl'⟩ := List.nodup_cons.mp hl
    obtain ⟨ih₁, ih₂⟩ := ih hl'
      (Function.update acc.1 q.1 (f q.1 q.2 (acc.1 q.1)).1, acc.2 ++ (f q.1 q.2 (acc.1 q.1)).2)
    -- the key of this round is met in no later one
    have hne : ∀ p ∈ l, p.1 ≠ q.1 := fun p hp h =>
      hq (h ▸ List.mem_map.mpr ⟨p, hp, rfl⟩)
    refine ⟨?_, ?_⟩
    · intro p hp
      rw [List.foldl_cons]
      rcases List.mem_cons.mp hp with rfl | hp'
      · rw [foldl_pass_of_notMem f l _ hq]
        simp
      · rw [ih₁ p hp']
        simp [hne p hp']
    · rw [List.foldl_cons, ih₂, List.flatMap_cons, List.append_assoc]
      congr 2
      refine List.flatMap_congr fun p hp => ?_
      simp [hne p hp]

/-- What a pass leaves in the table under a key of the dictionary. -/
theorem pass_fst_of_get? (d : Dict κ ν) (f : κ → ν → β → β × List γ) (m : κ → β) {k : κ} {v : ν}
    (h : d.get? k = some v) : (d.pass f m).1 k = (f k v (m k)).1 :=
  (foldl_pass f d.items d.nodup (m, [])).1 (k, v) (get?_eq_some_iff.mp h)

/-- A pass leaves the entries of other keys alone. -/
theorem pass_fst_of_none (d : Dict κ ν) (f : κ → ν → β → β × List γ) (m : κ → β) {k : κ}
    (h : d.get? k = none) : (d.pass f m).1 k = m k :=
  foldl_pass_of_notMem f d.items (m, []) (get?_eq_none_iff.mp h)

/-- What a pass emits. -/
theorem pass_snd (d : Dict κ ν) (f : κ → ν → β → β × List γ) (m : κ → β) :
    (d.pass f m).2 = d.items.flatMap fun p => (f p.1 p.2 (m p.1)).2 := by
  have h := (foldl_pass f d.items d.nodup (m, [])).2
  simpa [pass] using h

/-- A pass that emits nothing for any item emits nothing. -/
theorem pass_snd_eq_nil {d : Dict κ ν} {f : κ → ν → β → β × List γ} {m : κ → β}
    (h : ∀ k v, d.get? k = some v → (f k v (m k)).2 = []) : (d.pass f m).2 = [] := by
  rw [pass_snd, List.flatMap_eq_nil_iff]
  intro p hp
  exact h p.1 p.2 (get?_eq_some_iff.mpr hp)

/-- When what is emitted for an item carries its key, the emissions with key `k` are those of the
item of `k`. -/
private theorem flatMap_filter_key {l : List (κ × ν)} (hl : (l.map Prod.fst).Nodup)
    (g : κ × ν → List γ) (key : γ → κ) (hkey : ∀ p, ∀ c ∈ g p, key c = p.1)
    {k : κ} {v : ν} (h : (k, v) ∈ l) :
    (l.flatMap g).filter (fun c => key c = k) = g (k, v) := by
  induction l with
  | nil => simp at h
  | cons p l ih =>
    obtain ⟨hp, hl'⟩ := List.nodup_cons.mp hl
    rw [List.flatMap_cons, List.filter_append]
    rcases List.mem_cons.mp h with rfl | hmem
    -- the other items emit nothing with this key
    · have hrest : (l.flatMap g).filter (fun c => key c = k) = [] := by
        refine List.filter_eq_nil_iff.mpr fun c hc => ?_
        obtain ⟨q, hq, hcq⟩ := List.mem_flatMap.mp hc
        have hne : q.1 ≠ k := fun hqk => hp (hqk ▸ List.mem_map.mpr ⟨q, hq, rfl⟩)
        simpa [hkey q c hcq] using hne
      rw [hrest, List.append_nil]
      exact List.filter_eq_self.mpr fun c hc => by simpa using hkey _ c hc
    · have hne : p.1 ≠ k := fun hpk => hp (hpk ▸ List.mem_map.mpr ⟨_, hmem, rfl⟩)
      have hhead : (g p).filter (fun c => key c = k) = [] := by
        refine List.filter_eq_nil_iff.mpr fun c hc => ?_
        simpa [hkey p c hc] using hne
      rw [hhead, List.nil_append]
      exact ih hl' hmem

/-- When the emissions for an item carry its key, those with key `k` are what the pass emits
for `k`. -/
theorem pass_snd_filter (d : Dict κ ν) (f : κ → ν → β → β × List γ) (m : κ → β) (key : γ → κ)
    (hkey : ∀ k v b, ∀ c ∈ (f k v b).2, key c = k) {k : κ} {v : ν} (h : d.get? k = some v) :
    (d.pass f m).2.filter (fun c => key c = k) = (f k v (m k)).2 := by
  rw [pass_snd]
  exact flatMap_filter_key d.nodup (fun p => (f p.1 p.2 (m p.1)).2) key
    (fun p c hc => hkey _ _ _ c hc) (get?_eq_some_iff.mp h)

end Pass

end Dict

end EmuCoop.Lib
