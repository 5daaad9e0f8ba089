import Mathlib.Tactic

/-!
# Dictionaries that remember the order of insertion

A dictionary is the list of its entries, oldest first, with one entry per key.
Setting a key that is there keeps its place. Nothing here knows the keys or the
values.
-/

namespace MowerRover

structure Dict (κ ν : Type) where
  entries : List (κ × ν)
  nodup : (entries.map Prod.fst).Nodup

namespace Dict

variable {κ ν : Type}

def keys (d : Dict κ ν) : List κ := d.entries.map Prod.fst

@[ext] theorem ext {d d' : Dict κ ν} (h : d.entries = d'.entries) : d = d' := by
  cases d
  cases d'
  simpa using h

def empty : Dict κ ν := ⟨[], List.nodup_nil⟩

@[simp] theorem entries_empty : (empty : Dict κ ν).entries = [] := rfl

variable [DecidableEq κ]

/-- The value of the first entry of a key. -/
def find (k : κ) : List (κ × ν) → Option ν
  | [] => none
  | e :: rest => if e.1 = k then some e.2 else find k rest

/-- `d[k] = v` on the entries. -/
def setEntry (k : κ) (v : ν) : List (κ × ν) → List (κ × ν)
  | [] => [(k, v)]
  | e :: rest => if e.1 = k then (k, v) :: rest else e :: setEntry k v rest

theorem mem_of_find {k : κ} {v : ν} {l : List (κ × ν)} (h : find k l = some v) : (k, v) ∈ l := by
  induction l with
  | nil => simp [find] at h
  | cons e l ih =>
    rw [find] at h
    split_ifs at h with he
    · obtain rfl := Option.some.inj h
      exact he ▸ List.mem_cons_self
    · exact List.mem_cons_of_mem _ (ih h)

theorem find_eq_some_of_mem {k : κ} {v : ν} {l : List (κ × ν)} (hl : (l.map Prod.fst).Nodup)
    (h : (k, v) ∈ l) : find k l = some v := by
  induction l with
  | nil => simp at h
  | cons e l ih =>
    rw [List.map_cons, List.nodup_cons] at hl
    rcases List.mem_cons.mp h with rfl | h
    · simp [find]
    · have hne : e.1 ≠ k := by
        rintro rfl
        exact hl.1 (List.mem_map.mpr ⟨_, h, rfl⟩)
      rw [find, if_neg hne]
      exact ih hl.2 h

theorem find_eq_none_iff {k : κ} {l : List (κ × ν)} :
    find k l = none ↔ k ∉ l.map Prod.fst := by
  induction l with
  | nil => simp [find]
  | cons e l ih =>
    by_cases he : e.1 = k
    · simp [find, he]
    · simp [find, he, ih, Ne.symm he]

theorem mem_keys_setEntry {k k' : κ} {v : ν} {l : List (κ × ν)} :
    k' ∈ (setEntry k v l).map Prod.fst ↔ k' = k ∨ k' ∈ l.map Prod.fst := by
  induction l with
  | nil => simp [setEntry]
  | cons e l ih =>
    by_cases he : e.1 = k
    · simp [setEntry, he]
    · simp only [setEntry, if_neg he, List.map_cons, List.mem_cons, ih]
      tauto

theorem nodup_setEntry {k : κ} {v : ν} {l : List (κ × ν)} (hl : (l.map Prod.fst).Nodup) :
    ((setEntry k v l).map Prod.fst).Nodup := by
  induction l with
  | nil => simp [setEntry]
  | cons e l ih =>
    rw [List.map_cons, List.nodup_cons] at hl
    by_cases he : e.1 = k
    · rw [setEntry, if_pos he, List.map_cons, List.nodup_cons, ← he]
      exact hl
    · rw [setEntry, if_neg he, List.map_cons, List.nodup_cons, mem_keys_setEntry]
      exact ⟨fun h => h.elim he hl.1, ih hl.2⟩

theorem find_setEntry {k k' : κ} {v : ν} {l : List (κ × ν)} :
    find k' (setEntry k v l) = if k' = k then some v else find k' l := by
  induction l with
  | nil =>
    by_cases hk : k' = k
    · simp [setEntry, find, hk]
    · simp [setEntry, find, hk, Ne.symm hk]
  | cons e l ih =>
    by_cases he : e.1 = k
    · by_cases hk : k' = k
      · simp [setEntry, find, he, hk]
      · simp [setEntry, find, he, hk, Ne.symm hk]
    · rw [setEntry, if_neg he, find, ih, find]
      by_cases hk : k' = k
      · simp [hk, he]
      · simp [hk]

def get? (d : Dict κ ν) (k : κ) : Option ν := find k d.entries

def set (d : Dict κ ν) (k : κ) (v : ν) : Dict κ ν :=
    ⟨setEntry k v d.entries, nodup_setEntry d.nodup⟩

/-- `d.update(entries)`. -/
def update (d : Dict κ ν) (entries : List (κ × ν)) : Dict κ ν :=
  entries.foldl (fun d e => d.set e.1 e.2) d

/-- `{k: d[k] for k in ks if k in d}`. -/
def restrict (d : Dict κ ν) (ks : List κ) : Dict κ ν :=
  empty.update (ks.filterMap fun k => (d.get? k).map (k, ·))

@[simp] theorem get?_empty (k : κ) : (empty : Dict κ ν).get? k = none := rfl

theorem get?_set (d : Dict κ ν) (k k' : κ) (v : ν) :
    (d.set k v).get? k' = if k' = k then some v else d.get? k' := find_setEntry

theorem get?_eq_some_iff {d : Dict κ ν} {k : κ} {v : ν} :
    d.get? k = some v ↔ (k, v) ∈ d.entries :=
  ⟨mem_of_find, find_eq_some_of_mem d.nodup⟩

theorem get?_eq_none_iff {d : Dict κ ν} {k : κ} : d.get? k = none ↔ k ∉ d.keys := find_eq_none_iff

theorem mem_keys_iff {d : Dict κ ν} {k : κ} : k ∈ d.keys ↔ ∃ v, d.get? k = some v := by
  rw [← Option.isSome_iff_exists, ← Option.ne_none_iff_isSome, Ne, get?_eq_none_iff, not_not]

theorem mem_keys_set {d : Dict κ ν} {k k' : κ} {v : ν} :
    k' ∈ (d.set k v).keys ↔ k' = k ∨ k' ∈ d.keys := mem_keys_setEntry

theorem get?_update_of_not_mem {entries : List (κ × ν)} {k : κ} (h : k ∉ entries.map Prod.fst)
    (d : Dict κ ν) : (d.update entries).get? k = d.get? k := by
  induction entries generalizing d with
  | nil => rfl
  | cons e entries ih =>
    rw [List.map_cons, List.mem_cons, not_or] at h
    rw [update, List.foldl_cons, ← update, ih h.2, get?_set, if_neg h.1]

theorem mem_keys_update {entries : List (κ × ν)} {k : κ} {d : Dict κ ν} :
    k ∈ (d.update entries).keys ↔ k ∈ d.keys ∨ k ∈ entries.map Prod.fst := by
  induction entries generalizing d with
  | nil => simp [update]
  | cons e entries ih =>
    rw [update, List.foldl_cons, ← update, ih, mem_keys_set, List.map_cons, List.mem_cons]
    tauto

/-- When a key has one value among the entries, it has that value afterwards. -/
theorem get?_update_of_mem {entries : List (κ × ν)} {k : κ} {v : ν} (h : (k, v) ∈ entries)
    (huniq : ∀ v', (k, v') ∈ entries → v' = v) (d : Dict κ ν) :
    (d.update entries).get? k = some v := by
  induction entries generalizing d with
  | nil => simp at h
  | cons e entries ih =>
    rw [update, List.foldl_cons, ← update]
    by_cases hmem : k ∈ entries.map Prod.fst
    · obtain ⟨⟨k', v'⟩, hv', rfl⟩ := List.mem_map.mp hmem
      obtain rfl := huniq v' (List.mem_cons_of_mem _ hv')
      exact ih hv' (fun w hw => huniq w (List.mem_cons_of_mem _ hw)) _
    · rw [get?_update_of_not_mem hmem, get?_set]
      rcases List.mem_cons.mp h with rfl | h
      · simp
      · exact absurd (List.mem_map.mpr ⟨_, h, rfl⟩) hmem

theorem mem_restricted {d : Dict κ ν} {ks : List κ} {k : κ} {v : ν} :
    (k, v) ∈ ks.filterMap (fun k => (d.get? k).map (k, ·)) ↔ k ∈ ks ∧ d.get? k = some v := by
  simp only [List.mem_filterMap, Option.map_eq_some_iff, Prod.mk.injEq]
  constructor
  · rintro ⟨_, hk, v', hv', rfl, rfl⟩
    exact ⟨hk, hv'⟩
  · rintro ⟨hk, hv⟩
    exact ⟨k, hk, v, hv, rfl, rfl⟩

theorem get?_restrict (d : Dict κ ν) (ks : List κ) (k : κ) :
    (d.restrict ks).get? k = if k ∈ ks then d.get? k else none := by
  by_cases h : k ∈ ks ∧ ∃ v, d.get? k = some v
  · obtain ⟨hk, v, hv⟩ := h
    rw [if_pos hk, hv]
    refine get?_update_of_mem (mem_restricted.mpr ⟨hk, hv⟩) (fun v' hv' => ?_) _
    exact Option.some.inj ((mem_restricted.mp hv').2.symm.trans hv)
  · have hnot : k ∉ (ks.filterMap fun k => (d.get? k).map (k, ·)).map Prod.fst := by
      intro hmem
      obtain ⟨⟨k', v⟩, hv, hk⟩ := List.mem_map.mp hmem
      subst hk
      obtain ⟨hk, hv⟩ := mem_restricted.mp hv
      exact h ⟨hk, v, hv⟩
    rw [restrict, get?_update_of_not_mem hnot, get?_empty]
    split_ifs with hk
    · cases hv : d.get? k with
      | none => rfl
      | some v => exact absurd ⟨hk, v, hv⟩ h
    · rfl

theorem mem_keys_restrict {d : Dict κ ν} {ks : List κ} {k : κ} :
    k ∈ (d.restrict ks).keys ↔ k ∈ ks ∧ k ∈ d.keys := by
  rw [mem_keys_iff, mem_keys_iff, get?_restrict]
  split_ifs with hk <;> simp [hk]

end Dict
end MowerRover
