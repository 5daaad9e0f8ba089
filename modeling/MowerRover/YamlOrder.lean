import MowerRover.YamlPath

/-!
# Mappings and the order of their entries

The entries of a mapping as Python changes them, and documents that differ in
the order of entries only. Two keys are one when Python takes them for equal,
numbers and booleans by their value.
-/

namespace MowerRover.Yaml

open Numeric

/-- What a key is compared by. -/
inductive Hash
  | null
  | number (f : PyFloat)
  | text (s : String)
  deriving DecidableEq, Repr

/-- A list or a mapping is no key, and not-a-number is equal to none. -/
def hash : Yaml → Option Hash
  | .null => some .null
  | .bool b => some (.number (.fin (if b then 1 else 0)))
  | .int i => some (.number (.fin i))
  | .float .nan => none
  | .float f => some (.number f)
  | .str s => some (.text s)
  | .list _ => none
  | .dict _ => none

def sameKey (a b : Yaml) : Bool :=
  match hash a, hash b with
  | some x, some y => x = y
  | _, _ => false

/-- `d[key] = v`. -/
def setItem (key v : Yaml) : List (Yaml × Yaml) → List (Yaml × Yaml)
  | [] => [(key, v)]
  | e :: rest => if sameKey e.1 key then (e.1, v) :: rest else e :: setItem key v rest

/-- `d.update(entries)`. -/
def update (d entries : List (Yaml × Yaml)) : List (Yaml × Yaml) :=
  entries.foldl (fun d e => setItem e.1 e.2 d) d

/-- `d.pop(key, None)`. -/
def pop (key : String) (d : List (Yaml × Yaml)) : List (Yaml × Yaml) :=
  d.filter fun e => !sameKey e.1 (.str key)

def keys (d : List (Yaml × Yaml)) : List Yaml := d.map Prod.fst

/-- No key occurs twice. -/
def Distinct (d : List (Yaml × Yaml)) : Prop := (keys d).Pairwise fun k k' => sameKey k k' = false

section Entries

variable {key v : Yaml} {name : String} {d entries : List (Yaml × Yaml)}

@[simp] theorem keys_nil : keys [] = [] := rfl

@[simp] theorem keys_cons (e : Yaml × Yaml) : keys (e :: d) = e.1 :: keys d := rfl

@[simp] theorem keys_append : keys (d ++ entries) = keys d ++ keys entries := List.map_append

theorem sameKey_comm (a b : Yaml) : sameKey a b = sameKey b a := by
  unfold sameKey
  cases hash a <;> cases hash b <;> simp [eq_comm]

theorem sameKey_str_iff {a : Yaml} : sameKey a (.str name) = true ↔ a = .str name := by
  cases a with
  | float f => cases f <;> simp [sameKey, hash]
  | _ => simp [sameKey, hash]

theorem sameKey_str_eq_false_iff {a : Yaml} : sameKey a (.str name) = false ↔ a ≠ .str name := by
  rw [← Bool.not_eq_true, sameKey_str_iff]

theorem lookup_eq_none_iff : lookup name d = none ↔ .str name ∉ keys d := by
  induction d with
  | nil => simp [lookup, keys]
  | cons e d ih =>
    by_cases he : e.1 = .str name
    · obtain ⟨k, v⟩ := e
      obtain rfl : k = .str name := he
      simp [lookup_cons]
    · rw [lookup_cons_ne he, ih]
      simp [Ne.symm he]

theorem lookup_of_mem (hd : Distinct d) (h : (.str name, v) ∈ d) : lookup name d = some v := by
  induction d with
  | nil => cases h
  | cons e d ih =>
    obtain ⟨hfirst, hrest⟩ := List.pairwise_cons.mp hd
    rcases List.mem_cons.mp h with rfl | h
    · simp [lookup_cons]
    · have hne := hfirst _ (List.mem_map_of_mem h)
      rw [lookup_cons_ne (sameKey_str_eq_false_iff.mp hne)]
      exact ih hrest h

theorem mem_of_lookup (h : lookup name d = some v) : (.str name, v) ∈ d :=
  (present_str_iff.mpr h).mem

theorem keys_setItem (key v : Yaml) (d : List (Yaml × Yaml)) :
    keys (setItem key v d) = if (keys d).any (sameKey · key) then keys d else keys d ++ [key] := by
  induction d with
  | nil => rfl
  | cons e d ih =>
    by_cases he : sameKey e.1 key = true
    · simp [setItem, he]
    · rw [setItem, if_neg he, keys_cons, ih, keys_cons, List.any_cons]
      rw [Bool.not_eq_true] at he
      rw [he, Bool.false_or]
      split_ifs with hd
      · rfl
      · rfl

theorem setItem_new (h : ∀ k ∈ keys d, sameKey k key = false) :
    setItem key v d = d ++ [(key, v)] := by
  induction d with
  | nil => rfl
  | cons e d ih =>
    rw [keys_cons, List.forall_mem_cons] at h
    rw [setItem, h.1, if_neg Bool.false_ne_true, ih h.2, List.cons_append]

theorem distinct_setItem (key v : Yaml) (hd : Distinct d) : Distinct (setItem key v d) := by
  unfold Distinct
  rw [keys_setItem]
  split_ifs with hkey
  · exact hd
  · rw [List.pairwise_append]
    refine ⟨hd, List.pairwise_singleton _ _, fun k hk k' hk' => ?_⟩
    obtain rfl := List.mem_singleton.mp hk'
    simp only [List.any_eq_true, not_exists, not_and, Bool.not_eq_true] at hkey
    exact hkey k hk

theorem distinct_update (hd : Distinct d) : Distinct (update d entries) := by
  induction entries generalizing d with
  | nil => exact hd
  | cons e entries ih => exact ih (distinct_setItem e.1 e.2 hd)

/-- Entries under new keys are appended. -/
theorem update_new (hentries : Distinct entries)
    (hnew : ∀ k ∈ keys d, ∀ k' ∈ keys entries, sameKey k k' = false) :
    update d entries = d ++ entries := by
  induction entries generalizing d with
  | nil => simp [update]
  | cons e entries ih =>
    obtain ⟨hfirst, hrest⟩ := List.pairwise_cons.mp hentries
    rw [update, List.foldl_cons, ← update,
      setItem_new fun k hk => hnew k hk e.1 List.mem_cons_self, ih hrest, List.append_assoc]
    · rfl
    · intro k hk k' hk'
      rw [keys_append, List.mem_append] at hk
      rcases hk with hk | hk
      · exact hnew k hk k' (List.mem_cons_of_mem _ hk')
      · obtain rfl : k = e.1 := by simpa using hk
        exact hfirst k' hk'

theorem mem_keys_update {k : Yaml} (h : k ∈ keys (update d entries)) :
    k ∈ keys d ∨ k ∈ keys entries := by
  induction entries generalizing d with
  | nil => exact .inl h
  | cons e entries ih =>
    rw [update, List.foldl_cons, ← update] at h
    rcases ih h with h | h
    · rw [keys_setItem] at h
      split_ifs at h with hkey
      · exact .inl h
      · rcases List.mem_append.mp h with h | h
        · exact .inl h
        · exact .inr (List.mem_singleton.mp h ▸ List.mem_cons_self)
    · exact .inr (List.mem_cons_of_mem _ h)

/-- The entries of a mapping of Python. -/
structure Mapping where
  entries : List (Yaml × Yaml)
  distinct : Distinct entries

def Mapping.empty : Mapping := ⟨[], List.Pairwise.nil⟩

/-- `{k: v for k, v in entries}`. -/
def Mapping.ofEntries (entries : List (Yaml × Yaml)) : Mapping :=
  ⟨update [] entries, distinct_update List.Pairwise.nil⟩

theorem Mapping.ofEntries_of_distinct (h : Distinct entries) :
    (ofEntries entries).entries = entries := update_new h (by simp)

theorem str_mem_keys_setItem : .str name ∈ keys (setItem key v d) ↔
    .str name ∈ keys d ∨ key = .str name := by
  rw [keys_setItem]
  split_ifs with hkey
  · constructor
    · exact .inl
    · rintro (h | rfl)
      · exact h
      · obtain ⟨k, hk, hsame⟩ := List.any_eq_true.mp hkey
        exact sameKey_str_iff.mp hsame ▸ hk
  · rw [List.mem_append, List.mem_singleton, eq_comm (b := key)]

theorem str_mem_keys_update : .str name ∈ keys (update d entries) ↔
    .str name ∈ keys d ∨ .str name ∈ keys entries := by
  induction entries generalizing d with
  | nil => simp [update]
  | cons e entries ih =>
    rw [update, List.foldl_cons, ← update, ih, str_mem_keys_setItem, keys_cons, List.mem_cons,
      or_assoc, eq_comm (a := e.1)]

theorem pop_append : pop name (d ++ entries) = pop name d ++ pop name entries :=
    List.filter_append ..

theorem pop_eq_self (h : .str name ∉ keys d) : pop name d = d := by
  rw [pop, List.filter_eq_self]
  intro e he
  rw [Bool.not_eq_true', sameKey_str_eq_false_iff]
  intro hkey
  exact h (hkey ▸ List.mem_map_of_mem he)

theorem str_notMem_keys_pop : .str name ∉ keys (pop name d) := by
  intro h
  obtain ⟨e, he, hkey⟩ := List.mem_map.mp h
  obtain ⟨-, hne⟩ := List.mem_filter.mp he
  rw [Bool.not_eq_true', sameKey_str_eq_false_iff] at hne
  exact hne hkey

end Entries

mutual

/-- The documents differ at most in the order of the entries of their mappings. -/
inductive Same : Yaml → Yaml → Prop
  | refl (v : Yaml) : Same v v
  | list {xs ys : List Yaml} (h : List.Forall₂ Same xs ys) : Same (.list xs) (.list ys)
  | dict {es mid fs : List (Yaml × Yaml)} (hperm : es.Perm mid)
      (h : List.Forall₂ SameEntry mid fs) : Same (.dict es) (.dict fs)

inductive SameEntry : Yaml × Yaml → Yaml × Yaml → Prop
  | mk (key : Yaml) {v w : Yaml} (h : Same v w) : SameEntry (key, v) (key, w)

end

/-- The same of mappings. -/
def Reordered (es fs : List (Yaml × Yaml)) : Prop :=
  ∃ mid, es.Perm mid ∧ List.Forall₂ SameEntry mid fs

section Same

variable {v : Yaml} {name : String} {es fs : List (Yaml × Yaml)}

theorem sameEntries_refl (es : List (Yaml × Yaml)) : List.Forall₂ SameEntry es es :=
  List.forall₂_same.mpr fun e _ => .mk e.1 (.refl e.2)

theorem Same.of_dict (h : Same (.dict es) v) : ∃ fs, v = .dict fs ∧ Reordered es fs := by
  cases h with
  | refl => exact ⟨es, rfl, es, .refl es, sameEntries_refl es⟩
  | dict hperm h => exact ⟨_, rfl, _, hperm, h⟩

/-- Nothing in the value has an order that could change. -/
def Fixed (v : Yaml) : Prop := ∀ w, Same v w → w = v

theorem fixed_null : Fixed .null := by rintro _ ⟨⟩; rfl

theorem fixed_bool (b : Bool) : Fixed (.bool b) := by rintro _ ⟨⟩; rfl

theorem fixed_int (i : ℤ) : Fixed (.int i) := by rintro _ ⟨⟩; rfl

theorem fixed_float (f : PyFloat) : Fixed (.float f) := by rintro _ ⟨⟩; rfl

theorem fixed_str (s : String) : Fixed (.str s) := by rintro _ ⟨⟩; rfl

theorem fixed_list {xs : List Yaml} (hxs : ∀ x ∈ xs, Fixed x) : Fixed (.list xs) := by
  have hitems : ∀ ys, List.Forall₂ Same xs ys → ys = xs := by
    induction xs with
    | nil =>
      intro ys hys
      exact List.forall₂_nil_left_iff.mp hys
    | cons x xs ih =>
      rw [List.forall_mem_cons] at hxs
      intro ys hys
      cases hys with
      | cons hfirst hrest => rw [hxs.1 _ hfirst, ih hxs.2 _ hrest]
  intro w hw
  cases hw with
  | refl => rfl
  | list h => rw [hitems _ h]

theorem keys_eq_of_sameEntry (h : List.Forall₂ SameEntry es fs) : keys es = keys fs := by
  induction es generalizing fs with
  | nil =>
    obtain rfl := List.forall₂_nil_left_iff.mp h
    rfl
  | cons e es ih =>
    cases h with
    | cons hentry hrest =>
      cases hentry
      rw [keys_cons, ih hrest, keys_cons]

theorem Reordered.perm_keys (h : Reordered es fs) : (keys es).Perm (keys fs) := by
  obtain ⟨mid, hperm, hsame⟩ := h
  exact keys_eq_of_sameEntry hsame ▸ hperm.map Prod.fst

theorem Reordered.distinct (h : Reordered es fs) (hes : Distinct es) : Distinct fs := by
  refine (h.perm_keys.pairwise_iff ?_).mp hes
  intro k k' hk
  rwa [sameKey_comm]

theorem exists_of_sameEntry {e : Yaml × Yaml} (h : List.Forall₂ SameEntry es fs) (he : e ∈ es) :
    ∃ w, (e.1, w) ∈ fs ∧ Same e.2 w := by
  induction es generalizing fs with
  | nil => cases he
  | cons first es ih =>
    cases h with
    | cons hentry hrest =>
      rcases List.mem_cons.mp he with rfl | he
      · obtain ⟨key, hsame⟩ := hentry
        exact ⟨_, List.mem_cons_self, hsame⟩
      · obtain ⟨w, hw, hsame⟩ := ih hrest he
        exact ⟨w, List.mem_cons_of_mem _ hw, hsame⟩

theorem Reordered.lookup (h : Reordered es fs) (hes : Distinct es)
    (hfound : Yaml.lookup name es = some v) :
    ∃ w, Yaml.lookup name fs = some w ∧ Same v w := by
  obtain ⟨mid, hperm, hsame⟩ := h
  have hmem := hperm.mem_iff.mp (mem_of_lookup hfound)
  obtain ⟨w, hw, hvw⟩ := exists_of_sameEntry hsame hmem
  exact ⟨w, lookup_of_mem (Reordered.distinct ⟨mid, hperm, hsame⟩ hes) hw, hvw⟩

theorem Reordered.lookup_fixed (h : Reordered es fs) (hes : Distinct es) (hv : Fixed v)
    (hfound : Yaml.lookup name es = some v) : Yaml.lookup name fs = some v := by
  obtain ⟨w, hw, hsame⟩ := h.lookup hes hfound
  rw [hw, hv w hsame]

theorem Reordered.filter (p : Yaml → Bool) (h : Reordered es fs) :
    Reordered (es.filter fun e => p e.1) (fs.filter fun e => p e.1) := by
  obtain ⟨mid, hperm, hsame⟩ := h
  refine ⟨_, hperm.filter _, List.rel_filter ?_ hsame⟩
  intro e f hentry
  cases hentry
  rfl

theorem perm_places (places : List ℕ) (h : (List.range es.length).Perm places) :
    es.Perm (places.map fun i => es.getD i (.null, .null)) := by
  have hes : es = (List.range es.length).map fun i => es.getD i (.null, .null) := by
    apply List.ext_getElem
    · simp
    · intro i hi _
      simp [hi]
  nth_rewrite 1 [hes]
  exact h.map _

end Same

section Sorted

def isText : Yaml → Bool
  | .str _ => true
  | _ => false

/-- The entry does not come after the other one. -/
def comesFirst (e f : Yaml × Yaml) : Bool :=
  match e.1, f.1 with
  | .str k, .str k' => k ≤ k'
  | _, _ => true

/-- The entries of a mapping by their names, if all names are texts. -/
def inOrder (entries : List (Yaml × Yaml)) : List (Yaml × Yaml) :=
  if (keys entries).all isText then entries.insertionSort (comesFirst · ·) else entries

mutual

/-- A document as `yaml.safe_dump` with `sort_keys` writes it. -/
def sortKeys : Yaml → Yaml
  | .list xs => .list (sortItems xs)
  | .dict entries => .dict (inOrder (sortEntries entries))
  | v => v

def sortItems : List Yaml → List Yaml
  | [] => []
  | x :: xs => sortKeys x :: sortItems xs

def sortEntries : List (Yaml × Yaml) → List (Yaml × Yaml)
  | [] => []
  | (key, v) :: entries => (key, sortKeys v) :: sortEntries entries

end

theorem sameEntry_orderedInsert {e f : Yaml × Yaml} {es fs : List (Yaml × Yaml)}
    (hentry : SameEntry e f) (h : List.Forall₂ SameEntry es fs) :
    List.Forall₂ SameEntry (es.orderedInsert (comesFirst · ·) e)
      (fs.orderedInsert (comesFirst · ·) f) := by
  induction h with
  | nil => exact .cons hentry .nil
  | @cons e' f' es fs hfirst hrest ih =>
    have hsame : comesFirst e e' = comesFirst f f' := by
      obtain ⟨key, -⟩ := hentry
      obtain ⟨key', -⟩ := hfirst
      rfl
    rw [List.orderedInsert_cons, List.orderedInsert_cons]
    rw [← hsame]
    split_ifs
    · exact .cons hentry (.cons hfirst hrest)
    · exact .cons hfirst ih

theorem reordered_inOrder {es fs : List (Yaml × Yaml)} (h : List.Forall₂ SameEntry es fs) :
    Reordered es (inOrder fs) := by
  rw [inOrder, ← keys_eq_of_sameEntry h]
  split_ifs with htexts
  · clear htexts
    refine ⟨es.insertionSort (comesFirst · ·), (List.perm_insertionSort _ es).symm, ?_⟩
    induction h with
    | nil => exact .nil
    | cons hfirst hrest ih => exact sameEntry_orderedInsert hfirst ih
  · exact ⟨es, .refl es, h⟩

mutual

theorem same_sortKeys : ∀ v : Yaml, Same v (sortKeys v)
  | .list xs => .list (same_sortItems xs)
  | .dict entries => by
    obtain ⟨mid, hperm, h⟩ := reordered_inOrder (same_sortEntries entries)
    exact .dict hperm h
  | .null | .bool _ | .int _ | .float _ | .str _ => .refl _

theorem same_sortItems : ∀ xs : List Yaml, List.Forall₂ Same xs (sortItems xs)
  | [] => .nil
  | x :: xs => .cons (same_sortKeys x) (same_sortItems xs)

theorem same_sortEntries : ∀ entries : List (Yaml × Yaml),
    List.Forall₂ SameEntry entries (sortEntries entries)
  | [] => .nil
  | (key, v) :: entries => .cons (.mk key (same_sortKeys v)) (same_sortEntries entries)

end

end Sorted

end MowerRover.Yaml
