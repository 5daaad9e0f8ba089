import MowerRover.Yaml

/-!
# Places in a document

A place is the list of keys that lead to it from the root. Of two entries under
one key the first counts.
-/

namespace MowerRover.Yaml

/-- The value of a key, which need not be a text. -/
def Present (key v : Yaml) (entries : List (Yaml × Yaml)) : Prop :=
  ∃ front back, entries = front ++ (key, v) :: back ∧ ∀ e ∈ front, e.1 ≠ key

/-- The document has the value at the place. -/
inductive At : Yaml → List Yaml → Yaml → Prop
  | here (v : Yaml) : At v [] v
  | there {entries : List (Yaml × Yaml)} {key v w : Yaml} {path : List Yaml} :
      Present key v entries → At v path w → At (.dict entries) (key :: path) w

/-- A value without entries. -/
def IsLeaf : Yaml → Prop
  | .dict _ => False
  | _ => True

theorem isLeaf_str (s : String) : IsLeaf (.str s) := trivial

section Present

variable {key v : Yaml} {entries : List (Yaml × Yaml)}

theorem Present.mem (h : Present key v entries) : (key, v) ∈ entries := by
  obtain ⟨front, back, rfl, -⟩ := h
  simp

theorem exists_present {e : Yaml × Yaml} (h : e ∈ entries) : ∃ v, Present e.1 v entries := by
  induction entries with
  | nil => cases h
  | cons first entries ih =>
    by_cases hfirst : first.1 = e.1
    · exact ⟨first.2, [], entries, by rw [← hfirst]; rfl, by simp⟩
    · rcases List.mem_cons.mp h with rfl | h
      · exact absurd rfl hfirst
      · obtain ⟨v, front, back, heq, hfront⟩ := ih h
        refine ⟨v, first :: front, back, by rw [heq]; rfl, ?_⟩
        exact List.forall_mem_cons.mpr ⟨hfirst, hfront⟩

theorem lookup_cons_ne {key : String} {e : Yaml × Yaml} (h : e.1 ≠ .str key) :
    lookup key (e :: entries) = lookup key entries := by
  obtain ⟨k, v⟩ := e
  cases k with
  | str k => rw [lookup_cons, if_neg fun hk => h (congrArg Yaml.str hk)]
  | _ => rfl

theorem present_str_iff {key : String} : Present (.str key) v entries ↔
    lookup key entries = some v := by
  constructor
  · rintro ⟨front, back, rfl, hfront⟩
    induction front with
    | nil => simp [lookup_cons]
    | cons e front ih =>
      rw [List.forall_mem_cons] at hfront
      rw [List.cons_append, lookup_cons_ne hfront.1, ih hfront.2]
  · intro h
    induction entries with
    | nil => cases h
    | cons e entries ih =>
      by_cases he : e.1 = .str key
      · obtain ⟨k, w⟩ := e
        obtain rfl : k = .str key := he
        rw [lookup_cons, if_pos rfl] at h
        exact ⟨[], entries, by rw [Option.some.inj h]; rfl, by simp⟩
      · rw [lookup_cons_ne he] at h
        obtain ⟨front, back, heq, hfront⟩ := ih h
        refine ⟨e :: front, back, by rw [heq]; rfl, ?_⟩
        exact List.forall_mem_cons.mpr ⟨he, hfront⟩

end Present

section At

variable {doc v w key : Yaml} {path : List Yaml} {entries : List (Yaml × Yaml)}

theorem At.of_cons (h : At doc (key :: path) w) :
    ∃ entries v, doc = .dict entries ∧ Present key v entries ∧ At v path w := by
  cases h with
  | there hpresent hat => exact ⟨_, _, rfl, hpresent, hat⟩

theorem at_dict_cons_iff :
    At (.dict entries) (key :: path) w ↔ ∃ v, Present key v entries ∧ At v path w := by
  constructor
  · intro h
    obtain ⟨_, v, heq, hpresent, hat⟩ := h.of_cons
    obtain rfl := Yaml.dict.inj heq
    exact ⟨v, hpresent, hat⟩
  · rintro ⟨v, hpresent, hat⟩
    exact .there hpresent hat

theorem At.of_leaf (hv : IsLeaf v) (h : At v path w) : path = [] ∧ w = v := by
  cases h with
  | here => exact ⟨rfl, rfl⟩
  | there => exact hv.elim

theorem at_str {key : String} (h : lookup key entries = some v) (hat : At v path w) :
    At (.dict entries) (.str key :: path) w := .there (present_str_iff.mpr h) hat

end At

end MowerRover.Yaml
