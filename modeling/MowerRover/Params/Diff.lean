import MowerRover.Params.ParamSet

/-!
# Differences between parameter sets

`diff_params` goes through the names of both sets in order and files each under
added, removed or changed, or leaves it out when the two values are close.
-/

namespace MowerRover.Params

open Numeric

/-- Single-precision tolerance: `MAV_PARAM_TYPE_REAL32` round-trip noise. The double `1e-6`. -/
def defaultTol : ℚ := 4722366482869645 / 2 ^ 72

example : PyFloat.ofRat (1 / 10 ^ 6) = .fin defaultTol := by decide +kernel

structure ParamChange where
  name : String
  old : Option PyFloat
  new : Option PyFloat
  deriving DecidableEq, Repr

structure ParamDiff where
  added : List ParamChange := []
  removed : List ParamChange := []
  changed : List ParamChange := []

def ParamDiff.isEmpty (diff : ParamDiff) : Bool :=
  !(!diff.added.isEmpty || !diff.removed.isEmpty || !diff.changed.isEmpty)

variable (old new : ParamSet) (tolerance : ℚ)

def diffName (diff : ParamDiff) (name : String) : ParamDiff :=
  match old.lookup name, new.lookup name with
  | none, nv => { diff with added := diff.added ++ [⟨name, none, nv⟩] }
  | some ov, none => { diff with removed := diff.removed ++ [⟨name, some ov, none⟩] }
  | some ov, some nv =>
    if ov.exceeds tolerance nv then
      { diff with changed := diff.changed ++ [⟨name, some ov, some nv⟩] }
    else diff

/-- `sorted(set(old_map) | set(new_map))`. -/
def unionNames : List String := (old.names ++ new.names).dedup.mergeSort (· ≤ ·)

def diffParams : ParamDiff := (unionNames old new).foldl (diffName old new tolerance) {}

theorem mem_unionNames {name : String} :
    name ∈ unionNames old new ↔ name ∈ old.names ∨ name ∈ new.names := by
  simp [unionNames, List.mem_mergeSort]

theorem unionNames_nodup : (unionNames old new).Nodup :=
  (List.mergeSort_perm _ _).nodup_iff.mpr (List.nodup_dedup _)

def addedAt (name : String) : Option ParamChange :=
  match old.lookup name with
  | none => some ⟨name, none, new.lookup name⟩
  | some _ => none

def removedAt (name : String) : Option ParamChange :=
  match old.lookup name, new.lookup name with
  | some ov, none => some ⟨name, some ov, none⟩
  | _, _ => none

def changedAt (name : String) : Option ParamChange :=
  match old.lookup name, new.lookup name with
  | some ov, some nv => if ov.exceeds tolerance nv then some ⟨name, some ov, some nv⟩ else none
  | _, _ => none

theorem diffName_eq (diff : ParamDiff) (name : String) :
    diffName old new tolerance diff name =
      ⟨diff.added ++ (addedAt old new name).toList, diff.removed ++ (removedAt old new name).toList,
        diff.changed ++ (changedAt old new tolerance name).toList⟩ := by
  unfold diffName addedAt removedAt changedAt
  cases old.lookup name with
  | none => simp
  | some ov =>
    cases new.lookup name with
    | none => simp
    | some nv => by_cases hx : ov.exceeds tolerance nv = true <;> simp [hx]

theorem foldl_diffName (names : List String) (diff : ParamDiff) :
    names.foldl (diffName old new tolerance) diff =
      ⟨diff.added ++ names.filterMap (addedAt old new),
        diff.removed ++ names.filterMap (removedAt old new),
        diff.changed ++ names.filterMap (changedAt old new tolerance)⟩ := by
  induction names generalizing diff with
  | nil => simp
  | cons name names ih =>
    have hcons : ∀ f : String → Option ParamChange,
        (name :: names).filterMap f = (f name).toList ++ names.filterMap f := by
      intro f
      cases hf : f name <;> simp [hf]
    simp only [List.foldl_cons, ih, diffName_eq, hcons, List.append_assoc]

theorem diffParams_eq :
    diffParams old new tolerance =
      ⟨(unionNames old new).filterMap (addedAt old new),
        (unionNames old new).filterMap (removedAt old new),
        (unionNames old new).filterMap (changedAt old new tolerance)⟩ :=
  foldl_diffName old new tolerance _ _

variable {old new tolerance}

theorem mem_names_of_lookup {params : ParamSet} {name : String} {v : PyFloat}
    (h : params.lookup name = some v) : name ∈ params.names := by
  by_contra hmem
  rw [ParamSet.lookup_eq_none.mpr hmem] at h
  simp at h

theorem mem_changed {c : ParamChange} :
    c ∈ (diffParams old new tolerance).changed ↔ ∃ ov nv, old.lookup c.name = some ov ∧
      new.lookup c.name = some nv ∧ ov.exceeds tolerance nv = true ∧
        c = ⟨c.name, some ov, some nv⟩ := by
  simp only [diffParams_eq, List.mem_filterMap]
  constructor
  · rintro ⟨name, -, hc⟩
    unfold changedAt at hc
    split at hc
    · rename_i ov nv hold hnew
      split at hc
      · obtain rfl := Option.some.inj hc
        exact ⟨ov, nv, hold, hnew, ‹_›, rfl⟩
      · simp at hc
    · simp at hc
  · rintro ⟨ov, nv, hold, hnew, hx, hc⟩
    refine ⟨c.name, (mem_unionNames old new).mpr (.inl (mem_names_of_lookup hold)), ?_⟩
    simp only [changedAt, hold, hnew, if_pos hx]
    rw [← hc]

/-- Nothing differs when both sets have the same names with close values. -/
theorem diffParams_isEmpty_iff :
    (diffParams old new tolerance).isEmpty = true ↔
      (∀ name, old.lookup name = none ↔ new.lookup name = none) ∧
        ∀ name ov nv, old.lookup name = some ov → new.lookup name = some nv →
          ov.exceeds tolerance nv = false := by
  have hlists : (diffParams old new tolerance).isEmpty = true ↔
      ∀ name ∈ unionNames old new, addedAt old new name = none ∧
        removedAt old new name = none ∧ changedAt old new tolerance name = none := by
    simp only [diffParams_eq, ParamDiff.isEmpty, Bool.not_or, Bool.not_not, Bool.and_eq_true,
      List.isEmpty_iff, List.filterMap_eq_nil_iff, ← forall_and, and_assoc]
  rw [hlists]
  constructor
  · intro h
    refine ⟨fun name => ?_, fun name ov nv hold hnew => ?_⟩
    · match hold : old.lookup name, hnew : new.lookup name with
      | none, none => simp
      | some ov, some nv => simp
      | none, some nv =>
        have hmem : name ∈ unionNames old new :=
          (mem_unionNames old new).mpr (.inr (mem_names_of_lookup hnew))
        simpa [addedAt, hold] using (h name hmem).1
      | some ov, none =>
        have hmem : name ∈ unionNames old new :=
          (mem_unionNames old new).mpr (.inl (mem_names_of_lookup hold))
        simpa [removedAt, hold, hnew] using (h name hmem).2.1
    · have hmem : name ∈ unionNames old new :=
        (mem_unionNames old new).mpr (.inl (mem_names_of_lookup hold))
      simpa [changedAt, hold, hnew] using (h name hmem).2.2
  · rintro ⟨hnames, hclose⟩ name hmem
    have hsome : old.lookup name ≠ none := by
      intro hold
      have hnew := (hnames name).mp hold
      rw [mem_unionNames] at hmem
      exact hmem.elim (ParamSet.lookup_eq_none.mp hold) (ParamSet.lookup_eq_none.mp hnew)
    match hold : old.lookup name, hnew : new.lookup name with
    | none, _ => exact absurd hold hsome
    | some ov, none => exact absurd ((hnames name).mpr hnew) hsome
    | some ov, some nv =>
      simp [addedAt, removedAt, changedAt, hold, hnew, hclose name ov nv hold hnew]

end MowerRover.Params
