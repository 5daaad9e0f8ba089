import Mathlib.Tactic

/-!
# Assignments up to the first that fails

The parts of a record are written one after the other with what is found for
them. What is absent is passed over, and what fails ends the writing; the parts
written until then keep their new values. Nothing here knows the record.
-/

namespace MowerRover

/-- A part of a record, with how it is read and written. -/
structure Part (S α : Type) where
  get : S → α
  set : S → α → S
  get_set : ∀ s a, get (set s a) = a
  set_get : ∀ s, set s (get s) = s

/-- What one writes the other does not read. -/
structure Apart {S α β : Type} (p : Part S α) (q : Part S β) : Prop where
  left : ∀ s b, p.get (q.set s b) = p.get s
  right : ∀ s a, q.get (p.set s a) = q.get s

/-- What a search for a value gives. -/
inductive Found (α : Type)
  | absent
  | value (a : α)
  | failed (message : String)

def Found.ok {α : Type} : Found α → Bool
  | .failed _ => false
  | _ => true

/-- A part with what has been found for it. -/
structure Assignment (S : Type) where
  Value : Type
  part : Part S Value
  found : Found Value

section Assign

variable {S : Type}

/-- The record after the assignments, and the message of the one that failed. -/
def assignAll : List (Assignment S) → S → S × Option String
  | [], s => (s, none)
  | a :: as, s =>
    match a.found with
    | .absent => assignAll as s
    | .value v => assignAll as (a.part.set s v)
    | .failed message => (s, some message)

namespace Assignment

def succeeds (a : Assignment S) : Bool := a.found.ok

/-- What has been found is in the record; something that fails never is. -/
def Holds (a : Assignment S) (s : S) : Prop :=
  match a.found with
  | .absent => True
  | .value v => a.part.get s = v
  | .failed _ => False

/-- Nothing has been found, or what the record has already. -/
def Keeps (a : Assignment S) (s : S) : Prop :=
  match a.found with
  | .value v => a.part.get s = v
  | _ => True

end Assignment

/-- No two of the assignments are to parts that overlap. -/
def PairwiseApart (as : List (Assignment S)) : Prop := as.Pairwise fun a b => Apart a.part b.part

variable {as : List (Assignment S)} {s : S}

theorem assignAll_snd_eq_none_iff : (assignAll as s).2 = none ↔ ∀ a ∈ as, a.succeeds = true := by
  induction as generalizing s with
  | nil => simp [assignAll]
  | cons a as ih =>
    rw [List.forall_mem_cons, assignAll]
    cases hfound : a.found with
    | absent => simp [ih, Assignment.succeeds, Found.ok, hfound]
    | value v => simp [ih, Assignment.succeeds, Found.ok, hfound]
    | failed message => simp [Assignment.succeeds, Found.ok, hfound]

theorem get_assignAll {α : Type} {p : Part S α} (h : ∀ a ∈ as, Apart p a.part) :
    p.get (assignAll as s).1 = p.get s := by
  induction as generalizing s with
  | nil => rfl
  | cons a as ih =>
    rw [List.forall_mem_cons] at h
    rw [assignAll]
    cases hfound : a.found with
    | absent => exact ih h.2
    | value v => exact (ih h.2).trans (h.1.left s v)
    | failed message => rfl

theorem holds_assignAll (hall : PairwiseApart as) (hok : ∀ a ∈ as, a.succeeds = true) :
    ∀ a ∈ as, a.Holds (assignAll as s).1 := by
  induction as generalizing s with
  | nil => simp
  | cons a as ih =>
    obtain ⟨hapart, hrest⟩ := List.pairwise_cons.mp hall
    rw [List.forall_mem_cons] at hok ⊢
    rw [assignAll]
    cases hfound : a.found with
    | absent => exact ⟨by simp [Assignment.Holds, hfound], ih hrest hok.2⟩
    | value v =>
      refine ⟨?_, ih hrest hok.2⟩
      simp only [Assignment.Holds, hfound]
      rw [get_assignAll hapart, a.part.get_set]
    | failed message => simp [Assignment.succeeds, Found.ok, hfound] at hok

/-- The record is as it was exactly when nothing else was found before the first failure. -/
theorem assignAll_fst_eq_iff (hall : PairwiseApart as) :
    (assignAll as s).1 = s ↔ ∀ a ∈ as.takeWhile Assignment.succeeds, a.Keeps s := by
  induction as generalizing s with
  | nil => simp [assignAll]
  | cons a as ih =>
    obtain ⟨hapart, hrest⟩ := List.pairwise_cons.mp hall
    rw [assignAll, List.takeWhile_cons]
    cases hfound : a.found with
    | absent => simp [Assignment.succeeds, Found.ok, Assignment.Keeps, hfound, ih hrest]
    | value v =>
      have hok : a.succeeds = true := by simp [Assignment.succeeds, Found.ok, hfound]
      have hkeeps : a.Keeps s ↔ a.part.get s = v := by simp [Assignment.Keeps, hfound]
      rw [if_pos hok, List.forall_mem_cons, hkeeps]
      dsimp only
      constructor
      · intro hsame
        have hget : a.part.get s = v := by
          have hread := get_assignAll (s := a.part.set s v) hapart
          rwa [hsame, a.part.get_set] at hread
        refine ⟨hget, ?_⟩
        rw [← ih hrest]
        rwa [← hget, a.part.set_get] at hsame
      · rintro ⟨hget, hkeep⟩
        rw [← hget, a.part.set_get]
        exact (ih hrest).mpr hkeep
    | failed message => simp [Assignment.succeeds, Found.ok, hfound]

end Assign

end MowerRover
