import MowerRover.Effects.Trace

/-!
# Milestones of a run

A program that must have come past some calls, in their order, before it makes
a call of a kind that matters, and that makes at most one of that kind. As
everywhere the calls of a run stand with the latest first, and so do the
milestones.
-/

namespace MowerRover.Effects

variable {S : Signature} {ε α : Type}

/-- The run has come past calls of these kinds, in this order. -/
def Passed : List (Call S → Prop) → List (Call S) → Prop
  | [], _ => True
  | kind :: kinds, past => ∃ later c earlier, past = later ++ c :: earlier ∧ kind c ∧
      Passed kinds earlier

theorem Passed.cons {kinds : List (Call S → Prop)} {past : List (Call S)} (h : Passed kinds past)
    (c : Call S) : Passed kinds (c :: past) := by
  cases kinds with
  | nil => trivial
  | cons kind kinds =>
    obtain ⟨later, d, earlier, rfl, hd, hrest⟩ := h
    exact ⟨c :: later, d, earlier, rfl, hd, hrest⟩

theorem Passed.here {kinds : List (Call S → Prop)} {past : List (Call S)} (h : Passed kinds past)
    {kind : Call S → Prop} {c : Call S} (hc : kind c) : Passed (kind :: kinds) (c :: past) :=
  ⟨[], c, past, rfl, hc, h⟩

theorem Passed.tail {kinds : List (Call S → Prop)} {kind : Call S → Prop} {past : List (Call S)}
    (h : Passed (kind :: kinds) past) : Passed kinds past := by
  obtain ⟨later, c, earlier, rfl, -, hrest⟩ := h
  have happend : ∀ later : List (Call S), Passed kinds (later ++ c :: earlier) := by
    intro later
    induction later with
    | nil => exact hrest.cons c
    | cons d later ih => exact ih.cons d
  exact happend later

/-- Past the milestones, and without a call of the kind that matters. -/
structure Stage (matters : S.Op → Prop) (kinds : List (Call S → Prop)) (past : List (Call S)) :
    Prop where
  none : ∀ d ∈ past, ¬ matters d.1
  passed : Passed kinds past

/-- The one call of the kind that matters was `c`, and it came past the milestones. -/
def Once (matters : S.Op → Prop) (kinds : List (Call S → Prop)) (c : Call S)
    (past : List (Call S)) : Prop :=
  ∃ later earlier, past = later ++ c :: earlier ∧ (∀ d ∈ later, ¬ matters d.1) ∧
    Stage matters kinds earlier

variable {matters : S.Op → Prop} {kinds : List (Call S → Prop)} {o : Oracle S}

theorem Stage.tail {kind : Call S → Prop} {past : List (Call S)}
    (h : Stage matters (kind :: kinds) past) : Stage matters kinds past :=
  ⟨h.none, h.passed.tail⟩

theorem Stage.start : Stage matters [] [] := ⟨by simp, trivial⟩

theorem Stage.cons {past : List (Call S)} (h : Stage matters kinds past) {c : Call S}
    (hc : ¬ matters c.1) : Stage matters kinds (c :: past) := by
  refine ⟨?_, h.passed.cons c⟩
  intro d hd
  obtain rfl | hd := List.mem_cons.mp hd
  · exact hc
  · exact h.none d hd

theorem keeps_stage {op : S.Op} (hop : ¬ matters op) : Keeps o.handler (Stage matters kinds) op :=
  fun _ hs => hs.cons hop

theorem keeps_once {op : S.Op} (hop : ¬ matters op) (c : Call S) :
    Keeps o.handler (Once matters kinds c) op := by
  rintro _ ⟨later, earlier, rfl, hlater, hstage⟩
  refine ⟨⟨op, _⟩ :: later, earlier, rfl, ?_, hstage⟩
  intro d hd
  obtain rfl | hd := List.mem_cons.mp hd
  · exact hop
  · exact hlater d hd

theorem perform_stage {op : S.Op} (hop : ¬ matters op) {E : ε → List (Call S) → Prop} :
    Triple o.handler (Stage matters kinds) (Program.perform op : Program S ε (S.Ans op))
      (fun r past => ∀ kind : Call S → Prop, kind ⟨op, r⟩ → Stage matters (kind :: kinds) past)
      E :=
  Triple.perform fun _ hs _ hkind => ⟨(hs.cons hop).none, hs.passed.here hkind⟩

/-- The calls of the kind that matters are all allowed ones, and came past the milestones. -/
def Gated (matters allowed : S.Op → Prop) (kinds : List (Call S → Prop)) (past : List (Call S)) :
    Prop :=
  ∃ later earlier, past = later ++ earlier ∧ Stage matters kinds earlier ∧
    ∀ d ∈ later, matters d.1 → allowed d.1

theorem Stage.gated {past : List (Call S)} (h : Stage matters kinds past)
    (allowed : S.Op → Prop) : Gated matters allowed kinds past := ⟨[], past, rfl, h, by simp⟩

theorem keeps_gated {allowed : S.Op → Prop} {op : S.Op} (hop : matters op → allowed op) :
    Keeps o.handler (Gated matters allowed kinds) op := by
  rintro _ ⟨later, earlier, rfl, hstage, hlater⟩
  refine ⟨⟨op, _⟩ :: later, earlier, rfl, hstage, ?_⟩
  intro d hd
  obtain rfl | hd := List.mem_cons.mp hd
  · exact hop
  · exact hlater d hd

theorem perform_once {op : S.Op} {E : ε → List (Call S) → Prop} :
    Triple o.handler (Stage matters kinds) (Program.perform op : Program S ε (S.Ans op))
      (fun r => Once matters kinds ⟨op, r⟩) E :=
  Triple.perform fun past hs => ⟨[], past, rfl, by simp, hs⟩

end MowerRover.Effects
