import MowerRover.Effects.Hoare

/-!
# Runs against arbitrary surroundings

An oracle answers each call from everything that was called before it, so that
a statement about all oracles is one about all surroundings. The state of such
a run is its trace, the latest call first. The property of interest is that
calls of one kind come only after a call of another kind.
-/

namespace MowerRover.Effects

variable {S : Signature} {ε α β : Type}

/-- A call that was made, with its answer. -/
abbrev Call (S : Signature) := (op : S.Op) × S.Ans op

abbrev Oracle (S : Signature) := List (Call S) → (op : S.Op) → S.Ans op

def Oracle.handler (o : Oracle S) : Handler S (List (Call S)) Empty :=
  fun op past => (o past op, ⟨op, o past op⟩ :: past, [])

/-- The calls of a run, the latest first. -/
def Program.trace (o : Oracle S) (p : Program S ε α) : List (Call S) := (p.run o.handler []).state

/-- Surroundings whose answers do not depend on what was called before. -/
abbrev Answers (S : Signature) := (op : S.Op) → S.Ans op

def Answers.handler (a : Answers S) : Handler S (List (Call S)) Empty := Oracle.handler fun _ => a

theorem Answers.run_perform_bind (a : Answers S) (op : S.Op) (f : S.Ans op → Program S ε α)
    (past : List (Call S)) :
    (Program.perform op >>= f).run a.handler past =
      (f (a op)).run a.handler (⟨op, a op⟩ :: past) := by
  rw [Program.run_bind, Program.run_perform]
  rfl

/-- Every call of kind `A` has one of kind `B` before it. -/
def Preceded (A B : Call S → Prop) : List (Call S) → Prop
  | [] => True
  | c :: past => (A c → ∃ d ∈ past, B d) ∧ Preceded A B past

/-- Calls that are not of a kind, whatever the answer. -/
def Never (A : Call S → Prop) (op : S.Op) : Prop := ∀ r, ¬ A ⟨op, r⟩

/-- In calls with the latest first, each is allowed after those before it. -/
def Lawful (allowed : List (Call S) → S.Op → Prop) : List (Call S) → Prop
  | [] => True
  | c :: past => allowed past c.1 ∧ Lawful allowed past

section Preceded

variable {A B : Call S → Prop} {o : Oracle S}

theorem keeps_preceded {op : S.Op} (hop : Never A op) : Keeps o.handler (Preceded A B) op :=
  fun _ hs => ⟨fun hA => absurd hA (hop _), hs⟩

/-- Once a call of kind `B` has been made, anything may follow. -/
theorem keeps_preceded_of_mem (op : S.Op) :
    Keeps o.handler (fun past => Preceded A B past ∧ ∃ d ∈ past, B d) op := by
  rintro past ⟨hs, d, hd, hB⟩
  exact ⟨⟨fun _ => ⟨d, hd, hB⟩, hs⟩, d, List.mem_cons_of_mem _ hd, hB⟩

theorem keeps_not_preceded (op : S.Op) : Keeps o.handler (fun past => ¬ Preceded A B past) op :=
  fun _ hs h => hs h.2

/-- No call of kind `B` so far. -/
theorem keeps_none {op : S.Op} (hop : Never B op) :
    Keeps o.handler (fun past => ∀ d ∈ past, ¬ B d) op := by
  intro past hs d hd
  rcases List.mem_cons.mp hd with rfl | hd
  · exact hop _
  · exact hs d hd

theorem not_preceded_cons {c : Call S} {past : List (Call S)} (hs : ∀ d ∈ past, ¬ B d) (hA : A c) :
    ¬ Preceded A B (c :: past) := by
  rintro ⟨h, -⟩
  obtain ⟨d, hd, hB⟩ := h hA
  exact hs d hd hB

/-- A program that starts with a call of kind `A` before there was one of kind `B`. -/
theorem Program.first_call_violates (op : S.Op) (next : S.Ans op → Program S ε α)
    (hA : ∀ r, A ⟨op, r⟩) :
    Triple o.handler (fun past => ∀ d ∈ past, ¬ B d) (.call op next)
      (fun _ past => ¬ Preceded A B past) fun _ past => ¬ Preceded A B past := by
  intro past hs
  exact Preserves.always keeps_not_preceded (next _) _ (not_preceded_cons hs (hA _))

end Preceded
end MowerRover.Effects
