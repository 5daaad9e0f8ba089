import MowerRover.Dict
import MowerRover.Errors
import MowerRover.Graph.DepthFirst
import MowerRover.Text

/-!
# Probe check registry

The registered checks and the order of their dependencies. The function of a
check is not part of its record here: what it does when it is called is up to
the surroundings of a run.
-/

namespace MowerRover.Probe

open MowerRover.Graph Relation

/-- Impact level of a check failure. -/
inductive Severity
  | info
  | warning
  | critical
  deriving DecidableEq, Repr

inductive Status
  | pass
  | fail
  | skip
  deriving DecidableEq, Repr

structure CheckResult where
  name : String
  status : Status
  severity : Severity
  detail : String
  deriving DecidableEq, Repr

structure CheckSpec where
  name : String
  severity : Severity
  dependsOn : List String
  deriving DecidableEq, Repr

abbrev Registry := Dict String CheckSpec

def register (registry : Registry) (name : String) (severity : Severity) (dependsOn : List String) :
    Except PyError Registry :=
  if name ∈ registry.keys then throw (.value s!"Duplicate check name: {strRepr name}")
  else pure (registry.set name ⟨name, severity, dependsOn⟩)

/-- The dependencies of a check; one that is not registered has none. -/
def dependencies (specs : Registry) (name : String) : List String :=
  match specs.get? name with
  | some spec => spec.dependsOn
  | none => []

/-- Every name that occurs among the checks. -/
def occurring (specs : Registry) : List String :=
  specs.keys ++ specs.entries.flatMap fun entry => entry.2.dependsOn

/-- Check names by `depends_on`. The bound on the depth of the recursion is one more than the
names there are. -/
def resolveOrder (specs : Registry) : Except PyError (List String) :=
  match Search.run (dependencies specs) ((occurring specs).length + 1) specs.keys with
  | .ok search => .ok search.order
  | .error (.cycle name) => .error (.value s!"Dependency cycle detected involving {strRepr name}")
  | .error .tooDeep => .error (.other "maximum recursion depth exceeded")

/-- The check `a` is registered and depends on `b`, registered or not. -/
abbrev Needs (specs : Registry) : String → String → Prop := Edge (dependencies specs)

/-- The dependency relation restricted to registered names. -/
def NeedsRegistered (specs : Registry) (a b : String) : Prop :=
  a ∈ specs.keys ∧ b ∈ specs.keys ∧ b ∈ dependencies specs a

/-- Some registered check leads to a dependency cycle. -/
def Cyclic (specs : Registry) : Prop :=
  ∃ r ∈ specs.keys, ∃ name, ReflTransGen (NeedsRegistered specs) r name ∧
    TransGen (NeedsRegistered specs) name name

section Dependencies

variable {specs : Registry} {a b : String}

theorem dependencies_of_get? {spec : CheckSpec} (h : specs.get? a = some spec) :
    dependencies specs a = spec.dependsOn := by rw [dependencies, h]

theorem Needs.registered (h : Needs specs a b) : a ∈ specs.keys := by
  rw [Dict.mem_keys_iff]
  unfold Needs Edge dependencies at h
  cases hspec : specs.get? a with
  | none => simp [hspec] at h
  | some spec => exact ⟨spec, rfl⟩

theorem mem_occurring_of_needs (h : Needs specs a b) : b ∈ occurring specs := by
  obtain ⟨spec, hspec⟩ := Dict.mem_keys_iff.mp h.registered
  have hb : b ∈ spec.dependsOn := by rwa [← dependencies_of_get? hspec]
  exact List.mem_append_right _ (List.mem_flatMap.mpr ⟨_, Dict.get?_eq_some_iff.mp hspec, hb⟩)

theorem reaches_registered (h : ReflTransGen (Needs specs) a b) (hb : b ∈ specs.keys) :
    a ∈ specs.keys ∧ ReflTransGen (NeedsRegistered specs) a b := by
  induction h using ReflTransGen.head_induction_on with
  | refl => exact ⟨hb, .refl⟩
  | head hac _ ih => exact ⟨Needs.registered hac, .head ⟨Needs.registered hac, ih.1, hac⟩ ih.2⟩

theorem cycle_registered (h : TransGen (Needs specs) a a) :
    a ∈ specs.keys ∧ TransGen (NeedsRegistered specs) a a := by
  obtain ⟨b, hab, hba⟩ := TransGen.head'_iff.mp h
  have ha := Needs.registered hab
  obtain ⟨hb, hba⟩ := reaches_registered hba ha
  exact ⟨ha, .head' ⟨ha, hb, hab⟩ hba⟩

theorem needs_of_registered (h : NeedsRegistered specs a b) : Needs specs a b := h.2.2

theorem cyclic_iff_cycleFrom : Cyclic specs ↔ CycleFrom (dependencies specs) specs.keys := by
  constructor
  · rintro ⟨r, hr, name, hreach, hcycle⟩
    exact ⟨r, hr, name, ReflTransGen.mono (fun _ _ => needs_of_registered) _ _ hreach,
      TransGen.mono (fun _ _ => needs_of_registered) _ _ hcycle⟩
  · rintro ⟨r, hr, name, hreach, hcycle⟩
    obtain ⟨hname, hcycle⟩ := cycle_registered hcycle
    exact ⟨r, hr, name, (reaches_registered hreach hname).2, hcycle⟩

theorem cyclic_iff : Cyclic specs ↔ ∃ name, TransGen (Needs specs) name name := by
  constructor
  · rintro ⟨_, _, name, _, hcycle⟩
    exact ⟨name, TransGen.mono (fun _ _ => needs_of_registered) _ _ hcycle⟩
  · rintro ⟨name, hcycle⟩
    obtain ⟨hname, hcycle⟩ := cycle_registered hcycle
    exact ⟨name, hname, name, .refl, hcycle⟩

end Dependencies

section ResolveOrder

variable {specs : Registry}

theorem keys_occurring : ∀ r ∈ specs.keys, r ∈ (occurring specs).toFinset := by
  intro r hr
  exact List.mem_toFinset.mpr (List.mem_append_left _ hr)

theorem occurring_closed : ∀ a ∈ (occurring specs).toFinset, ∀ b ∈ dependencies specs a,
    b ∈ (occurring specs).toFinset := by
  intro a _ b hb
  exact List.mem_toFinset.mpr (mem_occurring_of_needs hb)

theorem occurring_card : (occurring specs).toFinset.card < (occurring specs).length + 1 :=
  Nat.lt_succ_of_le (List.toFinset_card_le _)

theorem resolveOrder_ok {order : List String} (h : resolveOrder specs = .ok order) :
    order.Nodup ∧ SuccessorsFirst (dependencies specs) order ∧
      ∀ name, name ∈ order ↔ ∃ r ∈ specs.keys, ReflTransGen (Needs specs) r name := by
  unfold resolveOrder at h
  cases hrun : Search.run (dependencies specs) ((occurring specs).length + 1) specs.keys with
  | ok search =>
    rw [hrun] at h
    cases h
    exact Search.run_ok keys_occurring occurring_closed occurring_card hrun
  | error f =>
    rw [hrun] at h
    cases f <;> simp at h

theorem resolveOrder_error_iff :
    (∃ message, resolveOrder specs = .error (.value message)) ↔ Cyclic specs := by
  rw [cyclic_iff_cycleFrom,
    ← Search.run_error_iff keys_occurring occurring_closed occurring_card]
  unfold resolveOrder
  cases Search.run (dependencies specs) ((occurring specs).length + 1) specs.keys with
  | ok search => simp
  | error f => cases f <;> simp

theorem resolveOrder_acyclic (h : ¬ Cyclic specs) : ∃ order, resolveOrder specs = .ok order := by
  have hends := Search.run_ok_or_error (@keys_occurring specs) occurring_closed
    occurring_card
  rcases hends with ⟨search, hrun⟩ | herror
  · exact ⟨search.order, by rw [resolveOrder, hrun]⟩
  · rw [cyclic_iff_cycleFrom,
      ← Search.run_error_iff keys_occurring occurring_closed occurring_card] at h
    exact absurd herror h

theorem acyclic_of_ok {order : List String} (h : resolveOrder specs = .ok order) :
    ¬ Cyclic specs := by
  rw [← resolveOrder_error_iff, h]
  simp

/-- The order fails at cycles only, and otherwise lists what the registered checks lead to, once
each, every check after its dependencies. -/
theorem resolveOrder_spec (specs : Registry) :
    ((∃ message, resolveOrder specs = .error (.value message)) ↔ Cyclic specs) ∧
      (¬ Cyclic specs → ∃ order, resolveOrder specs = .ok order ∧ order.Nodup ∧
        (∀ name, name ∈ order ↔ ∃ r ∈ specs.keys, ReflTransGen (Needs specs) r name) ∧
        ∀ name spec, specs.get? name = some spec →
          ∀ dep ∈ spec.dependsOn, order.idxOf dep < order.idxOf name) := by
  refine ⟨resolveOrder_error_iff, fun hacyclic => ?_⟩
  obtain ⟨order, horder⟩ := resolveOrder_acyclic hacyclic
  obtain ⟨hnodup, hfirst, hmem⟩ := resolveOrder_ok horder
  refine ⟨order, horder, hnodup, hmem, fun name spec hspec dep hdep => ?_⟩
  have hname : name ∈ order := (hmem name).mpr ⟨name, Dict.mem_keys_iff.mpr ⟨spec, hspec⟩, .refl⟩
  rw [← dependencies_of_get? hspec] at hdep
  exact hfirst.idxOf_lt hnodup hname hdep

end ResolveOrder
end MowerRover.Probe
