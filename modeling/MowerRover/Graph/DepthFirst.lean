import Mathlib.Tactic

/-!
# Depth-first search in a directed graph

Two searches over a successor function. `Search.visit` gives a node one of three
colours and orders the nodes as it leaves them; it fails at a node that is
still being visited. `collect` marks a node when it enters it and gathers what
can be reached. The depth of the recursion is bounded by a parameter, and a
bound above the number of nodes is never felt.
-/

namespace MowerRover.Graph

open Relation

variable {α : Type}

/-- `b` is a successor of `a`. -/
def Edge (succ : α → List α) (a b : α) : Prop := b ∈ succ a

/-- Every node of the list has its successors before it. -/
def SuccessorsFirst (succ : α → List α) (l : List α) : Prop :=
  ∀ before a after, l = before ++ a :: after → ∀ b ∈ succ a, b ∈ before

/-- A node that lies on a cycle is reachable from one of the roots. -/
def CycleFrom (succ : α → List α) (roots : List α) : Prop :=
  ∃ r ∈ roots, ∃ a, ReflTransGen (Edge succ) r a ∧ TransGen (Edge succ) a a

section SuccessorsFirst

variable {succ : α → List α} {l : List α}

theorem SuccessorsFirst.nil : SuccessorsFirst succ [] := by
  intro before a after h
  simp at h

theorem SuccessorsFirst.concat (h : SuccessorsFirst succ l) {a : α} (ha : ∀ b ∈ succ a, b ∈ l) :
    SuccessorsFirst succ (l ++ [a]) := by
  intro before c after heq b hb
  rcases after.eq_nil_or_concat' with rfl | ⟨rest, d, rfl⟩
  · obtain ⟨rfl, hc⟩ := List.append_inj' heq rfl
    obtain rfl : a = c := by simpa using hc
    exact ha b hb
  · have hl : l = before ++ c :: rest := by
      rw [← List.cons_append, ← List.append_assoc] at heq
      exact (List.append_inj' heq rfl).1
    exact h before c rest hl b hb

theorem SuccessorsFirst.mem (h : SuccessorsFirst succ l) {a b : α} (ha : a ∈ l) (hb : b ∈ succ a) :
    b ∈ l := by
  obtain ⟨before, after, rfl⟩ := List.append_of_mem ha
  exact List.mem_append_left _ (h before a after rfl b hb)

/-- What holds of a node when it holds of its successors, holds of the whole list. -/
theorem SuccessorsFirst.induction (h : SuccessorsFirst succ l) {P : α → Prop}
    (hstep : ∀ a ∈ l, (∀ b ∈ succ a, P b) → P a) : ∀ a ∈ l, P a := by
  induction l using List.reverseRecOn with
  | nil => simp
  | append_singleton l x ih =>
    have hl : SuccessorsFirst succ l := by
      intro before a after heq
      exact h before a (after ++ [x]) (by simp [heq])
    have hP := ih hl fun a ha => hstep a (List.mem_append_left _ ha)
    intro a ha
    rcases List.mem_append.mp ha with ha | ha
    · exact hP a ha
    · obtain rfl := List.mem_singleton.mp ha
      exact hstep a (by simp) fun b hb => hP b (h l a [] rfl b hb)

theorem SuccessorsFirst.reaches (h : SuccessorsFirst succ l) {a b : α} (ha : a ∈ l)
    (hab : ReflTransGen (Edge succ) a b) : b ∈ l := by
  induction hab with
  | refl => exact ha
  | tail _ hcb ih => exact h.mem ih hcb

theorem SuccessorsFirst.idxOf_lt [DecidableEq α] (h : SuccessorsFirst succ l) (hl : l.Nodup)
    {a b : α} (ha : a ∈ l) (hb : b ∈ succ a) : l.idxOf b < l.idxOf a := by
  obtain ⟨before, after, rfl⟩ := List.append_of_mem ha
  have hmem : b ∈ before := h before a after rfl b hb
  have hnot : a ∉ before := fun hmem => List.disjoint_of_nodup_append hl hmem List.mem_cons_self
  rw [List.idxOf_append_of_mem hmem, List.idxOf_append_of_notMem hnot]
  exact (List.idxOf_lt_length_of_mem hmem).trans_le (Nat.le_add_right _ _)

theorem SuccessorsFirst.acyclic (h : SuccessorsFirst succ l) :
    ∀ a ∈ l, ¬ TransGen (Edge succ) a a := by
  refine h.induction fun a _ ih hcycle => ?_
  obtain ⟨b, hab, hba⟩ := TransGen.head'_iff.mp hcycle
  exact ih b hab (TransGen.tail' hba hab)

end SuccessorsFirst

theorem card_sdiff_insert_lt [DecidableEq α] {nodes marked : Finset α} {a : α} (ha : a ∈ nodes)
    (hnot : a ∉ marked) : (nodes \ insert a marked).card < (nodes \ marked).card := by
  apply Finset.card_lt_card
  rw [Finset.ssubset_iff_of_subset
    (Finset.sdiff_subset_sdiff (Finset.Subset.refl _) (Finset.subset_insert _ _))]
  exact ⟨a, Finset.mem_sdiff.mpr ⟨ha, hnot⟩, by simp⟩

/-- The nodes left behind, the nodes being visited, and the order of leaving. -/
structure Search (α : Type) where
  visited : Finset α
  visiting : Finset α
  order : List α

inductive Failure (α : Type)
  | cycle (a : α)
  | tooDeep
  deriving DecidableEq

namespace Search

variable {succ : α → List α}

def start : Search α := ⟨∅, ∅, []⟩

section Steps

variable [DecidableEq α]

def enter (s : Search α) (a : α) : Search α := { s with visiting := insert a s.visiting }

def leave (s : Search α) (a : α) : Search α :=
  { visited := insert a s.visited, visiting := s.visiting.erase a, order := s.order ++ [a] }

def visit (succ : α → List α) : ℕ → Search α → α → Except (Failure α) (Search α)
  | 0, _, _ => .error .tooDeep
  | depth + 1, s, a =>
    if a ∈ s.visited then .ok s
    else if a ∈ s.visiting then .error (.cycle a)
    else ((succ a).foldlM (visit succ depth) (s.enter a)).map (·.leave a)

/-- Visit the roots one after the other. -/
def run (succ : α → List α) (depth : ℕ) (roots : List α) : Except (Failure α) (Search α) :=
  roots.foldlM (visit succ depth) start

end Steps

/-- What is true of a search that has come from `roots`. -/
structure Sound (succ : α → List α) (roots : List α) (s : Search α) : Prop where
  nodup : s.order.Nodup
  mem_order : ∀ a, a ∈ s.order ↔ a ∈ s.visited
  first : SuccessorsFirst succ s.order
  apart : Disjoint s.visited s.visiting
  reached : ∀ a ∈ s.order, ∃ r ∈ roots, ReflTransGen (Edge succ) r a

/-- How a search may end: with more nodes visited, `nodes` among them, or at a cycle. -/
def Ends (succ : α → List α) (roots : List α) (s : Search α) (nodes : List α) :
    Except (Failure α) (Search α) → Prop
  | .ok s' => s'.Sound succ roots ∧ s'.visiting = s.visiting ∧ s.visited ⊆ s'.visited ∧
      ∀ a ∈ nodes, a ∈ s'.visited
  | .error f => (∃ a, f = .cycle a) ∧ CycleFrom succ roots

theorem sound_start (roots : List α) : (start : Search α).Sound succ roots where
  nodup := List.nodup_nil
  mem_order := by simp [start]
  first := SuccessorsFirst.nil
  apart := by simp [start]
  reached := by simp [start]

theorem Sound.enter [DecidableEq α] {roots : List α} {s : Search α}
    (hs : s.Sound succ roots) {a : α}
    (ha : a ∉ s.visited) : (s.enter a).Sound succ roots where
  nodup := hs.nodup
  mem_order := hs.mem_order
  first := hs.first
  apart := Finset.disjoint_insert_right.mpr ⟨ha, hs.apart⟩
  reached := hs.reached

theorem Sound.leave [DecidableEq α] {roots : List α} {s : Search α}
    (hs : s.Sound succ roots) {a : α}
    (ha : a ∈ s.visiting) (hsucc : ∀ b ∈ succ a, b ∈ s.visited)
    (hreach : ∃ r ∈ roots, ReflTransGen (Edge succ) r a) : (s.leave a).Sound succ roots where
  nodup := by
    have hnot : a ∉ s.order := by
      rw [hs.mem_order]
      exact Finset.disjoint_right.mp hs.apart ha
    simpa [Search.leave] using hs.nodup.concat hnot
  mem_order := by
    intro b
    simp [Search.leave, hs.mem_order, or_comm]
  first := hs.first.concat fun b hb => (hs.mem_order b).mpr (hsucc b hb)
  apart := by
    rw [Search.leave, Finset.disjoint_insert_left]
    exact ⟨by simp, hs.apart.mono_right (Finset.erase_subset _ _)⟩
  reached := by
    intro b hb
    rcases List.mem_append.mp hb with hb | hb
    · exact hs.reached b hb
    · obtain rfl := List.mem_singleton.mp hb
      exact hreach

/-- The nodes on the way to `a` lead to it. -/
def Leads (succ : α → List α) (s : Search α) (a : α) : Prop :=
  ∀ v ∈ s.visiting, TransGen (Edge succ) v a

/-- Visiting a list of nodes, when visiting one of them ends as it should. -/
theorem ends_foldlM {roots : List α} {f : Search α → α → Except (Failure α) (Search α)}
    {nodes : List α} {s : Search α} (hs : s.Sound succ roots)
    (hf : ∀ a ∈ nodes, ∀ s' : Search α, s'.Sound succ roots → s'.visiting = s.visiting →
      Ends succ roots s' [a] (f s' a)) :
    Ends succ roots s nodes (nodes.foldlM f s) := by
  induction nodes generalizing s with
  | nil => exact ⟨hs, rfl, Finset.Subset.refl _, by simp⟩
  | cons a nodes ih =>
    have ha := hf a List.mem_cons_self s hs rfl
    rw [List.foldlM_cons]
    cases hr : f s a with
    | error e =>
      rw [hr] at ha
      exact ha
    | ok s' =>
      rw [hr] at ha
      obtain ⟨hs', hvisiting, hsub, hmem⟩ := ha
      have hrest := ih hs' fun b hb s'' hs'' hv =>
        hf b (List.mem_cons_of_mem _ hb) s'' hs'' (hv.trans hvisiting)
      change Ends succ roots s (a :: nodes) (nodes.foldlM f s')
      cases hr' : nodes.foldlM f s' with
      | error e =>
        rw [hr'] at hrest
        exact hrest
      | ok s'' =>
        rw [hr'] at hrest
        obtain ⟨hs'', hvisiting', hsub', hmem'⟩ := hrest
        refine ⟨hs'', hvisiting'.trans hvisiting, hsub.trans hsub', fun b hb => ?_⟩
        rcases List.mem_cons.mp hb with rfl | hb
        · exact hsub' (hmem b (by simp))
        · exact hmem' b hb

variable [DecidableEq α]

/-- The search in a finite graph with more depth than nodes off the way. -/
theorem ends_visit {roots : List α} {nodes : Finset α}
    (hnodes : ∀ a ∈ nodes, ∀ b ∈ succ a, b ∈ nodes) (depth : ℕ) (s : Search α) (a : α)
    (ha : a ∈ nodes) (hdepth : (nodes \ s.visiting).card < depth) (hs : s.Sound succ roots)
    (hleads : Leads succ s a) (hreach : ∃ r ∈ roots, ReflTransGen (Edge succ) r a) :
    Ends succ roots s [a] (visit succ depth s a) := by
  induction depth generalizing s a with
  | zero => omega
  | succ depth ih =>
    rw [visit]
    split_ifs with hvisited hvisiting
    · exact ⟨hs, rfl, Finset.Subset.refl _, by simpa using hvisited⟩
    · obtain ⟨r, hr, hra⟩ := hreach
      exact ⟨⟨a, rfl⟩, r, hr, a, hra, hleads a hvisiting⟩
    · have hcard : (nodes \ (s.enter a).visiting).card < depth := by
        have hlt := card_sdiff_insert_lt ha hvisiting
        change (nodes \ insert a s.visiting).card < depth
        omega
      have hinner : Ends succ roots (s.enter a) (succ a)
          ((succ a).foldlM (visit succ depth) (s.enter a)) := by
        refine ends_foldlM (hs.enter hvisited) fun b hb s' hs' hv => ?_
        refine ih s' b (hnodes a ha b hb) (by rw [hv]; exact hcard) hs' ?_ ?_
        · intro v hmem
          rw [hv] at hmem
          rcases Finset.mem_insert.mp hmem with rfl | hmem
          · exact .single hb
          · exact (hleads v hmem).tail hb
        · obtain ⟨r, hr, hra⟩ := hreach
          exact ⟨r, hr, hra.tail hb⟩
      cases hr : (succ a).foldlM (visit succ depth) (s.enter a) with
      | error e =>
        rw [hr] at hinner
        exact hinner
      | ok s' =>
        rw [hr] at hinner
        obtain ⟨hs', hv, hsub, hmem⟩ := hinner
        have hin : a ∈ s'.visiting := by
          rw [hv]
          exact Finset.mem_insert_self _ _
        refine ⟨hs'.leave hin hmem hreach, ?_, ?_, ?_⟩
        · change s'.visiting.erase a = s.visiting
          rw [hv]
          exact Finset.erase_insert hvisiting
        · exact hsub.trans (Finset.subset_insert _ _)
        · simp [leave]

variable {roots : List α} {nodes : Finset α} {depth : ℕ}

theorem ends_run (hroots : ∀ r ∈ roots, r ∈ nodes)
    (hnodes : ∀ a ∈ nodes, ∀ b ∈ succ a, b ∈ nodes) (hdepth : nodes.card < depth) :
    Ends succ roots start roots (run succ depth roots) := by
  refine ends_foldlM (sound_start roots) fun a ha s hs hv => ?_
  have hempty : s.visiting = ∅ := hv
  refine ends_visit hnodes depth s a (hroots a ha) (by simpa [hempty] using hdepth) hs ?_ ?_
  · intro v hmem
    simp [hempty] at hmem
  · exact ⟨a, ha, .refl⟩

/-- A search that ends has every reachable node in its order, successors first. -/
theorem run_ok (hroots : ∀ r ∈ roots, r ∈ nodes)
    (hnodes : ∀ a ∈ nodes, ∀ b ∈ succ a, b ∈ nodes) (hdepth : nodes.card < depth) {s : Search α}
    (hs : run succ depth roots = .ok s) :
    s.order.Nodup ∧ SuccessorsFirst succ s.order ∧
      ∀ a, a ∈ s.order ↔ ∃ r ∈ roots, ReflTransGen (Edge succ) r a := by
  have hends := ends_run hroots hnodes hdepth
  rw [hs] at hends
  obtain ⟨hsound, -, -, hmem⟩ := hends
  refine ⟨hsound.nodup, hsound.first, fun a => ⟨hsound.reached a, ?_⟩⟩
  rintro ⟨r, hr, hra⟩
  exact hsound.first.reaches ((hsound.mem_order r).mpr (hmem r hr)) hra

/-- A search fails exactly when a cycle can be reached, and only ever at one. -/
theorem run_error_iff (hroots : ∀ r ∈ roots, r ∈ nodes)
    (hnodes : ∀ a ∈ nodes, ∀ b ∈ succ a, b ∈ nodes) (hdepth : nodes.card < depth) :
    (∃ a, run succ depth roots = .error (.cycle a)) ↔ CycleFrom succ roots := by
  have hends := ends_run hroots hnodes hdepth
  constructor
  · rintro ⟨a, ha⟩
    rw [ha] at hends
    exact hends.2
  · rintro ⟨r, hr, a, hra, hcycle⟩
    cases hrun : run succ depth roots with
    | ok s =>
      obtain ⟨-, hfirst, hmem⟩ := run_ok hroots hnodes hdepth hrun
      exact absurd hcycle (hfirst.acyclic a ((hmem a).mpr ⟨r, hr, hra⟩))
    | error f =>
      rw [hrun] at hends
      obtain ⟨⟨b, rfl⟩, -⟩ := hends
      exact ⟨b, rfl⟩

theorem run_ok_or_error (hroots : ∀ r ∈ roots, r ∈ nodes)
    (hnodes : ∀ a ∈ nodes, ∀ b ∈ succ a, b ∈ nodes) (hdepth : nodes.card < depth) :
    (∃ s, run succ depth roots = .ok s) ∨ ∃ a, run succ depth roots = .error (.cycle a) := by
  have hends := ends_run hroots hnodes hdepth
  cases hrun : run succ depth roots with
  | ok s => exact .inl ⟨s, rfl⟩
  | error f =>
    rw [hrun] at hends
    obtain ⟨⟨b, rfl⟩, -⟩ := hends
    exact .inr ⟨b, rfl⟩

end Search

variable [DecidableEq α]

/-- Mark `a` and everything reachable from it that is not marked yet. -/
def collect (succ : α → List α) : ℕ → Finset α → α → Finset α
  | 0, marked, _ => marked
  | depth + 1, marked, a =>
    if a ∈ marked then marked
    else (succ a).foldl (collect succ depth) (insert a marked)

/-- What a gathering search from `marked` has added when it has been at `nodes`. -/
structure Gathered (succ : α → List α) (marked : Finset α) (nodes : List α) (marked' : Finset α) :
    Prop where
  grows : marked ⊆ marked'
  mem : ∀ a ∈ nodes, a ∈ marked'
  closed : ∀ a ∈ marked', a ∉ marked → ∀ b ∈ succ a, b ∈ marked'
  reached : ∀ a ∈ marked', a ∉ marked → ∃ r ∈ nodes, ReflTransGen (Edge succ) r a

variable {succ : α → List α}

theorem Gathered.cons {marked marked' marked'' : Finset α} {a : α} {nodes : List α}
    (ha : Gathered succ marked [a] marked') (h : Gathered succ marked' nodes marked'') :
    Gathered succ marked (a :: nodes) marked'' where
  grows := ha.grows.trans h.grows
  mem := by
    intro b hb
    rcases List.mem_cons.mp hb with rfl | hb
    · exact h.grows (ha.mem b (by simp))
    · exact h.mem b hb
  closed := by
    intro b hb hnot c hc
    by_cases hb' : b ∈ marked'
    · exact h.grows (ha.closed b hb' hnot c hc)
    · exact h.closed b hb hb' c hc
  reached := by
    intro b hb hnot
    by_cases hb' : b ∈ marked'
    · obtain ⟨r, hr, hrb⟩ := ha.reached b hb' hnot
      obtain rfl := List.mem_singleton.mp hr
      exact ⟨r, List.mem_cons_self, hrb⟩
    · obtain ⟨r, hr, hrb⟩ := h.reached b hb hb'
      exact ⟨r, List.mem_cons_of_mem _ hr, hrb⟩

theorem gathered_foldl {f : Finset α → α → Finset α} {nodes : List α} {marked : Finset α}
    (hf : ∀ a ∈ nodes, ∀ marked' : Finset α, marked ⊆ marked' →
      Gathered succ marked' [a] (f marked' a)) :
    Gathered succ marked nodes (nodes.foldl f marked) := by
  induction nodes generalizing marked with
  | nil => exact ⟨Finset.Subset.refl _, by simp, fun _ h hn => absurd h hn,
      fun _ h hn => absurd h hn⟩
  | cons a nodes ih =>
    have ha := hf a List.mem_cons_self marked (Finset.Subset.refl _)
    exact ha.cons (ih fun b hb marked' hsub =>
      hf b (List.mem_cons_of_mem _ hb) marked' (ha.grows.trans hsub))

theorem gathered_collect {nodes : Finset α} (hnodes : ∀ a ∈ nodes, ∀ b ∈ succ a, b ∈ nodes)
    (depth : ℕ) (marked : Finset α) (a : α) (ha : a ∈ nodes)
    (hdepth : (nodes \ marked).card < depth) :
    Gathered succ marked [a] (collect succ depth marked a) := by
  induction depth generalizing marked a with
  | zero => omega
  | succ depth ih =>
    rw [collect]
    split_ifs with hmem
    · exact ⟨Finset.Subset.refl _, by simpa using hmem, fun _ h hn => absurd h hn,
        fun _ h hn => absurd h hn⟩
    · have hcard : (nodes \ insert a marked).card < depth := by
        have hlt := card_sdiff_insert_lt ha hmem
        omega
      have hinner : Gathered succ (insert a marked) (succ a)
          ((succ a).foldl (collect succ depth) (insert a marked)) := by
        refine gathered_foldl fun b hb marked' hsub => ih marked' b (hnodes a ha b hb) ?_
        exact (Finset.card_le_card (Finset.sdiff_subset_sdiff (Finset.Subset.refl _) hsub)).trans_lt
          hcard
      refine ⟨(Finset.subset_insert _ _).trans hinner.grows, ?_, ?_, ?_⟩
      · simpa using hinner.grows (Finset.mem_insert_self _ _)
      · intro b hb hnot c hc
        by_cases hba : b = a
        · exact hinner.mem c (hba ▸ hc)
        · exact hinner.closed b hb (by simp [hba, hnot]) c hc
      · intro b hb hnot
        by_cases hba : b = a
        · exact ⟨a, by simp, by rw [hba]⟩
        · obtain ⟨r, hr, hrb⟩ := hinner.reached b hb (by simp [hba, hnot])
          exact ⟨a, by simp, .head hr hrb⟩

/-- From nothing marked, a gathering search marks what its roots reach. -/
theorem mem_foldl_collect {roots : List α} (nodes : Finset α) {depth : ℕ}
    (hroots : ∀ r ∈ roots, r ∈ nodes) (hnodes : ∀ a ∈ nodes, ∀ b ∈ succ a, b ∈ nodes)
    (hdepth : nodes.card < depth) (a : α) :
    a ∈ roots.foldl (collect succ depth) ∅ ↔ ∃ r ∈ roots, ReflTransGen (Edge succ) r a := by
  have h : Gathered succ ∅ roots (roots.foldl (collect succ depth) ∅) := by
    refine gathered_foldl fun r hr marked _ =>
      gathered_collect hnodes depth marked r (hroots r hr) ?_
    exact (Finset.card_le_card Finset.sdiff_subset).trans_lt hdepth
  constructor
  · intro ha
    exact h.reached a ha (by simp)
  · rintro ⟨r, hr, hra⟩
    induction hra with
    | refl => exact h.mem r hr
    | tail _ hbc ih => exact h.closed _ ih (by simp) _ hbc

end MowerRover.Graph
