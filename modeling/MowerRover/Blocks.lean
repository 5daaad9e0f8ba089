import Mathlib.Tactic

/-!
# Blocks that announce their length

A list is cut into blocks whose first element announces their length, while the
others announce none. There is at most one way to do so, and blocks written one
after the other are cut where they were joined.
-/

namespace MowerRover

variable {α : Type} (count : α → Option ℕ)

/-- The first element announces the length of the block, and no other announces any. -/
inductive IsBlock : List α → Prop
  | mk {a : α} {rest : List α} : count a = some (rest.length + 1) → (∀ r ∈ rest, count r = none) →
      IsBlock (a :: rest)

def blocks : List α → Option (List (List α))
  | [] => some []
  | a :: as =>
    match count a with
    | some (n + 1) =>
      if n ≤ as.length ∧ ∀ r ∈ as.take n, count r = none then
        (blocks (as.drop n)).map ((a :: as.take n) :: ·)
      else none
    | _ => none
termination_by as => as.length
decreasing_by
  rw [List.length_drop, List.length_cons]
  omega

variable {count}

theorem blocks_append {b as : List α} (h : IsBlock count b) :
    blocks count (b ++ as) = (blocks count as).map (b :: ·) := by
  obtain ⟨hcount, hrest⟩ := h
  rename_i a rest
  rw [List.cons_append, blocks, hcount]
  simp only [List.take_left, List.drop_left]
  rw [if_pos ⟨by simp, hrest⟩]

theorem blocks_flatten {bs : List (List α)} (h : ∀ b ∈ bs, IsBlock count b) :
    blocks count bs.flatten = some bs := by
  induction bs with
  | nil => rw [List.flatten_nil, blocks]
  | cons b bs ih =>
    rw [List.forall_mem_cons] at h
    rw [List.flatten_cons, blocks_append h.1, ih h.2]
    rfl

/-- The blocks are joined to the list again. -/
theorem blocks_sound {as : List α} {bs : List (List α)} (h : blocks count as = some bs) :
    as = bs.flatten ∧ ∀ b ∈ bs, IsBlock count b := by
  induction as using blocks.induct count generalizing bs with
  | case1 =>
    rw [blocks] at h
    obtain rfl := Option.some.inj h
    simp
  | case2 a as n hcount hfits ih =>
    rw [blocks, hcount] at h
    simp only [if_pos hfits] at h
    obtain ⟨rest, hrest, rfl⟩ := Option.map_eq_some_iff.mp h
    obtain ⟨hflatten, hblocks⟩ := ih hrest
    constructor
    · rw [List.flatten_cons, ← hflatten, List.cons_append, List.take_append_drop]
    · rw [List.forall_mem_cons]
      refine ⟨.mk ?_ hfits.2, hblocks⟩
      rw [hcount, List.length_take, min_eq_left hfits.1]
  | case3 a as n hcount hfits =>
    rw [blocks, hcount] at h
    simp [hfits] at h
  | case4 a as hcount =>
    rw [blocks] at h
    split at h
    · rename_i n hn
      exact absurd hn (hcount n)
    · cases h

theorem blocks_eq_some_iff {as : List α} {bs : List (List α)} :
    blocks count as = some bs ↔ as = bs.flatten ∧ ∀ b ∈ bs, IsBlock count b := by
  constructor
  · exact blocks_sound
  · rintro ⟨rfl, h⟩
    exact blocks_flatten h

theorem IsBlock.congr {b b' : List α} (h : b.map count = b'.map count)
    (hb : IsBlock count b) : IsBlock count b' := by
  obtain ⟨hcount, hrest⟩ := hb
  cases b' with
  | nil => simp at h
  | cons a' rest' =>
    rw [List.map_cons, List.map_cons, List.cons.injEq] at h
    have hlen := congrArg List.length h.2
    rw [List.length_map, List.length_map] at hlen
    apply IsBlock.mk
    · rw [← h.1, hcount, hlen]
    · intro r hr
      have hmem := List.mem_map_of_mem (f := count) hr
      rw [← h.2] at hmem
      obtain ⟨x, hx, hxr⟩ := List.mem_map.mp hmem
      rw [← hxr, hrest x hx]

theorem mapM_eq_some_iff {α β : Type} {f : α → Option β} {xs : List α} {ys : List β} :
    xs.mapM f = some ys ↔ List.Forall₂ (fun x y => f x = some y) xs ys := by
  induction xs generalizing ys with
  | nil => simp [eq_comm]
  | cons x xs ih =>
    rw [List.mapM_cons, List.forall₂_cons_left_iff]
    simp only [Option.bind_eq_bind, Option.bind_eq_some_iff, ih]
    constructor
    · rintro ⟨y, hy, rest, hrest, h⟩
      obtain rfl := Option.some.inj h
      exact ⟨y, rest, hy, hrest, rfl⟩
    · rintro ⟨y, rest, hy, hrest, rfl⟩
      exact ⟨y, hy, rest, hrest, rfl⟩

theorem forall₂_flatten_left {β : Type} {R : α → β → Prop} {parts : List (List α)} {ys : List β}
    (h : List.Forall₂ R parts.flatten ys) :
    ∃ parts', ys = parts'.flatten ∧ List.Forall₂ (List.Forall₂ R) parts parts' := by
  induction parts generalizing ys with
  | nil =>
    obtain rfl := List.forall₂_nil_left_iff.mp h
    exact ⟨[], rfl, .nil⟩
  | cons part parts ih =>
    have hflip := h.flip
    rw [List.flatten_cons] at hflip
    obtain ⟨parts', hrest, hparts⟩ := ih (List.forall₂_drop_append _ _ _ hflip).flip
    refine ⟨ys.take part.length :: parts', ?_, ?_⟩
    · rw [List.flatten_cons, ← hrest, List.take_append_drop]
    · exact .cons (List.forall₂_take_append _ _ _ hflip).flip hparts

end MowerRover
