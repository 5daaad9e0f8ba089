import MowerRover.Params.ParmText

/-!
# `.parm` texts one after the other

Two texts with a newline between them have the lines of both. Their parse is
the parse of the first one overridden by that of the second, with the names of
the first one in their places.
-/

namespace MowerRover.Params

open Numeric

variable {cm : CaseMap}

/-- The lines of two texts with a newline between them: those of both, and an empty one where the
first text has ended its last line itself. -/
theorem linesFrom_newline (line a b : List Char) :
    linesFrom line (a ++ '\n' :: b) = linesFrom line a ++ linesFrom [] b ∨
      linesFrom line (a ++ '\n' :: b) = linesFrom line a ++ [] :: linesFrom [] b := by
  have hnewline : ∀ line, linesFrom line ('\n' :: b) = line :: linesFrom [] b := by
    intro line
    rw [linesFrom, if_pos (by rfl)]
    simp
  induction line, a using linesFrom.induct with
  | case1 =>
    right
    exact hnewline []
  | case2 line hline =>
    left
    rw [List.nil_append, hnewline, linesFrom, if_neg hline]
    rfl
  | case3 line cs ih =>
    rw [List.cons_append, List.cons_append, linesFrom, linesFrom, List.cons_append]
    exact ih.imp (congrArg (line :: ·)) (congrArg (line :: ·))
  | case4 line c cs hcr hbreak ih =>
    rw [linesFrom.eq_3 _ _ _ hcr, if_pos hbreak]
    cases cs with
    | nil =>
      -- a carriage return before the newline ends the same line
      by_cases hc : c = '\r'
      · subst hc
        left
        rfl
      · right
        rw [List.singleton_append, linesFrom.eq_3 _ _ _ (by simp [hc]), if_pos hbreak, hnewline]
        rfl
    | cons d cs =>
      rw [List.cons_append, linesFrom.eq_3 _ _ _ (by simpa using hcr), if_pos hbreak,
        List.cons_append]
      exact ih.imp (congrArg (line :: ·)) (congrArg (line :: ·))
  | case5 line c cs hcr hbreak ih =>
    have hjoined : ∀ ds, c = '\r' → cs ++ '\n' :: b = '\n' :: ds → False := by
      rintro ds rfl -
      exact hbreak rfl
    rw [List.cons_append, linesFrom.eq_3 _ _ _ hjoined, linesFrom.eq_3 _ _ _ hcr, if_neg hbreak,
      if_neg hbreak]
    exact ih

theorem parmPairs_append {a b : List (List Char)} {x y : List (String × PyFloat)}
    (ha : parmPairs a = .ok x) (hb : parmPairs b = .ok y) : parmPairs (a ++ b) = .ok (x ++ y) := by
  induction a generalizing x with
  | nil =>
    obtain rfl : [] = x := Except.ok.inj ha
    exact hb
  | cons raw a ih =>
    rw [parmPairs] at ha
    rw [List.cons_append, parmPairs]
    split_ifs at ha ⊢ with hline
    · exact ih ha
    · split at ha
      · cases ha
      · obtain ⟨number, hnumber, ha⟩ := bind_eq_ok.mp ha
        obtain ⟨rest, hrest, ha⟩ := bind_eq_ok.mp ha
        obtain rfl := Except.ok.inj ha
        simp [hnumber, ih hrest]

theorem parmPairs_newline {a b : String} {x y : List (String × PyFloat)}
    (ha : parmPairs (splitLines a) = .ok x) (hb : parmPairs (splitLines b) = .ok y) :
    parmPairs (splitLines (a ++ "\n" ++ b)) = .ok (x ++ y) := by
  have htext : (a ++ "\n" ++ b).toList = a.toList ++ '\n' :: b.toList := by simp
  rw [splitLines, htext]
  rcases linesFrom_newline [] a.toList b.toList with h | h
  · rw [h]
    exact parmPairs_append ha hb
  · have hempty : parmPairs ([] :: splitLines b) = .ok y := by
      rw [parmPairs_skip (by rfl), hb]
    rw [h]
    exact parmPairs_append ha hempty

section Override

variable {d : List (String × PyFloat)} {n k : String} {u v : PyFloat}

theorem setItem_setItem_same : setItem (setItem d n u) n v = setItem d n v := by
  induction d with
  | nil => simp [setItem]
  | cons p d ih =>
    obtain ⟨m, w⟩ := p
    by_cases hm : m = n
    · simp [setItem, hm]
    · simp [setItem, hm, ih]

theorem setItem_comm (hn : n ∈ d.map Prod.fst) (hk : k ≠ n) :
    setItem (setItem d k u) n v = setItem (setItem d n v) k u := by
  induction d with
  | nil => simp at hn
  | cons p d ih =>
    obtain ⟨m, w⟩ := p
    by_cases hmn : m = n
    · subst hmn
      simp [setItem, Ne.symm hk]
    · by_cases hmk : m = k
      · subst hmk
        simp [setItem, hmn]
      · have htail : n ∈ d.map Prod.fst := by simpa [Ne.symm hmn] using hn
        simp [setItem, hmn, hmk, ih htail]

end Override

namespace ParamSet

variable {base params : ParamSet} {n k : String} {u v : PyFloat}

theorem insert_insert_same : (base.insert n u).insert n v = base.insert n v :=
  ParamSet.ext setItem_setItem_same

theorem insert_comm (hn : n ∈ base.names) (hk : k ≠ n) :
    (base.insert k u).insert n v = (base.insert n v).insert k u :=
  ParamSet.ext (setItem_comm hn hk)

theorem mem_names_insert : k ∈ (base.insert n v).names ↔ k = n ∨ k ∈ base.names :=
  mem_setItem_names

/-- The first set with the values of the second one where it has any. -/
def override (base params : ParamSet) : ParamSet :=
  params.values.foldl (fun out p => out.insert p.1 p.2) base

theorem lookup_foldl_insert {pairs : List (String × PyFloat)}
    (h : (pairs.map Prod.fst).Nodup) (base : ParamSet) (k : String) :
    (pairs.foldl (fun out p => out.insert p.1 p.2) base).lookup k =
      (pairs.lookup k).or (base.lookup k) := by
  induction pairs generalizing base with
  | nil => rfl
  | cons p pairs ih =>
    obtain ⟨name, value⟩ := p
    rw [List.map_cons, List.nodup_cons] at h
    rw [List.foldl_cons, ih h.2, lookup_insert, List.lookup_cons]
    by_cases hk : k = name
    · subst hk
      have hnone : pairs.lookup k = none := lookup_eq_none_iff.mpr h.1
      simp [hnone]
    · simp [hk, beq_false_of_ne hk]

theorem lookup_override (base params : ParamSet) (k : String) :
    (base.override params).lookup k = (params.lookup k).or (base.lookup k) :=
  lookup_foldl_insert params.nodup base k

theorem foldl_insert_comm {pairs : List (String × PyFloat)} (hn : n ∈ base.names)
    (hnew : n ∉ pairs.map Prod.fst) :
    (pairs.foldl (fun out p => out.insert p.1 p.2) base).insert n v =
      pairs.foldl (fun out p => out.insert p.1 p.2) (base.insert n v) := by
  induction pairs generalizing base with
  | nil => rfl
  | cons p pairs ih =>
    obtain ⟨name, value⟩ := p
    rw [List.map_cons, List.mem_cons, not_or] at hnew
    rw [List.foldl_cons, List.foldl_cons, ih (mem_names_insert.mpr (.inr hn)) hnew.2,
      insert_comm hn (Ne.symm hnew.1)]

theorem foldl_setItem {pairs : List (String × PyFloat)} (h : (pairs.map Prod.fst).Nodup)
    (base : ParamSet) :
    (setItem pairs n v).foldl (fun out p => out.insert p.1 p.2) base =
      (pairs.foldl (fun out p => out.insert p.1 p.2) base).insert n v := by
  induction pairs generalizing base with
  | nil => rfl
  | cons p pairs ih =>
    obtain ⟨name, value⟩ := p
    rw [List.map_cons, List.nodup_cons] at h
    by_cases hname : name = n
    · subst hname
      have hmem : name ∈ (base.insert name value).names := mem_names_insert.mpr (.inl rfl)
      rw [setItem, if_pos rfl, List.foldl_cons, List.foldl_cons, foldl_insert_comm hmem h.1,
        insert_insert_same]
    · rw [setItem, if_neg hname, List.foldl_cons, List.foldl_cons, ih h.2]

theorem override_insert (base params : ParamSet) :
    base.override (params.insert n v) = (base.override params).insert n v :=
  foldl_setItem params.nodup base

theorem insertPairs_override {pairs : List (String × PyFloat)} {out : ParamSet}
    (h : insertPairs cm pairs out = .ok params) (base : ParamSet) :
    insertPairs cm pairs (base.override out) = .ok (base.override params) := by
  induction pairs generalizing out with
  | nil =>
    obtain rfl : out = params := Except.ok.inj h
    rfl
  | cons p pairs ih =>
    obtain ⟨name, value⟩ := p
    obtain ⟨n, hn, hrest⟩ := bind_eq_ok.mp h
    rw [insertPairs, hn, ok_bind, ← override_insert]
    exact ih hrest

theorem insertPairs_append {a b : List (String × PyFloat)} {out middle : ParamSet}
    (h : insertPairs cm a out = .ok middle) :
    insertPairs cm (a ++ b) out = insertPairs cm b middle := by
  induction a generalizing out with
  | nil =>
    obtain rfl : out = middle := Except.ok.inj h
    rfl
  | cons p a ih =>
    obtain ⟨name, value⟩ := p
    obtain ⟨n, hn, hrest⟩ := bind_eq_ok.mp h
    rw [List.cons_append, insertPairs, hn, ok_bind]
    exact ih hrest

end ParamSet

theorem parseParmText_newline {a b : String} {base params : ParamSet}
    (ha : parseParmText cm a = .ok base) (hb : parseParmText cm b = .ok params) :
    parseParmText cm (a ++ "\n" ++ b) = .ok (base.override params) := by
  obtain ⟨x, hx, hbase⟩ := bind_eq_ok.mp ha
  obtain ⟨y, hy, hparams⟩ := bind_eq_ok.mp hb
  rw [parseParmText, parmPairs_newline hx hy, ok_bind, ParamSet.fromPairs,
    ParamSet.insertPairs_append hbase]
  exact ParamSet.insertPairs_override hparams base

/-- The parser inverts every layout, and reads two texts one after the other as the second
overriding the first. -/
theorem parseParmText_inverts (cm : CaseMap) :
    (∀ (pairs : List (String × PyFloat)) (text : String), Renders pairs (splitLines text) →
      ∃ params, parseParmText cm text = .ok params ∧
        ∀ k, params.lookup k = lastGiven k pairs) ∧
    ∀ (a b : String) (base params : ParamSet), parseParmText cm a = .ok base →
      parseParmText cm b = .ok params →
        parseParmText cm (a ++ "\n" ++ b) = .ok (base.override params) ∧
          ∀ k, (base.override params).lookup k = (params.lookup k).or (base.lookup k) := by
  refine ⟨fun pairs text h => parseParmText_of_renders h, fun a b base params ha hb => ?_⟩
  exact ⟨parseParmText_newline ha hb, base.lookup_override params⟩

/-- A name that is given twice, in two layouts and cases. -/
theorem parseParmText_inverts_fence : ∃ params,
    parseParmText .asciiOnly "fence_enable , 0\n// off\n\tFENCE_Enable 1# on" = .ok params ∧
      params.lookup "FENCE_ENABLE" = some (.fin 1) := by
  have hlines : splitLines "fence_enable , 0\n// off\n\tFENCE_Enable 1# on" =
      [[] ++ ("fence_enable".toList ++ ([' '] ++ ',' :: [' ']) ++ ['0']) ++ [] ++ [],
        [] ++ '/' :: '/' :: " off".toList,
        ['\t'] ++ ("FENCE_Enable".toList ++ [' '] ++ ['1']) ++ [] ++ '#' :: " on".toList] := by
    decide +kernel
  have hblank : Blank [] ∧ Blank [' '] ∧ Blank ['\t'] :=
    ⟨by simp [Blank], List.forall_mem_singleton.mpr rfl, List.forall_mem_singleton.mpr rfl⟩
  have hname : IsName "fence_enable".toList ∧ IsName "FENCE_Enable".toList :=
    ⟨⟨by decide, List.all_eq_true.mp rfl⟩, by decide, List.all_eq_true.mp rfl⟩
  have hzero : Reads ['0'] (.fin 0) :=
    ⟨trimmed_of_forall (List.forall_mem_singleton.mpr rfl), by decide +kernel⟩
  have hone : Reads ['1'] (.fin 1) :=
    ⟨trimmed_of_forall (List.forall_mem_singleton.mpr rfl), by decide +kernel⟩
  have hrenders : Renders [("FENCE_ENABLE", .fin 0), ("FENCE_ENABLE", .fin 1)]
      (splitLines "fence_enable , 0\n// off\n\tFENCE_Enable 1# on") := by
    rw [hlines]
    apply Renders.pair
    · exact .entry hblank.1 hname.1 (by decide) (.comma hblank.2.1 hblank.2.1) hzero hblank.1 .none
    apply Renders.skip
    · exact .mk hblank.1 (.slashes _)
    apply Renders.pair
    · exact .entry hblank.2.2 hname.2 (by decide) (.blanks (by decide) hblank.2.1) hone hblank.1
        (.hash _)
    exact .nil
  obtain ⟨params, hparams, hlookup⟩ := (parseParmText_inverts .asciiOnly).1 _ _ hrenders
  exact ⟨params, hparams, by rw [hlookup]; decide⟩

end MowerRover.Params
