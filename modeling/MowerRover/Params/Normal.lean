import MowerRover.Params.ParamFile

/-!
# Names in their normal form

The names of a set are normal forms, and for a case table that leaves upper
case alone a normal form is its own. So a set can be taken apart into pairs,
written and put together again, and stays what it was.
-/

namespace MowerRover.Params

open Numeric

variable {cm : CaseMap}

theorem pyStrip_of_noSpace {cs : List Char} (h : cs.any pyIsSpace = false) : pyStrip cs = cs := by
  have hstart : ∀ ds : List Char, ds.any pyIsSpace = false → ds.dropWhile pyIsSpace = ds := by
    intro ds hds
    cases ds with
    | nil => rfl
    | cons c ds =>
      rw [List.any_cons, Bool.or_eq_false_iff] at hds
      simp [hds.1]
  rw [pyStrip, hstart cs h, hstart cs.reverse (by simpa using h), List.reverse_reverse]

theorem normalizeName_normal (hcm : cm.Idempotent) {name n : String}
    (hn : normalizeName cm name = .ok n) : normalizeName cm n = .ok n := by
  dsimp only [normalizeName] at hn
  split_ifs at hn with hbad
  obtain rfl : String.ofList (cm.upper (pyStrip name.toList)) = n := Except.ok.inj hn
  simp only [Bool.or_eq_true, not_or, Bool.not_eq_true] at hbad
  simp only [normalizeName, String.toList_ofList, pyStrip_of_noSpace hbad.2, hcm _, hbad.1, hbad.2]
  rfl

theorem ParamSet.Normal.fixed (hcm : cm.Idempotent) {params : ParamSet} (h : params.Normal cm)
    {k : String} (hk : k ∈ params.names) : normalizeName cm k = .ok k := by
  obtain ⟨name, hname⟩ := h k hk
  exact normalizeName_normal hcm hname

namespace ParamSet

theorem contains_of_fixed (params : ParamSet) {k : String} (hk : normalizeName cm k = .ok k) :
    params.contains cm k = .ok (params.lookup k).isSome := by
  rw [contains, hk]
  rfl

theorem getItem_of_fixed {params : ParamSet} {k : String} {v : PyFloat}
    (hk : normalizeName cm k = .ok k) (hv : params.lookup k = some v) :
    params.getItem cm k = .ok v := by
  rw [getItem, hk]
  simp [hv]

theorem insertPairs_of_fixed {pairs : List (String × PyFloat)}
    (h : ∀ p ∈ pairs, normalizeName cm p.1 = .ok p.1) (out : ParamSet) :
    insertPairs cm pairs out = .ok (pairs.foldl (fun params p => params.insert p.1 p.2) out) := by
  induction pairs generalizing out with
  | nil => rfl
  | cons p pairs ih =>
    obtain ⟨name, value⟩ := p
    rw [insertPairs, h _ List.mem_cons_self]
    exact ih (fun q hq => h q (List.mem_cons_of_mem _ hq)) _

theorem fromPairs_of_fixed {pairs : List (String × PyFloat)}
    (h : ∀ p ∈ pairs, normalizeName cm p.1 = .ok p.1) (hnodup : (pairs.map Prod.fst).Nodup) :
    fromPairs cm pairs = .ok ⟨pairs, hnodup⟩ := by
  have hvalues : (pairs.foldl (fun params p => params.insert p.1 p.2) empty).values = pairs := by
    apply foldl_insert_values
    exact hnodup
  rw [fromPairs, insertPairs_of_fixed h]
  exact congrArg Except.ok (ParamSet.ext hvalues)

end ParamSet
end MowerRover.Params
