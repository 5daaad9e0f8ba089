import MowerRover.Params.Mav

/-!
# Parameter sets

The dictionary behind a parameter set keeps the order of insertion and has one
value per name. Names are normalized on the way in and at every lookup; a plain
name, which is what the shipped files use, is its own normal form.
-/

namespace MowerRover.Params

open Numeric

variable (cm : CaseMap)

def normalizeName (name : String) : Except PyError String :=
  let n := cm.upper (pyStrip name.toList)
  if n.isEmpty || n.any pyIsSpace then throw (.value s!"invalid param name: {strRepr name}")
  else pure (String.ofList n)

/-- `d[name] = value`: a name that is there keeps its place. -/
def setItem : List (String × PyFloat) → String → PyFloat → List (String × PyFloat)
  | [], name, value => [(name, value)]
  | (n, v) :: d, name, value =>
    if n = name then (name, value) :: d else (n, v) :: setItem d name value

theorem mem_setItem_names {d : List (String × PyFloat)} {name : String} {value : PyFloat}
    {k : String} : k ∈ (setItem d name value).map Prod.fst ↔ k = name ∨ k ∈ d.map Prod.fst := by
  induction d with
  | nil => simp [setItem]
  | cons p d ih =>
    obtain ⟨n, v⟩ := p
    by_cases hn : n = name
    · simp [setItem, hn]
    · simp only [setItem, if_neg hn, List.map_cons, List.mem_cons, ih]
      tauto

theorem mem_setItem {d : List (String × PyFloat)} {name : String} {value : PyFloat}
    {p : String × PyFloat} (hp : p ∈ setItem d name value) : p = (name, value) ∨ p ∈ d := by
  induction d with
  | nil => exact .inl (List.mem_singleton.mp hp)
  | cons q d ih =>
    unfold setItem at hp
    split_ifs at hp with hq
    · exact (List.mem_cons.mp hp).imp_right (List.mem_cons_of_mem _)
    · rcases List.mem_cons.mp hp with rfl | hp
      · exact .inr List.mem_cons_self
      · exact (ih hp).imp_right (List.mem_cons_of_mem _)

theorem setItem_nodup {d : List (String × PyFloat)} (h : (d.map Prod.fst).Nodup) (name : String)
    (value : PyFloat) : ((setItem d name value).map Prod.fst).Nodup := by
  induction d with
  | nil => simp [setItem]
  | cons p d ih =>
    obtain ⟨n, v⟩ := p
    rw [List.map_cons, List.nodup_cons] at h
    by_cases hn : n = name
    · subst hn
      simpa [setItem] using h
    · rw [setItem, if_neg hn, List.map_cons, List.nodup_cons, mem_setItem_names]
      exact ⟨fun hmem => hmem.elim hn h.1, ih h.2⟩

theorem setItem_of_not_mem {d : List (String × PyFloat)} {name : String}
    (h : name ∉ d.map Prod.fst) (value : PyFloat) : setItem d name value = d ++
      [(name, value)] := by
  induction d with
  | nil => rfl
  | cons p d ih =>
    obtain ⟨n, v⟩ := p
    rw [List.map_cons, List.mem_cons, not_or] at h
    rw [setItem, if_neg (Ne.symm h.1), ih h.2, List.cons_append]

theorem setItem_lookup (d : List (String × PyFloat)) (name : String) (value : PyFloat)
    (k : String) : (setItem d name value).lookup k = if k =
      name then some value else d.lookup k := by
  induction d with
  | nil =>
    by_cases hk : k = name
    · simp [setItem, hk]
    · simp [setItem, List.lookup_cons, hk, beq_false_of_ne hk]
  | cons p d ih =>
    obtain ⟨n, v⟩ := p
    by_cases hn : n = name
    · subst hn
      by_cases hk : k = n
      · simp [setItem, hk]
      · simp [setItem, List.lookup_cons, hk, beq_false_of_ne hk]
    · by_cases hk : k = n
      · subst hk
        simp [setItem, hn]
      · rw [setItem, if_neg hn, List.lookup_cons, List.lookup_cons, beq_false_of_ne hk, ih]

theorem lookup_eq_some_iff {d : List (String × PyFloat)} (h : (d.map Prod.fst).Nodup)
    {k : String} {v : PyFloat} : d.lookup k = some v ↔ (k, v) ∈ d := by
  induction d with
  | nil => simp
  | cons p d ih =>
    obtain ⟨n, w⟩ := p
    rw [List.map_cons, List.nodup_cons] at h
    by_cases hk : k = n
    · subst hk
      have hnot : (k, v) ∉ d := fun hmem => h.1 (List.mem_map.mpr ⟨_, hmem, rfl⟩)
      simp [eq_comm, hnot]
    · simp [List.lookup_cons, beq_false_of_ne hk, hk, ih h.2]

theorem mem_of_lookup {d : List (String × PyFloat)} {k : String} {v : PyFloat}
    (h : d.lookup k = some v) : (k, v) ∈ d := by
  induction d with
  | nil => simp at h
  | cons p d ih =>
    obtain ⟨n, w⟩ := p
    by_cases hk : k = n
    · simp_all
    · simp only [List.lookup_cons, beq_false_of_ne hk] at h
      exact List.mem_cons_of_mem _ (ih h)

theorem lookup_eq_none_iff {d : List (String × PyFloat)} {k : String} :
    d.lookup k = none ↔ k ∉ d.map Prod.fst := by
  induction d with
  | nil => simp
  | cons p d ih =>
    obtain ⟨n, w⟩ := p
    by_cases hk : k = n
    · simp [hk]
    · simp [List.lookup_cons, beq_false_of_ne hk, hk, ih]

namespace ParamSet

def empty : ParamSet := ⟨[], List.nodup_nil⟩

def names (params : ParamSet) : List String := params.values.map Prod.fst

/-- `params.values.get(name)` for a name in its normal form. -/
def lookup (params : ParamSet) (name : String) : Option PyFloat := params.values.lookup name

def insert (params : ParamSet) (name : String) (value : PyFloat) : ParamSet :=
  ⟨setItem params.values name value, setItem_nodup params.nodup name value⟩

def insertPairs : List (String × PyFloat) → ParamSet → Except PyError ParamSet
  | [], out => pure out
  | (name, value) :: pairs, out => do
    let n ← normalizeName cm name
    insertPairs pairs (out.insert n value)

def fromPairs (pairs : List (String × PyFloat)) : Except PyError ParamSet :=
  insertPairs cm pairs empty

/-- `name in params`. -/
def contains (params : ParamSet) (name : String) : Except PyError Bool := do
  let n ← normalizeName cm name
  pure (params.lookup n).isSome

/-- `params[name]`. -/
def getItem (params : ParamSet) (name : String) : Except PyError PyFloat := do
  let n ← normalizeName cm name
  match params.lookup n with
  | some value => pure value
  | none => throw (.other (strRepr n))

theorem lookup_insert (params : ParamSet) (name : String) (value : PyFloat) (k : String) :
    (params.insert name value).lookup k = if k = name then some value else params.lookup k :=
  setItem_lookup _ _ _ _

theorem lookup_eq_some {params : ParamSet} {k : String} {v : PyFloat} :
    params.lookup k = some v ↔ (k, v) ∈ params.values := lookup_eq_some_iff params.nodup

theorem lookup_eq_none {params : ParamSet} {k : String} :
    params.lookup k = none ↔ k ∉ params.names := lookup_eq_none_iff

/-- A value in the set was put in under a name with this normal form. -/
theorem insertPairs_lookup {cm : CaseMap} {pairs : List (String × PyFloat)} {out params : ParamSet}
    (h : insertPairs cm pairs out = .ok params) {k : String} {v : PyFloat}
    (hk : params.lookup k = some v) :
    (∃ p ∈ pairs, p.2 = v ∧ normalizeName cm p.1 = .ok k) ∨ out.lookup k = some v := by
  induction pairs generalizing out with
  | nil =>
    obtain rfl : out = params := Except.ok.inj h
    exact .inr hk
  | cons p pairs ih =>
    obtain ⟨name, value⟩ := p
    obtain ⟨n, hn, hrest⟩ := bind_eq_ok.mp h
    rcases ih hrest with ⟨p, hp, hv⟩ | hout
    · exact .inl ⟨p, List.mem_cons_of_mem _ hp, hv⟩
    · rw [lookup_insert] at hout
      split_ifs at hout with hkn
      · exact .inl ⟨_, List.mem_cons_self, Option.some.inj hout, hkn ▸ hn⟩
      · exact .inr hout

end ParamSet

/-- Upper-case letters, digits and underscores. -/
def plainChar (c : Char) : Bool := ('A' ≤ c && c ≤ 'Z') || ('0' ≤ c && c ≤ '9') || c = '_'

def isPlain (name : String) : Bool := !name.toList.isEmpty && name.toList.all plainChar

theorem plainChar_toNat {c : Char} (h : plainChar c = true) :
    (65 ≤ c.toNat ∧ c.toNat ≤ 90) ∨ (48 ≤ c.toNat ∧ c.toNat ≤ 57) ∨ c.toNat = 95 := by
  simp only [plainChar, Bool.or_eq_true, Bool.and_eq_true, decide_eq_true_eq] at h
  obtain (⟨h1, h2⟩ | ⟨h1, h2⟩) | rfl := h
  · exact .inl ⟨h1, h2⟩
  · exact .inr (.inl ⟨h1, h2⟩)
  · exact .inr (.inr rfl)

theorem pyIsSpace_of_plain {c : Char} (h : plainChar c = true) : pyIsSpace c = false := by
  have := plainChar_toNat h
  simp only [pyIsSpace, Bool.or_eq_false_iff, Bool.and_eq_false_iff, decide_eq_false_iff_not]
  omega

theorem toUpper_of_plain {c : Char} (h : plainChar c = true) : c.toUpper = c := by
  have hle := plainChar_toNat h
  refine dif_neg ?_
  rintro ⟨h1, -⟩
  have : 97 ≤ c.toNat := h1
  omega

theorem pyStrip_of_plain {cs : List Char} (h : cs.all plainChar = true) : pyStrip cs = cs := by
  have hstart : ∀ ds : List Char, ds.all plainChar = true → ds.dropWhile pyIsSpace = ds := by
    intro ds hds
    cases ds with
    | nil => rfl
    | cons c ds =>
      rw [List.all_cons, Bool.and_eq_true] at hds
      simp [pyIsSpace_of_plain hds.1]
  rw [pyStrip, hstart cs h, hstart cs.reverse (by simpa using h), List.reverse_reverse]

theorem upper_of_plain {cs : List Char} (h : cs.all plainChar = true) : cm.upper cs = cs := by
  rw [List.all_eq_true] at h
  have hascii : isAscii cs = true := by
    rw [isAscii, List.all_eq_true]
    intro c hc
    have := plainChar_toNat (h c hc)
    exact decide_eq_true (by omega)
  rw [cm.upper_ascii cs hascii]
  conv_rhs => rw [← List.map_id cs]
  exact List.map_congr_left fun c hc => toUpper_of_plain (h c hc)

theorem normalizeName_of_plain {name : String} (h : isPlain name = true) :
    normalizeName cm name = .ok name := by
  simp only [isPlain, Bool.and_eq_true, Bool.not_eq_true'] at h
  have hspace : name.toList.any pyIsSpace = false := by
    rw [List.any_eq_false]
    intro c hc
    simp [pyIsSpace_of_plain (List.all_eq_true.mp h.2 c hc)]
  simp only [normalizeName, pyStrip_of_plain h.2, upper_of_plain cm h.2, h.1, hspace]
  simp

namespace ParamSet

/-- Every name of the set is plain. -/
def Plain (params : ParamSet) : Prop := ∀ name ∈ params.names, isPlain name = true

variable {cm}

theorem contains_of_plain (params : ParamSet) {name : String} (h : isPlain name = true) :
    params.contains cm name = .ok (params.lookup name).isSome := by
  rw [contains, normalizeName_of_plain cm h]
  rfl

theorem getItem_of_plain {params : ParamSet} {name : String} {v : PyFloat}
    (h : isPlain name = true) (hv : params.lookup name = some v) :
    params.getItem cm name = .ok v := by
  rw [getItem, normalizeName_of_plain cm h]
  simp [hv]

theorem insertPairs_of_plain {pairs : List (String × PyFloat)}
    (h : ∀ p ∈ pairs, isPlain p.1 = true) (out : ParamSet) :
    insertPairs cm pairs out =
      .ok (pairs.foldl (fun params p => params.insert p.1 p.2) out) := by
  induction pairs generalizing out with
  | nil => rfl
  | cons p pairs ih =>
    obtain ⟨name, value⟩ := p
    rw [insertPairs, normalizeName_of_plain cm (h _ List.mem_cons_self)]
    exact ih (fun q hq => h q (List.mem_cons_of_mem _ hq)) _

theorem foldl_insert_values {pairs : List (String × PyFloat)} {out : ParamSet}
    (h : ((out.values ++ pairs).map Prod.fst).Nodup) :
    (pairs.foldl (fun params p => params.insert p.1 p.2) out).values = out.values ++ pairs := by
  induction pairs generalizing out with
  | nil => simp
  | cons p pairs ih =>
    obtain ⟨name, value⟩ := p
    have hnew : name ∉ out.values.map Prod.fst := by
      intro hmem
      rw [List.map_append, List.nodup_append] at h
      exact h.2.2 name hmem name (by simp) rfl
    have hinsert : (out.insert name value).values = out.values ++ [(name, value)] :=
      setItem_of_not_mem hnew value
    rw [List.foldl_cons, ih (by simpa [hinsert] using h), hinsert]
    simp

theorem fromPairs_of_plain {pairs : List (String × PyFloat)}
    (h : ∀ p ∈ pairs, isPlain p.1 = true) (hnodup : (pairs.map Prod.fst).Nodup) :
    fromPairs cm pairs = .ok ⟨pairs, hnodup⟩ := by
  have hvalues : (pairs.foldl (fun params p => params.insert p.1 p.2) empty).values = pairs := by
    apply foldl_insert_values
    exact hnodup
  rw [fromPairs, insertPairs_of_plain h]
  exact congrArg Except.ok (ParamSet.ext hvalues)

end ParamSet

/-- The names that have a value, with it. -/
def tabulate (names : List String) (f : String → Option PyFloat) : List (String × PyFloat) :=
  names.filterMap fun k => (f k).map (Prod.mk k)

variable {names : List String} {f : String → Option PyFloat}

theorem mem_tabulate {p : String × PyFloat} :
    p ∈ tabulate names f ↔ p.1 ∈ names ∧ f p.1 = some p.2 := by
  obtain ⟨k, v⟩ := p
  simp only [tabulate, List.mem_filterMap, Option.map_eq_some_iff, Prod.mk.injEq]
  constructor
  · rintro ⟨k', hk, v', hv, rfl, rfl⟩
    exact ⟨hk, hv⟩
  · rintro ⟨hk, hv⟩
    exact ⟨k, hk, v, hv, rfl, rfl⟩

theorem tabulate_nodup (h : names.Nodup) : ((tabulate names f).map Prod.fst).Nodup := by
  have hnames : (tabulate names f).map Prod.fst = names.filter fun k => (f k).isSome := by
    induction names with
    | nil => rfl
    | cons k names ih =>
      rw [List.nodup_cons] at h
      cases hk : f k <;> simpa [tabulate, hk] using ih h.2
  rw [hnames]
  exact h.filter _

theorem fromPairs_tabulate (cm : CaseMap) (f : String → Option PyFloat)
    (hplain : ∀ k ∈ names, isPlain k = true) (h : names.Nodup) :
    ∃ params, ParamSet.fromPairs cm (tabulate names f) = .ok params ∧
      ∀ k v, params.lookup k = some v ↔ k ∈ names ∧ f k = some v := by
  have hpairs : ∀ p ∈ tabulate names f, isPlain p.1 = true := by
    intro p hp
    exact hplain p.1 (mem_tabulate.mp hp).1
  refine ⟨_, ParamSet.fromPairs_of_plain hpairs (tabulate_nodup h), fun k v => ?_⟩
  rw [ParamSet.lookup_eq_some]
  exact mem_tabulate

end MowerRover.Params
