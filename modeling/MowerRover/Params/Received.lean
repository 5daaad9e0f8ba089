import MowerRover.Params.Fetch

/-!
# What a fetch makes of a stream

The loop collects by decoded name; only at the end are the names normalized, all
at once. One name that has no normal form loses the whole set, and two spellings
of one name are put in order by when each turned up, not by when it was last
sent.
-/

namespace MowerRover.Params

open Effects Numeric Mavlink

variable (cm : CaseMap)

/-- The decoded name and the value of a message that the loop took. -/
def receivedValue : LinkEvent → Option (String × PyFloat)
  | .took (.paramValue paramId value _) => some (decodeName cm paramId, value)
  | _ => none

def received (events : List LinkEvent) : List (String × PyFloat) :=
  events.filterMap (receivedValue cm)

/-- `collected[name] = value` for one message after the other. -/
def collect (messages collected : List (String × PyFloat)) : List (String × PyFloat) :=
  messages.foldl (fun d p => setItem d p.1 p.2) collected

section Loop

variable {cm} {σ : Type} {h : Handler linkSignature σ LinkEvent}

@[simp] theorem received_nil : received cm [] = [] := rfl

@[simp] theorem received_append (a b : List LinkEvent) :
    received cm (a ++ b) = received cm a ++ received cm b := List.filterMap_append

@[simp] theorem received_skipped (ms : List Msg) : received cm (ms.map .skipped) = [] := by
  induction ms with
  | nil => rfl
  | cons m ms ih => exact ih

@[simp] theorem received_took (paramId : ParamId) (value : PyFloat) (paramCount : ℕ) :
    received cm [.took (.paramValue paramId value paramCount)] =
      [(decodeName cm paramId, value)] := rfl

/-- The run ends with the received messages collected. -/
def Collects (cm : CaseMap) (collected : List (String × PyFloat))
    (o : Outcome PyError (List (String × PyFloat)) σ LinkEvent) : Prop :=
  o.result = .ok (collect (received cm o.events) collected)

theorem collects_pure (collected : List (String × PyFloat)) (s : σ) :
    Collects cm collected ((pure collected : LinkM _).run h s) := rfl

theorem Collects.after {collected : List (String × PyFloat)} {events : List LinkEvent}
    {o : Outcome PyError (List (String × PyFloat)) σ LinkEvent} (ho : Collects cm collected o)
    (hevents : received cm events = []) : Collects cm collected (o.after events) := by
  rw [Collects, Outcome.after_result, Outcome.after_events, received_append, hevents]
  exact ho

theorem fetchLoop_collects (cm : CaseMap) (hl : IsLink h) (rounds quiet : ℕ)
    (collected : List (String × PyFloat)) (expected : Option ℕ) (s : σ) :
    Collects cm collected ((fetchLoop cm rounds quiet collected expected).run h s) := by
  induction rounds generalizing quiet collected expected s with
  | zero => exact collects_pure collected s
  | succ rounds ih =>
    have hgoOn : ∀ (c : Prop) [Decidable c] (quiet : ℕ) (collected : List (String × PyFloat))
        (expected : Option ℕ) (s : σ), Collects cm collected
          ((if c then pure collected else fetchLoop cm rounds quiet collected expected :
            LinkM _).run h s) := by
      intro c _ quiet collected expected s
      split_ifs
      · exact collects_pure collected s
      · exact ih _ _ _ _
    unfold fetchLoop
    rw [Program.run_bind, run_recvMatch, Outcome.andThen_mk_ok]
    obtain ⟨skipped, -, hev, htype⟩ := hl.recvMatch [.paramValue] s
    cases hm : (h (.recvMatch [.paramValue]) s).1 with
    | none =>
      rw [hm] at hev
      exact (hgoOn _ _ _ _ _).after (by simp [hev])
    | some m =>
      rw [hm] at hev
      cases m with
      | paramValue paramId value paramCount =>
        simp only [Program.run_bind, run_polls hl, Outcome.andThen_mk_ok, Outcome.after_nil]
        generalize h (.polls quietWindow) (h (.recvMatch [.paramValue]) s).2.1 = answer
        have hrest := hgoOn (expected.getD paramCount ≠ 0 ∧ expected.getD paramCount ≤
          (setItem collected (decodeName cm paramId) value).length) answer.1
            (setItem collected (decodeName cm paramId) value) (some (expected.getD paramCount))
              answer.2.1
        have hgot : received cm (h (.recvMatch [.paramValue]) s).2.2 =
            [(decodeName cm paramId, value)] := by simp [hev]
        rw [Collects] at hrest ⊢
        rw [Outcome.after_result, Outcome.after_events, hrest, received_append, hgot]
        rfl
      | _ => simpa [Msg.getType] using htype _ hm

/-- A fetch returns what `ParamSet.from_mapping` makes of the messages it received. -/
theorem fetchParams_received (cm : CaseMap) (hl : IsLink h) (conn : Conn) (s : σ) :
    ((fetchParams cm conn).run h s).result =
      ParamSet.fromPairs cm (collect (received cm ((fetchParams cm conn).run h s).events) []) := by
  unfold fetchParams
  simp only [Program.run_bind, run_send hl, run_polls hl, Outcome.andThen_mk_ok,
    Outcome.after_result, Outcome.after_events, Outcome.after_nil]
  have hloop := fetchLoop_collects cm hl (h (.polls fetchTimeout)
    (h (.send conn requestList) s).2.1).1 0 [] none (h (.polls fetchTimeout)
      (h (.send conn requestList) s).2.1).2.1
  rw [Collects] at hloop
  simp only [Outcome.andThen_ok hloop, Program.run_ofExcept, Outcome.after_result,
    Outcome.after_events, List.append_nil, received_append]
  rfl

end Loop

/-- The value last sent under a spelling. -/
def lastSpelled (spelling : String) (messages : List (String × PyFloat)) : Option PyFloat :=
  (messages.reverse.find? fun p => p.1 = spelling).map Prod.snd

theorem setItem_names (d : List (String × PyFloat)) (name : String) (value : PyFloat) :
    (setItem d name value).map Prod.fst =
      if name ∈ d.map Prod.fst then d.map Prod.fst else d.map Prod.fst ++ [name] := by
  induction d with
  | nil => rfl
  | cons p d ih =>
    obtain ⟨n, v⟩ := p
    by_cases hn : n = name
    · simp [setItem, hn]
    · simp only [setItem, if_neg hn, List.map_cons, ih, List.mem_cons, Ne.symm hn, false_or]
      split_ifs <;> rfl

theorem collect_append (messages : List (String × PyFloat)) (p : String × PyFloat) :
    collect (messages ++ [p]) [] = setItem (collect messages []) p.1 p.2 := by
  simp [collect]

theorem collect_names (messages : List (String × PyFloat)) :
    (collect messages []).map Prod.fst = (messages.map Prod.fst).eraseDups := by
  induction messages using List.reverseRecOn with
  | nil => rfl
  | append_singleton messages p ih =>
    have hmem : p.1 ∈ (messages.map Prod.fst).eraseDups ↔ p.1 ∈ messages.map Prod.fst :=
      List.mem_eraseDups
    rw [collect_append, setItem_names, ih, List.map_append, List.map_singleton,
      List.eraseDups_append]
    by_cases hp : p.1 ∈ messages.map Prod.fst
    · rw [if_pos (hmem.mpr hp)]
      simp [List.removeAll, hp]
    · rw [if_neg (mt hmem.mp hp)]
      simp [List.removeAll, hp, List.eraseDups_cons]

theorem collect_nodup (messages : List (String × PyFloat)) :
    ((collect messages []).map Prod.fst).Nodup := by
  induction messages using List.reverseRecOn with
  | nil => exact List.nodup_nil
  | append_singleton messages p ih =>
    rw [collect_append]
    exact setItem_nodup ih _ _

theorem collect_lookup (messages : List (String × PyFloat)) (spelling : String) :
    (collect messages []).lookup spelling = lastSpelled spelling messages := by
  induction messages using List.reverseRecOn with
  | nil => rfl
  | append_singleton messages p ih =>
    rw [collect_append, setItem_lookup, ih]
    unfold lastSpelled
    rw [List.reverse_concat, List.find?_cons]
    by_cases hp : spelling = p.1
    · simp [hp]
    · simp [hp, Ne.symm hp]

/-- The normal form of a name, if it has one. -/
def normalForm (name : String) : Option String := (normalizeName cm name).toOption

/-- The value of the last message whose name has this normal form. -/
def lastValue (name : String) (messages : List (String × PyFloat)) : Option PyFloat :=
  (messages.reverse.find? fun p => normalForm cm p.1 = some name).map Prod.snd

/-- The spelling of a name that was the last to turn up. -/
def newestSpelling (name : String) (messages : List (String × PyFloat)) : Option String :=
  (messages.map Prod.fst).eraseDups.reverse.find? fun d => normalForm cm d = some name

section Normalize

variable {cm}

theorem normalForm_eq_some {name n : String} :
    normalForm cm name = some n ↔ normalizeName cm name = .ok n := by
  rw [normalForm]
  cases normalizeName cm name <;> simp [Except.toOption]

/-- A set is built when every name has a normal form. -/
theorem exists_insertPairs_iff {pairs : List (String × PyFloat)} {out : ParamSet} :
    (∃ params, ParamSet.insertPairs cm pairs out = .ok params) ↔
      ∀ p ∈ pairs, ∃ n, normalForm cm p.1 = some n := by
  induction pairs generalizing out with
  | nil => simp [ParamSet.insertPairs]
  | cons p pairs ih =>
    obtain ⟨name, value⟩ := p
    simp only [ParamSet.insertPairs, bind_eq_ok, List.forall_mem_cons, normalForm_eq_some]
    constructor
    · rintro ⟨params, n, hn, hrest⟩
      refine ⟨⟨n, hn⟩, fun q hq => ?_⟩
      obtain ⟨m, hm⟩ := ih.mp ⟨params, hrest⟩ q hq
      exact ⟨m, normalForm_eq_some.mp hm⟩
    · rintro ⟨⟨n, hn⟩, hrest⟩
      have hpairs : ∀ q ∈ pairs, ∃ m, normalForm cm q.1 = some m := by
        intro q hq
        obtain ⟨m, hm⟩ := hrest q hq
        exact ⟨m, normalForm_eq_some.mpr hm⟩
      obtain ⟨params, hparams⟩ :
          ∃ params, ParamSet.insertPairs cm pairs (out.insert n value) = .ok params := ih.mpr hpairs
      exact ⟨params, n, hn, hparams⟩

/-- The last pair of a name wins. -/
theorem insertPairs_lookup_eq {pairs : List (String × PyFloat)} {out params : ParamSet}
    (h : ParamSet.insertPairs cm pairs out = .ok params) (name : String) :
    params.lookup name = (lastValue cm name pairs).or (out.lookup name) := by
  induction pairs generalizing out with
  | nil =>
    obtain rfl : out = params := Except.ok.inj h
    rfl
  | cons p pairs ih =>
    obtain ⟨m, value⟩ := p
    obtain ⟨n, hn, hrest⟩ := bind_eq_ok.mp h
    have hm : normalForm cm m = some n := normalForm_eq_some.mpr hn
    have hlast : lastValue cm name ((m, value) :: pairs) =
        (lastValue cm name pairs).or (if name = n then some value else none) := by
      rw [lastValue, List.reverse_cons, List.find?_append, lastValue, Option.map_or]
      congr 1
      by_cases hname : name = n
      · simp [hname, hm]
      · simp [hname, hm, Ne.symm hname]
    rw [ih hrest, ParamSet.lookup_insert, hlast, Option.or_assoc]
    split_ifs <;> rfl

theorem lastValue_of_nodup {d : List (String × PyFloat)} (h : (d.map Prod.fst).Nodup)
    (name : String) : lastValue cm name d =
      ((d.map Prod.fst).reverse.find? fun k => normalForm cm k = some name).bind
        fun k => d.lookup k := by
  rw [← List.map_reverse, List.find?_map, Option.bind_map, lastValue, Function.comp_def]
  cases hp : d.reverse.find? fun p => decide (normalForm cm p.1 = some name) with
  | none => rfl
  | some p =>
    have hmem : p ∈ d := List.mem_reverse.mp (List.mem_of_find?_eq_some hp)
    exact ((lookup_eq_some_iff h).mpr hmem).symm

theorem fromPairs_collect_lookup {messages : List (String × PyFloat)} {params : ParamSet}
    (h : ParamSet.fromPairs cm (collect messages []) = .ok params) (name : String) :
    params.lookup name =
      (newestSpelling cm name messages).bind fun d => lastSpelled d messages := by
  have hempty : ParamSet.empty.lookup name = none := rfl
  rw [insertPairs_lookup_eq h, hempty, Option.or_none, lastValue_of_nodup (collect_nodup messages),
    collect_names, newestSpelling]
  congr 1
  funext d
  exact collect_lookup messages d

theorem exists_fromPairs_collect_iff {messages : List (String × PyFloat)} :
    (∃ params, ParamSet.fromPairs cm (collect messages []) = .ok params) ↔
      ∀ p ∈ messages, ∃ n, normalForm cm p.1 = some n := by
  have hnames : ∀ k, k ∈ (collect messages []).map Prod.fst ↔ k ∈ messages.map Prod.fst := by
    intro k
    rw [collect_names, List.mem_eraseDups]
  rw [ParamSet.fromPairs, exists_insertPairs_iff]
  constructor
  · intro h p hp
    obtain ⟨q, hq, heq⟩ := List.mem_map.mp ((hnames p.1).mpr (List.mem_map.mpr ⟨p, hp, rfl⟩))
    exact heq ▸ h q hq
  · intro h p hp
    obtain ⟨q, hq, heq⟩ := List.mem_map.mp ((hnames p.1).mp (List.mem_map.mpr ⟨p, hp, rfl⟩))
    exact heq ▸ h q hq

end Normalize

/-- A fetch that returns the last value of every name among the messages it took, and no others. -/
def Faithful {σ : Type} (o : Outcome PyError ParamSet σ LinkEvent) : Prop :=
  ∃ params, o.result = .ok params ∧
    ∀ name, params.lookup name = lastValue cm name (received cm o.events)

/-- Every received name has a normal form, and the last value of a name is the one last sent under
the spelling of it that was the last to turn up. -/
structure WellSpelled (messages : List (String × PyFloat)) : Prop where
  normal : ∀ p ∈ messages, ∃ n, normalForm cm p.1 = some n
  newest : ∀ name d, newestSpelling cm name messages = some d →
    lastValue cm name messages = lastSpelled d messages

section Fetch

variable {cm}

theorem lastValue_of_unspelled {messages : List (String × PyFloat)} {name : String}
    (h : newestSpelling cm name messages = none) : lastValue cm name messages = none := by
  rw [newestSpelling, List.find?_eq_none] at h
  rw [lastValue, Option.map_eq_none_iff, List.find?_eq_none]
  intro p hp
  refine h p.1 (List.mem_reverse.mpr (List.mem_eraseDups.mpr ?_))
  exact List.mem_map.mpr ⟨p, List.mem_reverse.mp hp, rfl⟩

end Fetch

/-- A fetch is faithful exactly when the messages it took are well spelled. -/
theorem fetchParams_faithful_iff (conn : Conn) (s : Link) :
    Faithful cm ((fetchParams cm conn).run link s) ↔
      WellSpelled cm (received cm ((fetchParams cm conn).run link s).events) := by
  have hresult := fetchParams_received cm isLink_link conn s
  generalize (fetchParams cm conn).run link s = o at hresult ⊢
  constructor
  · rintro ⟨params, hparams, hlookup⟩
    have hfrom := hresult.symm.trans hparams
    refine ⟨exists_fromPairs_collect_iff.mp ⟨params, hfrom⟩, fun name d hd => ?_⟩
    rw [← hlookup, fromPairs_collect_lookup hfrom, hd, Option.bind_some]
  · rintro ⟨hnormal, hnewest⟩
    obtain ⟨params, hfrom⟩ := exists_fromPairs_collect_iff.mpr hnormal
    refine ⟨params, hresult.trans hfrom, fun name => ?_⟩
    rw [fromPairs_collect_lookup hfrom]
    cases hd : newestSpelling cm name (received cm o.events) with
    | none => rw [lastValue_of_unspelled hd, Option.bind_none]
    | some d => rw [hnewest name d hd, Option.bind_some]

/-- A good message, and one whose id is all zero bytes. -/
def emptyIdLink : Link :=
  ⟨[.paramValue (.bytes [82, 84, 76, 95, 65, 76, 84]) (.fin 15) 2,
    .paramValue (.bytes (List.replicate 16 0)) (.fin 0) 2], streamTurns 2⟩

theorem fetchParams_empty_id :
    ((fetchParams .asciiOnly ⟨1, 1⟩).run link emptyIdLink).result =
        .error (.value "invalid param name: ''") ∧
      ¬ Faithful .asciiOnly ((fetchParams .asciiOnly ⟨1, 1⟩).run link emptyIdLink) := by
  have hraises : ((fetchParams .asciiOnly ⟨1, 1⟩).run link emptyIdLink).result =
      .error (.value "invalid param name: ''") := rfl
  refine ⟨hraises, fun ⟨params, hparams, _⟩ => ?_⟩
  rw [hraises] at hparams
  cases hparams

end MowerRover.Params
