import Mathlib.Data.List.DropRight
import Mathlib.Data.List.ReduceOption
import MowerRover.Errors
import MowerRover.Numeric.Double
import MowerRover.Vslam.Pose

/-!
# The health of the bridge, over the radio

Once a second the bridge sends a heartbeat and four named values. The listener
on the laptop collects what arrives, among other traffic, until it has all four
or its time is over. It may start to listen anywhere between two messages.
-/

namespace MowerRover.Vslam

open Numeric

structure BridgeHealth where
  poseRateHz : SignedFloat
  poseAgeMs : SignedFloat
  confidence : ℤ
  covarianceNorm : SignedFloat
  bridgeConnected : Bool
  slamConnected : Bool

inductive Metric
  | hz
  | conf
  | age
  | cov
  deriving DecidableEq

def Metric.name : Metric → List Char
  | .hz => ['V', 'S', 'L', 'A', 'M', '_', 'H', 'Z']
  | .conf => ['V', 'S', 'L', 'A', 'M', '_', 'C', 'O', 'N', 'F']
  | .age => ['V', 'S', 'L', 'A', 'M', '_', 'A', 'G', 'E']
  | .cov => ['V', 'S', 'L', 'A', 'M', '_', 'C', 'O', 'V']

/-- pymavlink may return bytes or str. -/
inductive RawName
  | bytes (b : List UInt8)
  | str (s : List Char)

def decodeAscii (b : UInt8) : Char := if b < 128 then Char.ofNat b.toNat else '\uFFFD'

def RawName.text : RawName → List Char
  | .bytes b => (b.rdropWhile (· = 0)).map decodeAscii
  | .str s => s.rdropWhile (· = '\x00')

inductive HealthMsg
  | heartbeat (srcComponent : ℕ)
  | namedValueFloat (name : RawName) (value : SignedFloat)

def bridgeComponentId : ℕ := 197

def metricOf (name : List Char) : Option Metric :=
  [Metric.hz, .conf, .age, .cov].find? fun k => k.name = name

/-- `int(value)`. -/
def intOfFloat : SignedFloat → Except PyError ℤ
  | .fin negative magnitude => .ok (if negative then -⌊(magnitude : ℚ)⌋ else ⌊(magnitude : ℚ)⌋)
  | .inf _ => .error (.overflow "cannot convert float infinity to integer")
  | .nan => .error (.value "cannot convert float NaN to integer")

/-- `x > 0`. -/
def isPositive : SignedFloat → Bool
  | .fin negative magnitude => !negative && magnitude ≠ 0
  | .inf negative => !negative
  | .nan => false

structure ListenState where
  metrics : Metric → Option SignedFloat := fun _ => none
  bridgeHeartbeatSeen : Bool := false

def ListenState.complete (st : ListenState) : Bool :=
  (st.metrics .hz).isSome && (st.metrics .conf).isSome && (st.metrics .age).isSome &&
    (st.metrics .cov).isSome

/-- The health made of the metrics there are. -/
def ListenState.health (st : ListenState) : Except PyError BridgeHealth := do
  let confidence ← intOfFloat ((st.metrics .conf).getD (.fin false 0))
  let hz := (st.metrics .hz).getD (.fin false 0)
  pure {
    poseRateHz := hz
    poseAgeMs := (st.metrics .age).getD (.inf false)
    confidence := confidence
    covarianceNorm := (st.metrics .cov).getD (.fin false 0)
    bridgeConnected := st.bridgeHeartbeatSeen
    slamConnected := isPositive hz }

/-- After the deadline: what there is, if there is anything. -/
def ListenState.partialHealth (st : ListenState) : Except PyError (Option BridgeHealth) :=
  if (st.metrics .hz).isSome || (st.metrics .conf).isSome || (st.metrics .age).isSome ||
      (st.metrics .cov).isSome then
    some <$> st.health
  else pure none

/-- What a message does to the metrics. -/
def ListenState.hear (st : ListenState) : HealthMsg → ListenState
  | .heartbeat srcComponent =>
    { st with bridgeHeartbeatSeen := st.bridgeHeartbeatSeen || srcComponent = bridgeComponentId }
  | .namedValueFloat name value =>
    match metricOf name.text with
    | some k => { st with metrics := Function.update st.metrics k (some value) }
    | none => st

/-- The loop, over what `recv_match` returns until the deadline. -/
def listenFrom : ListenState → List (Option HealthMsg) → Except PyError (Option BridgeHealth)
  | st, [] => st.partialHealth
  | st, none :: answers => listenFrom st answers
  | st, some (.heartbeat c) :: answers => listenFrom (st.hear (.heartbeat c)) answers
  | st, some (.namedValueFloat name value) :: answers =>
    let st := st.hear (.namedValueFloat name value)
    if st.complete then some <$> st.health else listenFrom st answers

def listenVslamHealth (answers : List (Option HealthMsg)) : Except PyError (Option BridgeHealth) :=
  listenFrom {} answers

/-- The value of a metric in a message of its name. -/
def valueOf (k : Metric) : HealthMsg → Option SignedFloat
  | .heartbeat _ => none
  | .namedValueFloat name value => if name.text = k.name then some value else none

def isBridgeHeartbeat : HealthMsg → Bool
  | .heartbeat c => c = bridgeComponentId
  | .namedValueFloat _ _ => false

/-- The value in the last message of the metric's name. -/
def lastValue (msgs : List HealthMsg) (k : Metric) : Option SignedFloat :=
  (msgs.filterMap (valueOf k)).getLast?

/-- Every metric is in some message. -/
def hasAll (msgs : List HealthMsg) : Bool :=
  [Metric.hz, .conf, .age, .cov].all fun k => (lastValue msgs k).isSome

/-- The messages up to the one that completes the metrics, after those in `before`. -/
def untilComplete : List HealthMsg → List HealthMsg → List HealthMsg
  | before, [] => before
  | before, msg :: msgs =>
    if hasAll (before ++ [msg]) then before ++ [msg] else untilComplete (before ++ [msg]) msgs

theorem metricOf_eq_some {name : List Char} {k : Metric} :
    metricOf name = some k ↔ name = k.name := by
  constructor
  · intro h
    have hname := List.find?_some h
    exact (of_decide_eq_true hname).symm
  · rintro rfl
    cases k <;> rfl

/-- The state after these messages. -/
def heard (msgs : List HealthMsg) : ListenState where
  metrics := lastValue msgs
  bridgeHeartbeatSeen := msgs.any isBridgeHeartbeat

theorem complete_heard (msgs : List HealthMsg) : (heard msgs).complete = hasAll msgs := by
  simp [ListenState.complete, heard, hasAll, Bool.and_assoc]

theorem lastValue_concat (msgs : List HealthMsg) (msg : HealthMsg) (k : Metric) :
    lastValue (msgs ++ [msg]) k = (valueOf k msg).or (lastValue msgs k) := by
  rw [lastValue, List.filterMap_append, List.filterMap_cons, List.filterMap_nil]
  cases valueOf k msg with
  | none => simp [lastValue]
  | some value => simp

theorem heard_append_singleton (msgs : List HealthMsg) (msg : HealthMsg) :
    heard (msgs ++ [msg]) = (heard msgs).hear msg := by
  cases msg with
  | heartbeat c =>
    have hsame : lastValue (msgs ++ [.heartbeat c]) = lastValue msgs :=
      funext fun k => lastValue_concat msgs _ k
    simp [heard, hsame, ListenState.hear, isBridgeHeartbeat]
  | namedValueFloat name value =>
    have hvalues : lastValue (msgs ++ [.namedValueFloat name value]) =
        match metricOf name.text with
        | some k => Function.update (lastValue msgs) k (some value)
        | none => lastValue msgs := by
      funext j
      rw [lastValue_concat, valueOf]
      cases hk : metricOf name.text with
      | none =>
        have hother : name.text ≠ j.name := by
          intro hname
          rw [metricOf_eq_some.mpr hname] at hk
          cases hk
        rw [if_neg hother, Option.none_or]
      | some k =>
        dsimp only
        by_cases hj : j = k
        · subst hj
          rw [if_pos (metricOf_eq_some.mp hk), Option.some_or, Function.update_self]
        · have hother : name.text ≠ j.name := fun hname =>
            hj (Option.some.inj ((metricOf_eq_some.mpr hname).symm.trans hk))
          rw [if_neg hother, Option.none_or, Function.update_of_ne hj]
    simp only [heard, hvalues, ListenState.hear, List.any_append, List.any_cons, List.any_nil,
      isBridgeHeartbeat, Bool.or_false]
    cases metricOf name.text <;> rfl

theorem complete_partialHealth {st : ListenState} (h : st.complete = true) :
    st.partialHealth = some <$> st.health := by
  simp only [ListenState.complete, Bool.and_eq_true] at h
  simp [ListenState.partialHealth, h.1.1.1]

theorem listenFrom_eq (before : List HealthMsg) (answers : List (Option HealthMsg))
    (hbefore : hasAll before = false) :
    listenFrom (heard before) answers =
      (heard (untilComplete before answers.reduceOption)).partialHealth := by
  induction answers generalizing before with
  | nil => rfl
  | cons answer answers ih =>
    cases answer with
    | none => exact ih before hbefore
    | some msg =>
      rw [List.reduceOption_cons_of_some, untilComplete]
      cases msg with
      | heartbeat c =>
        have hsame : hasAll (before ++ [.heartbeat c]) = false := by
          rw [← complete_heard, heard_append_singleton]
          exact (complete_heard before).trans hbefore
        rw [if_neg (by simp [hsame]), listenFrom, ← heard_append_singleton, ih _ hsame]
      | namedValueFloat name value =>
        rw [listenFrom, ← heard_append_singleton]
        simp only [complete_heard]
        split
        · rename_i hcomplete
          rw [complete_partialHealth ((complete_heard _).trans hcomplete)]
        · rename_i hcomplete
          exact ih _ (by simpa using hcomplete)

/-- The snapshot of these messages: of each metric the last value, with a default for one that did
not come. There is none when no metric did, and a confidence that is no number raises. -/
def snapshot (msgs : List HealthMsg) : Except PyError (Option BridgeHealth) :=
  if [Metric.hz, .conf, .age, .cov].all fun k => (lastValue msgs k).isNone then .ok none
  else
    (intOfFloat ((lastValue msgs .conf).getD (.fin false 0))).map fun confidence => some {
      poseRateHz := (lastValue msgs .hz).getD (.fin false 0)
      poseAgeMs := (lastValue msgs .age).getD (.inf false)
      confidence := confidence
      covarianceNorm := (lastValue msgs .cov).getD (.fin false 0)
      bridgeConnected := msgs.any isBridgeHeartbeat
      slamConnected := isPositive ((lastValue msgs .hz).getD (.fin false 0)) }

/-- The snapshot is made of the last message of each name in the shortest part of the traffic
with all four, or in all of it. -/
theorem listenVslamHealth_eq (answers : List (Option HealthMsg)) :
    listenVslamHealth answers =
      snapshot (untilComplete [] answers.reduceOption) := by
  refine (listenFrom_eq [] answers rfl).trans ?_
  generalize untilComplete [] answers.reduceOption = msgs
  have hhealth : some <$> (heard msgs).health = (intOfFloat ((lastValue msgs .conf).getD
      (.fin false 0))).map fun confidence => some {
        poseRateHz := (lastValue msgs .hz).getD (.fin false 0)
        poseAgeMs := (lastValue msgs .age).getD (.inf false)
        confidence := confidence
        covarianceNorm := (lastValue msgs .cov).getD (.fin false 0)
        bridgeConnected := msgs.any isBridgeHeartbeat
        slamConnected := isPositive ((lastValue msgs .hz).getD (.fin false 0)) } := by
    rw [ListenState.health, heard]
    cases intOfFloat ((lastValue msgs .conf).getD (.fin false 0)) <;> rfl
  rw [snapshot, ← hhealth, ListenState.partialHealth]
  cases hhz : lastValue msgs .hz <;> cases hconf : lastValue msgs .conf <;>
    cases hage : lastValue msgs .age <;> cases hcov : lastValue msgs .cov <;>
      simp [heard, hhz, hconf, hage, hcov]

/-- The single-precision value that crosses the link. -/
def wire (x : SignedFloat) : SignedFloat := .ofBits x.toBits

/-- `name.encode("ascii").ljust(10, b"\x00")[:10]`. -/
def padName (name : List Char) : List UInt8 :=
  let encoded := name.map fun c => UInt8.ofNat c.toNat
  (encoded ++ List.replicate (10 - encoded.length) 0).take 10

def sendNamedValueFloat (k : Metric) (value : SignedFloat) : Except PyError HealthMsg := do
  let packed ← StructField.packFloat value
  pure (.namedValueFloat (.bytes (padName k.name)) (.ofBits (leValue packed)))

/-- The metrics of a snapshot, as they are sent. -/
def BridgeHealth.metric (h : BridgeHealth) : Metric → SignedFloat
  | .hz => h.poseRateHz
  | .conf => .nearest false h.confidence
  | .age => h.poseAgeMs
  | .cov => h.covarianceNorm

/-- One message after the other, up to the first that cannot be packed. -/
def sendAll : List (Except PyError HealthMsg) → List HealthMsg × Option PyError
  | [] => ([], none)
  | .error e :: _ => ([], some e)
  | .ok msg :: later => (msg :: (sendAll later).1, (sendAll later).2)

/-- The heartbeat and `_send_health_metrics`. -/
def sendHealth (h : BridgeHealth) : List HealthMsg × Option PyError :=
  sendAll (.ok (.heartbeat bridgeComponentId) ::
    [Metric.hz, .conf, .age, .cov].map fun k => sendNamedValueFloat k (h.metric k))

/-- A metric in single precision. -/
def metricMsg (k : Metric) (x : SignedFloat) : HealthMsg :=
  .namedValueFloat (.bytes (padName k.name)) (wire x)

/-- What is sent of a snapshot when nothing raises. -/
def burst (h : BridgeHealth) : List HealthMsg :=
  .heartbeat bridgeComponentId ::
    [Metric.hz, .conf, .age, .cov].map fun k => metricMsg k (h.metric k)

theorem sendNamedValueFloat_ok {k : Metric} {value : SignedFloat} {msg : HealthMsg}
    (h : sendNamedValueFloat k value = .ok msg) : msg = metricMsg k value := by
  obtain ⟨packed, hpacked, hmsg⟩ := bind_eq_ok.mp h
  obtain rfl := Except.ok.inj hmsg
  have hbits : packed = leBytes 4 value.toBits := by
    cases value with
    | fin s q =>
      rw [StructField.packFloat] at hpacked
      split_ifs at hpacked
      exact (Except.ok.inj hpacked).symm
    | inf s => exact (Except.ok.inj hpacked).symm
    | nan => exact (Except.ok.inj hpacked).symm
  rw [hbits, leValue_leBytes (SignedFloat.toBits_lt value)]
  rfl

theorem sendAll_whole {h : BridgeHealth} {ks : List Metric}
    (hwhole : (sendAll (ks.map fun k => sendNamedValueFloat k (h.metric k))).2 = none) :
    (sendAll (ks.map fun k => sendNamedValueFloat k (h.metric k))).1 =
      ks.map fun k => metricMsg k (h.metric k) := by
  induction ks with
  | nil => rfl
  | cons k ks ih =>
    simp only [List.map_cons] at hwhole ⊢
    cases hsend : sendNamedValueFloat k (h.metric k) with
    | error e =>
      rw [hsend] at hwhole
      cases hwhole
    | ok msg =>
      rw [hsend] at hwhole
      rw [sendAll, ih hwhole, sendNamedValueFloat_ok hsend]

theorem sendHealth_whole {h : BridgeHealth} (hwhole : (sendHealth h).2 = none) :
    (sendHealth h).1 = burst h :=
  congrArg (HealthMsg.heartbeat bridgeComponentId :: ·) (sendAll_whole hwhole)

@[simp] theorem valueOf_heartbeat (k : Metric) (c : ℕ) : valueOf k (.heartbeat c) = none := rfl

theorem text_padName (k : Metric) : (RawName.bytes (padName k.name)).text = k.name := by
  cases k <;> decide

theorem Metric.name_inj {j k : Metric} : j.name = k.name ↔ j = k := by
  cases j <;> cases k <;> decide

@[simp] theorem valueOf_metricMsg (j k : Metric) (x : SignedFloat) :
    valueOf j (metricMsg k x) = if k = j then some (wire x) else none := by
  simp only [metricMsg, valueOf, text_padName, Metric.name_inj]

@[simp] theorem isBridgeHeartbeat_metricMsg (k : Metric) (x : SignedFloat) :
    isBridgeHeartbeat (metricMsg k x) = false := rfl

/-- The listener takes notice of the message. -/
def isRelevant (msg : HealthMsg) : Bool :=
  isBridgeHeartbeat msg || [Metric.hz, .conf, .age, .cov].any fun k => (valueOf k msg).isSome

theorem lastValue_filter (msgs : List HealthMsg) :
    lastValue (msgs.filter isRelevant) = lastValue msgs := by
  funext k
  rw [lastValue, lastValue]
  congr 1
  induction msgs with
  | nil => rfl
  | cons msg msgs ih =>
    cases hrel : isRelevant msg with
    | true => rw [List.filter_cons_of_pos hrel, List.filterMap_cons, List.filterMap_cons, ih]
    | false =>
      have hnone : valueOf k msg = none := by
        simp only [isRelevant, Bool.or_eq_false_iff] at hrel
        cases k <;> simp_all
      rw [List.filter_cons_of_neg (by simp [hrel]), List.filterMap_cons, hnone, ih]

theorem hasAll_filter (msgs : List HealthMsg) : hasAll (msgs.filter isRelevant) = hasAll msgs := by
  rw [hasAll, hasAll, lastValue_filter]

theorem any_isBridgeHeartbeat_filter (msgs : List HealthMsg) :
    (msgs.filter isRelevant).any isBridgeHeartbeat = msgs.any isBridgeHeartbeat := by
  rw [List.any_filter]
  congr 1
  funext msg
  cases hbeat : isBridgeHeartbeat msg <;> simp [isRelevant, hbeat]

theorem snapshot_filter (msgs : List HealthMsg) :
    snapshot (msgs.filter isRelevant) = snapshot msgs := by
  rw [snapshot, snapshot, lastValue_filter, any_isBridgeHeartbeat_filter]

theorem untilComplete_filter (before msgs : List HealthMsg) (hopen : hasAll before = false) :
    (untilComplete before msgs).filter isRelevant =
      untilComplete (before.filter isRelevant) (msgs.filter isRelevant) := by
  induction msgs generalizing before with
  | nil => rfl
  | cons msg msgs ih =>
    cases hrel : isRelevant msg with
    | true =>
      have hconcat : (before ++ [msg]).filter isRelevant = before.filter isRelevant ++ [msg] := by
        rw [List.filter_append, List.filter_cons_of_pos hrel, List.filter_nil]
      rw [List.filter_cons_of_pos hrel, untilComplete, untilComplete, ← hconcat, hasAll_filter]
      split_ifs with hcomplete
      · rfl
      · exact ih _ (by simpa using hcomplete)
    | false =>
      have hsame : (before ++ [msg]).filter isRelevant = before.filter isRelevant := by
        rw [List.filter_append, List.filter_cons_of_neg (by simp [hrel]), List.filter_nil,
          List.append_nil]
      have hstill : hasAll (before ++ [msg]) = false := by
        rw [← hasAll_filter, hsame, hasAll_filter, hopen]
      rw [List.filter_cons_of_neg (by simp [hrel]), untilComplete, if_neg (by simp [hstill]),
        ih _ hstill, hsame]

theorem drop_flatMap {α β : Type} {f : α → List β} {width : ℕ} (hf : ∀ a, (f a).length = width)
    (hpos : 0 < width) (as : List α) (n : ℕ) :
    (as.flatMap f).drop n = ((as.drop (n / width)).flatMap f).drop (n % width) := by
  induction as generalizing n with
  | nil => simp
  | cons a as ih =>
    by_cases hn : n < width
    · rw [Nat.div_eq_of_lt hn, Nat.mod_eq_of_lt hn, List.drop_zero]
    · obtain ⟨m, rfl⟩ := Nat.exists_eq_add_of_le (not_lt.mp hn)
      rw [List.flatMap_cons, ← hf a, List.drop_length_add_append, hf a, Nat.add_div_left _ hpos,
        Nat.add_mod_left, List.drop_succ_cons, ih m]

/-- The number of messages of a burst up to this metric. -/
def Metric.position : Metric → ℕ
  | .hz => 1
  | .conf => 2
  | .age => 3
  | .cov => 4

/-- Of two bursts, with the first entered after `r` of its messages, the one a metric is of. -/
def burstOf (r : ℕ) (h h' : BridgeHealth) (k : Metric) : BridgeHealth :=
  if r ≤ k.position then h else h'

/-- What completes the metrics: the rest of the burst that was entered after `r` of its messages,
and of the next one as much as is missing. -/
def completing (r : ℕ) (h h' : BridgeHealth) : List HealthMsg :=
  (burst h).drop r ++ (burst h').take (if r ≤ 1 then 0 else r)

theorem length_completing (h h' : BridgeHealth) {r : ℕ} (hr : r < 5) :
    (completing r h h').length = if r = 1 then 4 else 5 := by
  interval_cases r <;> rfl

theorem untilComplete_completing (h h' : BridgeHealth) {r : ℕ} (hr : r < 5)
    (msgs : List HealthMsg) :
    untilComplete [] (completing r h h' ++ msgs) = completing r h h' := by
  interval_cases r <;> simp [completing, burst, untilComplete, hasAll, lastValue]

/-- A stream of bursts that is entered after `n` messages. -/
theorem drop_bursts {bursts : List BridgeHealth} {n : ℕ} (hlong : n + 5 ≤ 5 * bursts.length)
    (hlt : n / 5 < bursts.length) : ∃ rest, (bursts.flatMap burst).drop n =
      completing (n % 5) bursts[n / 5] (bursts[n / 5 + 1]?.getD bursts[n / 5]) ++ rest := by
  have hr : n % 5 < 5 := Nat.mod_lt n (by norm_num)
  have hlen : ∀ h, (burst h).length = 5 := fun _ => rfl
  have hstream : (bursts.flatMap burst).drop n =
      (burst bursts[n / 5]).drop (n % 5) ++ (bursts.drop (n / 5 + 1)).flatMap burst := by
    rw [drop_flatMap hlen (by norm_num), List.drop_eq_getElem_cons hlt, List.flatMap_cons,
      List.drop_append_of_le_length hr.le]
  rw [hstream, completing]
  by_cases hfirst : n % 5 ≤ 1
  · refine ⟨(bursts.drop (n / 5 + 1)).flatMap burst, ?_⟩
    rw [if_pos hfirst, List.take_zero, List.append_nil]
  · have hnext : n / 5 + 1 < bursts.length := by omega
    rw [if_neg hfirst, List.getElem?_eq_getElem hnext, Option.getD_some,
      List.drop_eq_getElem_cons hnext, List.flatMap_cons]
    refine ⟨(burst bursts[n / 5 + 1]).drop (n % 5) ++
      (bursts.drop (n / 5 + 1 + 1)).flatMap burst, ?_⟩
    rw [List.append_assoc, ← List.append_assoc (List.take _ _), List.take_append_drop]

/-- A confidence arrives as it was sent. -/
theorem intOfFloat_wire_conf {h : BridgeHealth} (hpos : 0 ≤ h.confidence)
    (hbyte : h.confidence < 256) : intOfFloat (wire (h.metric .conf)) = .ok h.confidence := by
  obtain ⟨n, hn⟩ := Int.eq_ofNat_of_zero_le hpos
  rw [hn] at hbyte
  have hdouble : (SignedFloat.fin false (n : ℚ≥0)).IsDouble := by
    refine ⟨n, 0, by omega, by norm_num, by simp, ?_⟩
    calc (n : ℚ≥0) < 2 ^ 8 := by norm_num; exact_mod_cast hbyte
      _ < 2 ^ 1024 := pow_lt_pow_right₀ (by norm_num) (by norm_num)
  have hsingle : (SignedFloat.fin false (n : ℚ≥0)).IsSingle :=
    SignedFloat.isSingle_natCast (by omega)
  have hmetric : h.metric .conf = .fin false n := by
    have hself := SignedFloat.nearest_of_isDouble hdouble
    rw [BridgeHealth.metric, hn]
    simpa [SignedFloat.signed] using hself
  rw [wire, hmetric, SignedFloat.ofBits_toBits hsingle, hn]
  simp [intOfFloat]

theorem lastValue_append (xs ys : List HealthMsg) (k : Metric) :
    lastValue (xs ++ ys) k = (lastValue ys k).or (lastValue xs k) := by
  rw [lastValue, List.filterMap_append, List.getLast?_append]
  rfl

theorem lastValue_drop_burst (h : BridgeHealth) (r : ℕ) (hr : r < 5) (k : Metric) :
    lastValue ((burst h).drop r) k = if r ≤ k.position then some (wire (h.metric k)) else none := by
  interval_cases r <;> cases k <;> simp [burst, lastValue, Metric.position]

theorem lastValue_take_burst (h : BridgeHealth) (r : ℕ) (hr : r < 5) (k : Metric) :
    lastValue ((burst h).take r) k = if k.position < r then some (wire (h.metric k)) else none := by
  interval_cases r <;> cases k <;> simp [burst, lastValue, Metric.position]

theorem any_drop_burst (h : BridgeHealth) (r : ℕ) :
    ((burst h).drop r).any isBridgeHeartbeat = decide (r = 0) := by
  match r with
  | 0 => rfl
  | r + 1 =>
    rw [burst, List.drop_succ_cons, ← List.map_drop, List.any_map]
    have hnone : isBridgeHeartbeat ∘ (fun k => metricMsg k (h.metric k)) = fun _ => false := rfl
    rw [hnone]
    simp

/-- The snapshot of a burst, from one of its messages on, and the beginning of the next one. -/
theorem snapshot_bursts (h h' : BridgeHealth) (r : ℕ) (hr : r < 5)
    (hpos : 0 ≤ (burstOf r h h' .conf).confidence)
    (hbyte : (burstOf r h h' .conf).confidence < 256) :
    snapshot (completing r h h') = .ok (some {
      poseRateHz := wire (burstOf r h h' .hz).poseRateHz
      poseAgeMs := wire (burstOf r h h' .age).poseAgeMs
      confidence := (burstOf r h h' .conf).confidence
      covarianceNorm := wire (burstOf r h h' .cov).covarianceNorm
      bridgeConnected := decide (r ≠ 1)
      slamConnected := isPositive (wire (burstOf r h h' .hz).poseRateHz) }) := by
  have hconf := intOfFloat_wire_conf hpos hbyte
  have hlast : lastValue (completing r h h') =
      fun k => some (wire ((burstOf r h h' k).metric k)) := by
    funext k
    have hfirst : 1 ≤ k.position := by cases k <;> decide
    rw [completing, lastValue_append, lastValue_drop_burst h r hr, lastValue_take_burst h' _
      (by split_ifs <;> omega),
      burstOf]
    by_cases hown : r ≤ k.position
    · have hnot : ¬ k.position < if r ≤ 1 then 0 else r := by split_ifs <;> omega
      rw [if_neg hnot, if_pos hown, if_pos hown, Option.none_or]
    · have hnext : k.position < if r ≤ 1 then 0 else r := by split_ifs <;> omega
      rw [if_pos hnext, if_neg hown, if_neg hown, Option.some_or]
  have hbeat : (completing r h h').any isBridgeHeartbeat = decide (r ≠ 1) := by
    rw [completing, List.any_append, any_drop_burst]
    interval_cases r <;> rfl
  rw [snapshot, hlast, hbeat]
  simp only [Option.isNone_some, List.all_cons, Bool.false_and, Option.getD_some, hconf]
  rfl

/-- Wherever the listener starts in the bridge's whole bursts, and whatever else is on the link: it
has heard enough after the first five of their messages, and after four when it started right after
a heartbeat. The snapshot takes each metric from the burst it starts in if it is still to come
there, and from the next burst otherwise. The bridge counts as not connected exactly when the
listener started right after a heartbeat. -/
theorem listenVslamHealth_bursts {bursts : List BridgeHealth} {answers : List (Option HealthMsg)}
    {n : ℕ} (hwhole : ∀ h ∈ bursts, (sendHealth h).2 = none)
    (hconf : ∀ h ∈ bursts, 0 ≤ h.confidence ∧ h.confidence < 256)
    (hlong : n + 5 ≤ 5 * bursts.length)
    (hanswers : answers.reduceOption.filter isRelevant =
      (bursts.flatMap fun h => (sendHealth h).1).drop n) :
    ((untilComplete [] answers.reduceOption).filter isRelevant =
      ((bursts.flatMap fun h => (sendHealth h).1).drop n).take (if n % 5 = 1 then 4 else 5)) ∧
    ∃ h h', bursts[n / 5]? = some h ∧ bursts[n / 5 + 1]?.getD h = h' ∧
      listenVslamHealth answers = .ok (some {
        poseRateHz := wire (burstOf (n % 5) h h' .hz).poseRateHz
        poseAgeMs := wire (burstOf (n % 5) h h' .age).poseAgeMs
        confidence := (burstOf (n % 5) h h' .conf).confidence
        covarianceNorm := wire (burstOf (n % 5) h h' .cov).covarianceNorm
        bridgeConnected := decide (n % 5 ≠ 1)
        slamConnected := isPositive (wire (burstOf (n % 5) h h' .hz).poseRateHz) }) := by
  have hbursts : (bursts.flatMap fun h => (sendHealth h).1) = bursts.flatMap burst :=
    List.flatMap_congr fun h hh => sendHealth_whole (hwhole h hh)
  have hlt : n / 5 < bursts.length := by omega
  have hr : n % 5 < 5 := Nat.mod_lt n (by norm_num)
  obtain ⟨h', hh'⟩ : ∃ h', bursts[n / 5 + 1]?.getD bursts[n / 5] = h' := ⟨_, rfl⟩
  obtain ⟨rest, hstream⟩ := drop_bursts hlong hlt
  rw [hh'] at hstream
  have hfilter := untilComplete_filter [] answers.reduceOption rfl
  rw [List.filter_nil, hanswers, hbursts, hstream, untilComplete_completing _ _ hr] at hfilter
  constructor
  · rw [hfilter, hbursts, hstream, ← length_completing bursts[n / 5] h' hr, List.take_left]
  · have hmem : ∀ k, burstOf (n % 5) bursts[n / 5] h' k ∈ bursts := by
      intro k
      unfold burstOf
      split
      · exact List.getElem_mem hlt
      · rw [← hh']
        cases hnext : bursts[n / 5 + 1]? with
        | none => exact List.getElem_mem hlt
        | some h => exact List.mem_of_getElem? hnext
    obtain ⟨hpos, hbyte⟩ := hconf _ (hmem .conf)
    refine ⟨bursts[n / 5], h', List.getElem?_eq_getElem hlt, hh', ?_⟩
    rw [listenVslamHealth_eq, ← snapshot_filter, hfilter]
    exact snapshot_bursts _ _ _ hr hpos hbyte

def twoBursts : List BridgeHealth :=
  [⟨.fin false 15, .fin false 12, 100, .fin false 0, true, true⟩,
    ⟨.fin false 19, .fin false 30, 90, .fin false 0, true, true⟩]

/-- The autopilot's heartbeat first, and the bursts from the second metric on. -/
def midAnswers : List (Option HealthMsg) :=
  none :: some (.heartbeat 1) ::
    ((twoBursts.flatMap fun h => (sendHealth h).1).drop 2).map some

theorem listenVslamHealth_bursts_mid : ∃ health,
    listenVslamHealth midAnswers = .ok (some health) ∧ health.confidence = 100 ∧
      health.poseRateHz = wire (.fin false 19) ∧ health.bridgeConnected = true ∧
      ((untilComplete [] midAnswers.reduceOption).filter isRelevant).length = 5 := by
  have hwhole : ∀ h ∈ twoBursts, (sendHealth h).2 = none := by decide +kernel
  have hanswers : midAnswers.reduceOption.filter isRelevant =
      (twoBursts.flatMap fun h => (sendHealth h).1).drop 2 := by
    have hself : ((twoBursts.flatMap fun h => (sendHealth h).1).drop 2).filter isRelevant =
        (twoBursts.flatMap fun h => (sendHealth h).1).drop 2 :=
      List.filter_eq_self.mpr (List.all_eq_true.mp (by decide +kernel))
    rw [midAnswers, List.reduceOption_cons_of_none, List.reduceOption_cons_of_some,
      List.filter_cons_of_neg (by decide), List.reduceOption, List.filterMap_map]
    simpa using hself
  obtain ⟨hlistened, h, h', hfirst, hnext, hlisten⟩ :=
    listenVslamHealth_bursts hwhole (by decide) (by decide) hanswers
  obtain rfl := Option.some.inj hfirst
  obtain rfl := hnext
  refine ⟨_, hlisten, rfl, rfl, rfl, ?_⟩
  rw [hlistened]
  decide +kernel

/-- A covariance that single precision cannot hold ends the bursts, after the other metrics. -/
example : (sendHealth ⟨.fin false 15, .fin false 12, 100, .fin false (2 ^ 128), true, true⟩).2 =
    some (.overflow "float too large to pack with f format") := by decide +kernel

end MowerRover.Vslam
