import MowerRover.Numeric.StructFormat

/-!
# Pose messages on the wire

The SLAM node writes its poses as packed C structs; the bridge reads them with
`struct.unpack`. Both layouts are written out here from their own source, so
that their agreement is a theorem. A C `float` is kept as its bit pattern.
-/

namespace MowerRover.Vslam

open Numeric

structure PoseMessage where
  timestampUs : ℤ
  x : SignedFloat
  y : SignedFloat
  z : SignedFloat
  roll : SignedFloat
  pitch : SignedFloat
  yaw : SignedFloat
  covariance : List SignedFloat
  confidence : ℤ
  resetCounter : ℤ
  deriving DecidableEq

/-- `"<Q27fBB"`. -/
def poseStructFmt : StructFormat :=
  [StructField.uint64] ++ List.replicate 27 StructField.float32 ++
    [StructField.uint8, StructField.uint8]

def poseStructSize : ℕ := poseStructFmt.calcsize

theorem poseStructSize_eq : poseStructSize = 118 := by decide

namespace PoseMessage

def intAt (fields : List StructValue) (i : ℕ) : ℤ :=
  match fields[i]? with
  | some (.int n) => n
  | _ => 0

def floatOf : StructValue → SignedFloat
  | .float x => x
  | .int _ => .nan

def floatAt (fields : List StructValue) (i : ℕ) : SignedFloat :=
  (fields[i]?.map floatOf).getD .nan

/-- The constructor call of `from_bytes`; the kinds of the fields are those of the format. -/
def ofFields (fields : List StructValue) : PoseMessage where
  timestampUs := intAt fields 0
  x := floatAt fields 1
  y := floatAt fields 2
  z := floatAt fields 3
  roll := floatAt fields 4
  pitch := floatAt fields 5
  yaw := floatAt fields 6
  covariance := ((fields.take 28).drop 7).map floatOf
  confidence := intAt fields 28
  resetCounter := intAt fields 29

def fromBytes (data : List UInt8) : Except PyError PoseMessage :=
  if data.length ≠ poseStructSize then
    throw (.value s!"Expected {poseStructSize} bytes, got {data.length}")
  else do
    let fields ← poseStructFmt.unpack data
    pure (ofFields fields)

/-- The arguments of `struct.pack` in `to_bytes`. -/
def fields (m : PoseMessage) : List StructValue :=
  [StructValue.int m.timestampUs] ++
    [m.x, m.y, m.z, m.roll, m.pitch, m.yaw].map StructValue.float ++
    m.covariance.map StructValue.float ++
    [StructValue.int m.confidence, StructValue.int m.resetCounter]

def toBytes (m : PoseMessage) : Except PyError (List UInt8) := poseStructFmt.pack m.fields

/-- The message holds values of the wire's types. -/
structure FitsWire (m : PoseMessage) : Prop where
  timestampUs : 0 ≤ m.timestampUs ∧ m.timestampUs < 2 ^ 64
  pose : ∀ v ∈ [m.x, m.y, m.z, m.roll, m.pitch, m.yaw], v.IsSingle
  covariance_length : m.covariance.length = 21
  covariance : ∀ v ∈ m.covariance, v.IsSingle
  confidence : 0 ≤ m.confidence ∧ m.confidence < 2 ^ 8
  resetCounter : 0 ≤ m.resetCounter ∧ m.resetCounter < 2 ^ 8

theorem ofFields_fields {m : PoseMessage} (h : m.covariance.length = 21) :
    ofFields m.fields = m := by
  obtain ⟨t, x, y, z, roll, pitch, yaw, cov, conf, rc⟩ := m
  simp only at h
  have hmap : cov.map (floatOf ∘ StructValue.float) = cov := by simp [Function.comp_def, floatOf]
  simp [ofFields, fields, intAt, floatAt, floatOf, h, hmap]

theorem fields_ofFields (t : ℤ) (floats : List SignedFloat) (c r : ℤ) (h : floats.length = 27) :
    (ofFields ([StructValue.int t] ++ floats.map StructValue.float ++
      [StructValue.int c, StructValue.int r])).fields =
      [StructValue.int t] ++ floats.map StructValue.float ++
        [StructValue.int c, StructValue.int r] := by
  match floats, h with
  | x :: y :: z :: roll :: pitch :: yaw :: cov, h =>
    have h' : cov.length = 21 := by simpa using h
    exact congrArg fields (ofFields_fields (m := ⟨t, x, y, z, roll, pitch, yaw, cov, c, r⟩) h')

theorem fields_fit {m : PoseMessage} (h : m.FitsWire) :
    List.Forall₂ StructField.Fits poseStructFmt m.fields := by
  have hfloats : ∀ v ∈ [m.x, m.y, m.z, m.roll, m.pitch, m.yaw] ++ m.covariance, v.IsSingle := by
    intro v hv
    exact (List.mem_append.mp hv).elim (h.pose v) (h.covariance v)
  have hlen : ([m.x, m.y, m.z, m.roll, m.pitch, m.yaw] ++ m.covariance).length = 27 := by
    simp [h.covariance_length]
  have hmiddle := StructFormat.forall₂_fits_floats hfloats
  rw [hlen] at hmiddle
  have hfirst : List.Forall₂ StructField.Fits [.uint64] [.int m.timestampUs] :=
    .cons h.timestampUs .nil
  have hlast : List.Forall₂ StructField.Fits [.uint8, .uint8]
      [.int m.confidence, .int m.resetCounter] := .cons h.confidence (.cons h.resetCounter .nil)
  simpa [fields, poseStructFmt] using List.rel_append (List.rel_append hfirst hmiddle) hlast

theorem fromBytes_toBytes {m : PoseMessage} (h : m.FitsWire) :
    ∃ b, m.toBytes = .ok b ∧ fromBytes b = .ok m := by
  obtain ⟨b, hpack, hlen, hunpack⟩ := StructFormat.unpack_pack (fields_fit h)
  refine ⟨b, hpack, ?_⟩
  have hsize : b.length = poseStructSize := hlen
  rw [fromBytes, if_neg (not_not.mpr hsize), hunpack]
  exact congrArg Except.ok (ofFields_fields h.covariance_length)

/-- The patterns at the places of the floats are numbers. -/
def FloatsAreNumbers (b : List UInt8) : Prop :=
  ∀ i < 27, SignedFloat.ofBits (leValue ((b.drop (8 + 4 * i)).take 4)) ≠ .nan

theorem unpackFields_pose (b : List UInt8) :
    poseStructFmt.unpackFields b =
      [StructValue.int (leValue (b.take 8))] ++
        (StructFormat.floats 27 (b.drop 8)).map StructValue.float ++
        [StructValue.int (leValue ((b.drop 116).take 1)),
          StructValue.int (leValue ((b.drop 117).take 1))] := by
  have hfirst : StructFormat.calcsize [.uint64] = 8 := rfl
  have hmiddle : StructFormat.calcsize ([.uint64] ++ List.replicate 27 .float32) = 116 := by decide
  rw [poseStructFmt, StructFormat.unpackFields_append, StructFormat.unpackFields_append, hfirst,
    hmiddle, StructFormat.unpackFields_floats]
  simp [StructFormat.unpackFields, StructField.unpack, StructField.size]

theorem fromBytes_of_length {b : List UInt8} (h : b.length = 118) :
    fromBytes b = .ok (ofFields (poseStructFmt.unpackFields b)) := by
  have hsize : b.length = poseStructSize := h.trans poseStructSize_eq.symm
  have hlen : b.length = poseStructFmt.calcsize := hsize
  rw [fromBytes, if_neg (not_not.mpr hsize), StructFormat.unpack, if_neg (not_not.mpr hlen)]
  rfl

theorem toBytes_fromBytes {b : List UInt8} (hlen : b.length = 118) (hnum : FloatsAreNumbers b) :
    ∃ m, fromBytes b = .ok m ∧ m.toBytes = .ok b := by
  refine ⟨_, fromBytes_of_length hlen, ?_⟩
  have hfields := unpackFields_pose b
  have hback : (ofFields (poseStructFmt.unpackFields b)).fields = poseStructFmt.unpackFields b := by
    rw [hfields]
    exact fields_ofFields _ _ _ _ (StructFormat.floats_length 27 _)
  rw [toBytes, hback]
  refine StructFormat.pack_unpackFields (hlen.trans poseStructSize_eq.symm) fun hnan => ?_
  rw [hfields] at hnan
  obtain ⟨x, hx, hxnan⟩ : ∃ x ∈ StructFormat.floats 27 (b.drop 8), x = .nan := by simpa using hnan
  obtain ⟨i, hi, rfl⟩ := StructFormat.exists_of_mem_floats hx
  rw [List.drop_drop] at hxnan
  exact hnum i hi hxnan

theorem fromBytes_of_length_ne {b : List UInt8} (h : b.length ≠ 118) :
    fromBytes b = .error (.value s!"Expected 118 bytes, got {b.length}") := by
  rw [fromBytes, poseStructSize_eq, if_pos h]
  rfl

end PoseMessage

/-- `struct vslam_pose_msg`. -/
structure VslamPoseMsg where
  timestampUs : UInt64
  x : UInt32
  y : UInt32
  z : UInt32
  roll : UInt32
  pitch : UInt32
  yaw : UInt32
  covariance : Vector UInt32 21
  confidence : UInt8
  resetCounter : UInt8

/-- The little-endian byte image of the packed struct. -/
def VslamPoseMsg.bytes (msg : VslamPoseMsg) : List UInt8 :=
  leBytes 8 msg.timestampUs.toNat ++ leBytes 4 msg.x.toNat ++ leBytes 4 msg.y.toNat ++
    leBytes 4 msg.z.toNat ++ leBytes 4 msg.roll.toNat ++ leBytes 4 msg.pitch.toNat ++
    leBytes 4 msg.yaw.toNat ++ msg.covariance.toList.flatMap (fun p => leBytes 4 p.toNat) ++
    [msg.confidence, msg.resetCounter]

/-- The values stored in the struct. -/
def VslamPoseMsg.stored (msg : VslamPoseMsg) : PoseMessage where
  timestampUs := msg.timestampUs.toNat
  x := .ofBits msg.x.toNat
  y := .ofBits msg.y.toNat
  z := .ofBits msg.z.toNat
  roll := .ofBits msg.roll.toNat
  pitch := .ofBits msg.pitch.toNat
  yaw := .ofBits msg.yaw.toNat
  covariance := msg.covariance.toList.map fun p => .ofBits p.toNat
  confidence := msg.confidence.toNat
  resetCounter := msg.resetCounter.toNat

def VslamPoseMsg.patterns (msg : VslamPoseMsg) : List UInt32 :=
  [msg.x, msg.y, msg.z, msg.roll, msg.pitch, msg.yaw] ++ msg.covariance.toList

theorem VslamPoseMsg.bytes_eq (msg : VslamPoseMsg) :
    msg.bytes = leBytes 8 msg.timestampUs.toNat ++
      (msg.patterns.flatMap (fun p => leBytes 4 p.toNat) ++
        [msg.confidence, msg.resetCounter]) := by
  simp [bytes, patterns]

theorem VslamPoseMsg.patterns_length (msg : VslamPoseMsg) : msg.patterns.length = 27 := by
  simp [patterns]

theorem VslamPoseMsg.bytes_length (msg : VslamPoseMsg) : msg.bytes.length = 118 := by
  simp [bytes_eq, patterns_length]

/-- The reader finds in the node's bytes the values the node stored. -/
theorem PoseMessage.fromBytes_bytes (msg : VslamPoseMsg) : fromBytes msg.bytes =
    .ok msg.stored := by
  have hmid : (msg.patterns.flatMap fun p => leBytes 4 p.toNat).length = 108 := by
    simp [msg.patterns_length]
  have hfloats := StructFormat.floats_flatMap msg.patterns [msg.confidence, msg.resetCounter]
  rw [msg.patterns_length] at hfloats
  have htime : leValue (leBytes 8 msg.timestampUs.toNat) = msg.timestampUs.toNat :=
    leValue_leBytes (lt_of_lt_of_eq msg.timestampUs.toNat_lt (by norm_num))
  have hlast : ∀ k, msg.bytes.drop (116 + k) = [msg.confidence, msg.resetCounter].drop k := by
    intro k
    rw [msg.bytes_eq, List.drop_append, List.drop_append, leBytes_length, hmid,
      List.drop_eq_nil_of_le (by simp; omega), List.drop_eq_nil_of_le (by rw [hmid]; omega)]
    rw [show 116 + k - 8 - 108 = k by omega]
    rfl
  rw [fromBytes_of_length msg.bytes_length, unpackFields_pose, hlast 0, hlast 1, msg.bytes_eq,
    List.take_left' (leBytes_length 8 _), List.drop_left' (leBytes_length 8 _), hfloats, htime]
  refine congrArg Except.ok (Eq.trans ?_ (ofFields_fields (m := msg.stored) ?_))
  · simp [fields, VslamPoseMsg.stored, VslamPoseMsg.patterns, leValue]
  · simp [VslamPoseMsg.stored]

/-- What `transform_to_pose_msg` reads of a `cv::Mat` of doubles. -/
structure CvMat where
  empty : Bool
  rows : ℕ
  cols : ℕ
  entry : ℕ → ℕ → SignedFloat

/-- What it reads of an `rtabmap::Transform`: the translation and the Euler angles. -/
structure Transform where
  x : UInt32
  y : UInt32
  z : UInt32
  roll : UInt32
  pitch : UInt32
  yaw : UInt32

/-- `static_cast<float>`. -/
def castFloat (x : SignedFloat) : UInt32 := UInt32.ofNat x.toBits

theorem ofBits_castFloat {x : SignedFloat} (hx : x.IsSingle) :
    SignedFloat.ofBits (castFloat x).toNat = x := by
  rw [castFloat, UInt32.toNat_ofNat_of_lt' x.toBits_lt, SignedFloat.ofBits_toBits hx]

/-- The two loops over the upper triangle, with the running index `idx`. -/
def fillCovariance (covariance : CvMat) (out : Vector UInt32 21) : Vector UInt32 21 :=
  ((List.range 6).foldl (fun state r =>
    (List.range' r (6 - r)).foldl (fun (idx, out) c =>
      (idx + 1, out.setIfInBounds idx (castFloat (covariance.entry r c)))) state) (0, out)).2

def transformToPoseMsg (nowUs : UInt64) (t : Transform) (covariance : CvMat) (confidence : UInt8)
    (resetCounter : UInt8) : VslamPoseMsg where
  timestampUs := nowUs
  x := t.x
  y := t.y
  z := t.z
  roll := t.roll
  pitch := t.pitch
  yaw := t.yaw
  confidence := confidence
  resetCounter := resetCounter
  covariance :=
    let zeros := Vector.replicate 21 0
    if !covariance.empty && covariance.rows = 6 && covariance.cols = 6 then
      fillCovariance covariance zeros
    else zeros

/-- The entries `r ≤ c` of a 6×6 matrix, row by row. -/
def upperTriangle : List (ℕ × ℕ) :=
  (List.range 6).flatMap fun r => (List.range' r (6 - r)).map fun c => (r, c)

/-- Writing values one after the other from `idx` on replaces as many places. -/
theorem foldl_write_toList (f : ℕ × ℕ → UInt32) (entries : List (ℕ × ℕ)) (idx : ℕ)
    (out : Vector UInt32 21) (h : idx + entries.length ≤ 21) :
    (entries.foldl (fun (st : ℕ × Vector UInt32 21) e =>
      (st.1 + 1, st.2.setIfInBounds st.1 (f e))) (idx, out)).2.toList =
      out.toList.take idx ++ entries.map f ++ out.toList.drop (idx + entries.length) := by
  induction entries generalizing idx out with
  | nil => simp
  | cons e entries ih =>
    rw [List.length_cons] at h
    have htake : (out.toList.set idx (f e)).take (idx + 1) = out.toList.take idx ++ [f e] := by
      rw [List.take_add_one, List.take_set_of_le le_rfl, List.getElem?_set_self (by simp; omega)]
      rfl
    rw [List.foldl_cons, ih _ _ (by omega), Vector.toList_setIfInBounds, htake,
      List.drop_set_of_lt (by omega), List.length_cons, List.map_cons]
    simp [Nat.add_comm, Nat.add_left_comm]

theorem fillCovariance_toList (covariance : CvMat) (out : Vector UInt32 21) :
    (fillCovariance covariance out).toList =
      upperTriangle.map fun e => castFloat (covariance.entry e.1 e.2) := by
  have hlen : upperTriangle.length = 21 := by decide
  have h := foldl_write_toList (fun e => castFloat (covariance.entry e.1 e.2)) upperTriangle 0 out
    (by rw [hlen])
  rw [hlen, List.drop_eq_nil_of_le (by simp)] at h
  simpa [fillCovariance, upperTriangle, List.foldl_flatMap, List.foldl_map] using h

/-- The wire format of poses, in both directions and against the node's struct. -/
theorem poseMessage_wire :
    (∀ m : PoseMessage, m.FitsWire →
      ∃ b, m.toBytes = .ok b ∧ PoseMessage.fromBytes b = .ok m) ∧
    (∀ b : List UInt8, b.length = 118 → PoseMessage.FloatsAreNumbers b →
      ∃ m, PoseMessage.fromBytes b = .ok m ∧ m.toBytes = .ok b) ∧
    (∀ msg : VslamPoseMsg, PoseMessage.fromBytes msg.bytes = .ok msg.stored) ∧
    (∀ nowUs t covariance confidence resetCounter, covariance.empty = false →
      covariance.rows = 6 → covariance.cols = 6 →
      ∃ m, PoseMessage.fromBytes
          (transformToPoseMsg nowUs t covariance confidence resetCounter).bytes = .ok m ∧
        ∀ k r c : ℕ, upperTriangle[k]? = some (r, c) →
          m.covariance[k]? = some (SignedFloat.ofBits (castFloat (covariance.entry r c)).toNat) ∧
          ((covariance.entry r c).IsSingle →
            m.covariance[k]? = some (covariance.entry r c))) ∧
    (∀ b : List UInt8, b.length ≠ 118 →
      PoseMessage.fromBytes b = .error (.value s!"Expected 118 bytes, got {b.length}")) := by
  refine ⟨fun m => PoseMessage.fromBytes_toBytes, fun b => PoseMessage.toBytes_fromBytes,
    PoseMessage.fromBytes_bytes, ?_, fun b => PoseMessage.fromBytes_of_length_ne⟩
  intro nowUs t covariance confidence resetCounter hempty hrows hcols
  refine ⟨_, PoseMessage.fromBytes_bytes _, fun k r c hk => ?_⟩
  have hentry : (transformToPoseMsg nowUs t covariance confidence
      resetCounter).stored.covariance[k]? =
        some (SignedFloat.ofBits (castFloat (covariance.entry r c)).toNat) := by
    simp [VslamPoseMsg.stored, transformToPoseMsg, hempty, hrows, hcols, fillCovariance_toList, hk]
  exact ⟨hentry, fun hsingle => by rw [hentry, ofBits_castFloat hsingle]⟩

/-- Entries that say their row and their column. -/
def numberedMat : CvMat := ⟨false, 6, 6, fun r c => .fin false (10 * r + c : ℕ)⟩

def numberedPose : PoseMessage where
  timestampUs := 1000
  x := .fin false (3 : ℕ)
  y := .fin true (1 : ℕ)
  z := .inf false
  roll := .fin true 0
  pitch := .fin false 0
  yaw := .fin false (2 : ℕ)
  covariance := upperTriangle.map fun e => numberedMat.entry e.1 e.2
  confidence := 100
  resetCounter := 1

theorem numberedMat_isSingle (r c : ℕ) (hr : r < 6) (hc : c < 6) :
    (numberedMat.entry r c).IsSingle := SignedFloat.isSingle_natCast (by omega)

theorem numberedPose_fitsWire : numberedPose.FitsWire where
  timestampUs := by decide
  pose := by
    have hzero : ∀ s, (SignedFloat.fin s 0).IsSingle := fun s => by
      simpa using SignedFloat.isSingle_natCast (s := s) (n := 0) (by norm_num)
    simp only [numberedPose, List.forall_mem_cons]
    exact ⟨SignedFloat.isSingle_natCast (by norm_num), SignedFloat.isSingle_natCast (by norm_num),
      trivial, hzero _, hzero _, SignedFloat.isSingle_natCast (by norm_num), by simp⟩
  covariance_length := by decide
  covariance := by
    intro v hv
    obtain ⟨e, he, rfl⟩ := List.mem_map.mp hv
    have hbound : ∀ e ∈ upperTriangle, e.1 < 6 ∧ e.2 < 6 := by decide
    exact numberedMat_isSingle _ _ (hbound e he).1 (hbound e he).2
  confidence := by decide
  resetCounter := by decide

theorem poseMessage_wire_numbered :
    (∃ b, numberedPose.toBytes = .ok b ∧ PoseMessage.fromBytes b = .ok numberedPose) ∧
      (∃ m, PoseMessage.fromBytes (List.replicate 118 1) = .ok m ∧
        m.toBytes = .ok (List.replicate 118 1)) ∧
      ∃ m, PoseMessage.fromBytes
          (transformToPoseMsg 1000 ⟨0, 0, 0, 0, 0, 0⟩ numberedMat 100 1).bytes = .ok m ∧
        m.covariance[8]? = some (.fin false (13 : ℕ)) := by
  obtain ⟨hround, hbytes, -, hentries, -⟩ := poseMessage_wire
  obtain ⟨m, hm, hcov⟩ := hentries 1000 ⟨0, 0, 0, 0, 0, 0⟩ numberedMat 100 1 rfl rfl rfl
  refine ⟨hround _ numberedPose_fitsWire, hbytes _ (by simp) ?_, m, hm, ?_⟩
  · intro i hi
    have hfour : min 4 (118 - (8 + 4 * i)) = 4 := by omega
    rw [List.drop_replicate, List.take_replicate, hfour]
    decide +kernel
  · exact (hcov 8 1 3 (by decide)).2 (numberedMat_isSingle 1 3 (by norm_num) (by norm_num))

end MowerRover.Vslam
