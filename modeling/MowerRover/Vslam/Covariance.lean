import MowerRover.Vslam.Bridge
import Mathlib.LinearAlgebra.Matrix.Symmetric

/-!
# The frame of the covariance

Turning a pose from forward-left-up to north-east-down is a linear map, so the
covariance of the turned pose is the old one with that map on both sides. The
values are exact here; a float stands for the rational it represents.
-/

namespace MowerRover.Vslam

open Numeric Matrix

/-- The signs `flu_to_ned_pose` gives to the coordinates of a pose. -/
def nedSign : Fin 6 → ℚ := ![1, -1, -1, 1, -1, -1]

def nedJacobian : Matrix (Fin 6) (Fin 6) ℚ := diagonal nedSign

def Pose6.values (p : Pose6) : Fin 6 → Option ℚ :=
  ![p.x.toRat?, p.y.toRat?, p.z.toRat?, p.roll.toRat?, p.pitch.toRat?, p.yaw.toRat?]

theorem fluToNedPose_values {p : Pose6} {v : Fin 6 → ℚ} (h : ∀ i, p.values i = some (v i))
    (i : Fin 6) :
    (fluToNedPose p).values i = some ((nedJacobian *ᵥ v) i) := by
  have hi := h i
  rw [nedJacobian, mulVec_diagonal]
  fin_cases i <;>
    simpa [fluToNedPose, Pose6.values, nedSign, SignedFloat.toRat?_neg] using hi

/-- The upper triangle of a matrix, row by row. -/
def upperOf (S : Matrix (Fin 6) (Fin 6) ℚ) : List ℚ :=
  upperTriangle.map fun e => S (Fin.ofNat 6 e.1) (Fin.ofNat 6 e.2)

/-- The pose and the covariance sent for a message are both turned by the same map. -/
def SentInOneFrame (build : MavBuild) (msg : PoseMessage) (S : Matrix (Fin 6) (Fin 6) ℚ) : Prop :=
  ∀ st now usec pose cov rc,
    Sent.visionPosition usec pose (some cov) rc ∈ (forward build st msg now).2 →
      (∀ v : Fin 6 → ℚ, (∀ i, msg.pose6.values i = some (v i)) →
        ∀ i, pose.values i = some ((nedJacobian *ᵥ v) i)) ∧
      cov.map SignedFloat.toRat? = (upperOf (nedJacobian * S * nedJacobianᵀ)).map some

theorem nedJacobian_conj (S : Matrix (Fin 6) (Fin 6) ℚ) (r c : Fin 6) :
    (nedJacobian * S * nedJacobianᵀ) r c = nedSign r * S r c * nedSign c := by
  simp [nedJacobian, diagonal_mul, mul_diagonal]

theorem nedSign_mul (r c : Fin 6) (x : ℚ) :
    nedSign r * x * nedSign c = if nedSign r = nedSign c then x else -x := by
  fin_cases r <;> fin_cases c <;> norm_num [nedSign]

theorem mem_upperTriangle (r c : Fin 6) (h : r ≤ c) : (r.val, c.val) ∈ upperTriangle := by
  revert r c
  decide

theorem upperOf_conj_eq {S : Matrix (Fin 6) (Fin 6) ℚ} (hS : S.IsSymm) :
    upperOf S = upperOf (nedJacobian * S * nedJacobianᵀ) ↔
      ∀ r c, nedSign r ≠ nedSign c → S r c = 0 := by
  have hentry : ∀ r c, S r c = (nedJacobian * S * nedJacobianᵀ) r c ↔
      (nedSign r ≠ nedSign c → S r c = 0) := by
    intro r c
    rw [nedJacobian_conj, nedSign_mul]
    split
    · simp_all
    · simp_all [self_eq_neg]
  constructor
  · intro h r c
    have hupper : ∀ r c, r ≤ c → nedSign r ≠ nedSign c → S r c = 0 := by
      intro r c hrc
      have := List.map_inj_left.mp h _ (mem_upperTriangle r c hrc)
      exact (hentry r c).mp (by simpa using this)
    rcases le_total r c with hrc | hrc
    · exact hupper r c hrc
    · intro hsign
      rw [← hS.apply]
      exact hupper c r hrc hsign.symm
  · intro h
    refine List.map_inj_left.mpr fun e _ => (hentry _ _).mpr (h _ _)

theorem visionPosition_mem_forward {build : MavBuild} {st : BridgeState} {msg : PoseMessage}
    {now : ℚ} {usec : ℤ} {pose : Pose6} {cov : List SignedFloat} {rc : Option ℤ}
    (h : Sent.visionPosition usec pose (some cov) rc ∈ (forward build st msg now).2) :
    pose = fluToNedPose msg.pose6 ∧ build.visionPosition.covariance = true ∧ cov =
      msg.covariance := by
  obtain h | ⟨fluVel, -, h⟩ | ⟨text, h, -⟩ | ⟨h, -⟩ := mem_forward.mp h
  · obtain ⟨-, rfl, hcov, -⟩ := Sent.visionPosition.inj h
    split_ifs at hcov with hfield
    exact ⟨rfl, hfield, Option.some.inj hcov⟩
  all_goals exact Sent.noConfusion h

theorem SentInOneFrame.mixed_eq_zero {build : MavBuild} {msg : PoseMessage}
    {S : Matrix (Fin 6) (Fin 6) ℚ} (h : SentInOneFrame build msg S) (hS : S.IsSymm)
    (hcov : msg.covariance.map SignedFloat.toRat? = (upperOf S).map some)
    (hfield : build.visionPosition.covariance = true) :
    ∀ r c, nedSign r ≠ nedSign c → S r c = 0 := by
  have hsent := (h {} 0 msg.timestampUs (fluToNedPose msg.pose6) msg.covariance _
    (mem_forward.mpr (.inl (by rw [sendVisionPosition, hfield, if_pos rfl])))).2
  rw [hcov] at hsent
  exact (upperOf_conj_eq hS).mp (List.map_injective_iff.mpr (Option.some_injective ℚ) hsent)

theorem sentInOneFrame_of_mixed_eq_zero {build : MavBuild} {msg : PoseMessage}
    {S : Matrix (Fin 6) (Fin 6) ℚ} (hS : S.IsSymm)
    (hcov : msg.covariance.map SignedFloat.toRat? = (upperOf S).map some)
    (h : build.visionPosition.covariance = false ∨ ∀ r c, nedSign r ≠ nedSign c → S r c = 0) :
    SentInOneFrame build msg S := by
  intro st now usec pose cov rc hsent
  obtain ⟨rfl, hfield, rfl⟩ := visionPosition_mem_forward hsent
  refine ⟨fun v hv i => fluToNedPose_values hv i, ?_⟩
  rw [hcov, (upperOf_conj_eq hS).mpr (h.resolve_left (by simp [hfield]))]

/-- The covariance is sent in the frame of the pose exactly when the entries between a
turned and an unturned coordinate are zero. -/
theorem forward_covariance_iff (build : MavBuild) (msg : PoseMessage)
    (S : Matrix (Fin 6) (Fin 6) ℚ) (hS : S.IsSymm)
    (hcov : msg.covariance.map SignedFloat.toRat? = (upperOf S).map some) :
    SentInOneFrame build msg S ↔
      build.visionPosition.covariance = false ∨ ∀ r c, nedSign r ≠ nedSign c → S r c = 0 := by
  refine ⟨fun h => ?_, sentInOneFrame_of_mixed_eq_zero hS hcov⟩
  rw [or_iff_not_imp_left, Bool.not_eq_false]
  exact h.mixed_eq_zero hS hcov

/-- A pose at rest, with this covariance. -/
def restingPose (covariance : List SignedFloat) : PoseMessage where
  timestampUs := 0
  x := .fin false 0
  y := .fin false 0
  z := .fin false 0
  roll := .fin false 0
  pitch := .fin false 0
  yaw := .fin false 0
  covariance := covariance
  confidence := 100
  resetCounter := 0

/-- The identity with a correlation of one half between two coordinates. -/
def correlated (j k : ℕ) : Matrix (Fin 6) (Fin 6) ℚ := fun r c =>
  if r = c then 1 else if r.val = j ∧ c.val = k ∨ r.val = k ∧ c.val = j then 1 / 2 else 0

def correlatedPose (j k : ℕ) : PoseMessage :=
  restingPose (upperTriangle.map fun e =>
    .fin false (if e.1 = e.2 then 1 else if e.1 = j ∧ e.2 = k then 1 / (1 + 1) else 0))

theorem correlated_isSymm (j k : ℕ) : (correlated j k).IsSymm := by
  ext r c
  simp only [transpose_apply, correlated, eq_comm (a := r), or_comm, and_comm]

/-- A correlation of `y` and `z`, which are both turned, is sent in the frame of the pose. -/
theorem forward_covariance_turned :
    SentInOneFrame allFields (correlatedPose 1 2) (correlated 1 2) := by
  refine (forward_covariance_iff allFields (correlatedPose 1 2) (correlated 1 2)
    (correlated_isSymm 1 2) ?_).mpr (.inr ?_)
  · decide +kernel
  · intro r c hsign
    fin_cases r <;> fin_cases c <;> simp_all [correlated, nedSign]

/-- One of `x` and `y` is not. -/
theorem forward_covariance_unturned :
    (correlated 0 1).IsSymm ∧
      (correlatedPose 0 1).covariance.map SignedFloat.toRat? = (upperOf (correlated 0 1)).map some ∧
        ¬SentInOneFrame allFields (correlatedPose 0 1) (correlated 0 1) := by
  have hcov : (correlatedPose 0 1).covariance.map SignedFloat.toRat? =
      (upperOf (correlated 0 1)).map some := by decide +kernel
  refine ⟨correlated_isSymm 0 1, hcov, fun h => ?_⟩
  have hzero := h.mixed_eq_zero (correlated_isSymm 0 1) hcov rfl 0 1 (by norm_num [nedSign])
  norm_num [correlated] at hzero

end MowerRover.Vslam
