import MowerRover.Numeric.Bytes

/-!
# Length-prefixed frames

A payload goes out behind its length in a fixed number of bytes. The receiver
holds the front of what was sent, and the rest is still on its way: once it
holds the length it knows where the payload ends, and cutting a whole frame off
leaves the front of the frames behind it.
-/

namespace MowerRover.Numeric

variable {w : ℕ} {p more buf pending : List UInt8} {ps : List (List UInt8)}

def frame (w : ℕ) (p : List UInt8) : List UInt8 := leBytes w p.length ++ p

def frames (w : ℕ) (ps : List (List UInt8)) : List UInt8 := ps.flatMap (frame w)

@[simp] theorem frames_cons : frames w (p :: ps) = frame w p ++ frames w ps := rfl

@[simp] theorem frame_length : (frame w p).length = w + p.length := by simp [frame]

theorem header_eq (hsplit : buf ++ pending = frame w p ++ more) (hbuf : w ≤ buf.length)
    (hp : p.length < 256 ^ w) : leValue (buf.take w) = p.length := by
  have htake : buf.take w = leBytes w p.length := by
    calc buf.take w = (buf ++ pending).take w := (List.take_append_of_le_length hbuf).symm
      _ = (frame w p ++ more).take w := by rw [hsplit]
      _ = leBytes w p.length := by simp [frame]
  rw [htake, leValue_leBytes hp]

/-- A whole frame is cut off. -/
theorem cut_frame (hsplit : buf ++ pending = frame w p ++ more)
    (hbuf : w + p.length ≤ buf.length) :
    (buf.drop w).take p.length = p ∧ buf.drop (w + p.length) ++ pending = more := by
  constructor
  · have hdrop : (buf.drop w).take p.length = ((buf ++ pending).drop w).take p.length := by
      rw [List.drop_append_of_le_length (by omega), List.take_append_of_le_length (by simp; omega)]
    rw [hdrop, hsplit]
    simp [frame]
  · rw [← List.drop_append_of_le_length hbuf, hsplit]
    exact List.drop_left' frame_length

theorem whole_of_pending_nil (hsplit : buf ++ pending = frame w p ++ more)
    (hpending : pending = []) :
    w + p.length ≤ buf.length := by
  have hlen := congrArg List.length hsplit
  simp [hpending] at hlen
  omega

end MowerRover.Numeric
