import MowerRover.Numeric.Rounding

/-!
# Floating-point values over exact rationals

A float is an exact rational, an infinity or not-a-number. Subtraction and
comparison follow the IEEE rules for the special values, so that a comparison
with not-a-number is false and equal infinities differ by not-a-number;
differences of finite values are exact. Products and conversions from exact
numbers round to the nearest double.
-/

namespace MowerRover.Numeric

inductive PyFloat
  | fin (q : ℚ)
  | inf (negative : Bool)
  | nan
  deriving DecidableEq, Repr

namespace PyFloat

/-- The double nearest to an exact number. -/
def ofRat (q : ℚ) : PyFloat :=
  let r := roundAt (max (lastPlace 53 q) (2 ^ (-1074 : ℤ))) q
  if 2 ^ 1024 ≤ |r| then .inf (r < 0) else .fin r

def isFinite : PyFloat → Bool
  | .fin _ => true
  | _ => false

def isNeg : PyFloat → Bool
  | .fin a => a < 0
  | .inf s => s
  | .nan => false

def mul (a b : PyFloat) : PyFloat :=
  match a, b with
  | .fin x, .fin y => ofRat (x * y)
  | .nan, _ | _, .nan => .nan
  | .inf _, .fin y => if y = 0 then .nan else .inf (a.isNeg ^^ b.isNeg)
  | .fin x, .inf _ => if x = 0 then .nan else .inf (a.isNeg ^^ b.isNeg)
  | .inf _, .inf _ => .inf (a.isNeg ^^ b.isNeg)

def sub : PyFloat → PyFloat → PyFloat
  | .fin a, .fin b => .fin (a - b)
  | .nan, _ => .nan
  | _, .nan => .nan
  | .inf s, .inf t => if s = t then .nan else .inf s
  | .inf s, .fin _ => .inf s
  | .fin _, .inf t => .inf !t

def abs : PyFloat → PyFloat
  | .fin a => .fin |a|
  | .inf _ => .inf false
  | .nan => .nan

/-- Python's `a < b`; false as soon as one side is not a number. -/
def lt : PyFloat → PyFloat → Bool
  | .fin a, .fin b => decide (a < b)
  | .nan, _ => false
  | _, .nan => false
  | .inf s, .inf t => s && !t
  | .inf s, .fin _ => s
  | .fin _, .inf t => !t

/-- Python's `a <= b`. -/
def le : PyFloat → PyFloat → Bool
  | .fin a, .fin b => decide (a ≤ b)
  | .nan, _ => false
  | _, .nan => false
  | .inf s, .inf t => s || !t
  | .inf s, .fin _ => s
  | .fin _, .inf t => !t

/-- Python's `a == b`; not-a-number equals nothing, itself included. -/
def eq : PyFloat → PyFloat → Bool
  | .fin a, .fin b => decide (a = b)
  | .inf s, .inf t => s == t
  | _, _ => false

/-- The test `abs(a - b) > tolerance`. -/
def exceeds (tolerance : ℚ) (a b : PyFloat) : Bool := lt (.fin tolerance) (abs (sub a b))

/-- The test `abs(a - b) <= tolerance`. -/
def within (tolerance : ℚ) (a b : PyFloat) : Bool := le (abs (sub a b)) (.fin tolerance)

@[simp] theorem exceeds_fin (tolerance a b : ℚ) :
    exceeds tolerance (.fin a) (.fin b) = decide (tolerance < |a - b|) := rfl

@[simp] theorem within_fin (tolerance a b : ℚ) :
    within tolerance (.fin a) (.fin b) = decide (|a - b| ≤ tolerance) := rfl

/-- What does not exceed a tolerance is within it, unless it is not a number. -/
theorem within_of_not_exceeds {tolerance : ℚ} {a b : PyFloat} (hb : b.isFinite = true)
    (h : exceeds tolerance a b = false) : a = .nan ∨ within tolerance a b = true := by
  cases b with
  | fin q =>
    cases a with
    | fin p => exact .inr (by simpa using h)
    | inf s => simp [exceeds, sub, abs, lt] at h
    | nan => exact .inl rfl
  | inf s => simp [isFinite] at hb
  | nan => simp [isFinite] at hb

theorem exceeds_self {tolerance : ℚ} (h : 0 ≤ tolerance) (a : PyFloat) :
    exceeds tolerance a a = false := by
  cases a with
  | fin q => simpa using h
  | inf s => simp [exceeds, sub, abs, lt]
  | nan => rfl

end PyFloat
end MowerRover.Numeric
