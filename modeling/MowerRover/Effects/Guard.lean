import MowerRover.Effects.Program

/-!
# Calls that are refused

A layer below a program may refuse a call, with an exception in the place of the
call. Only for programs that catch nothing: an exception of the layer ends the
run here, whatever handlers the program has.
-/

namespace MowerRover.Effects.Program

variable {S : Signature} {ε α β σ τ : Type}

def guarded (refuse : S.Op → Option ε) : Program S ε α → Program S ε α
  | .done a => .done a
  | .fail x => .fail x
  | .call op next =>
    match refuse op with
    | some x => .fail x
    | none => .call op fun r => (next r).guarded refuse

variable {refuse : S.Op → Option ε}

theorem guarded_bind (p : Program S ε α) (f : α → Program S ε β) :
    (p >>= f).guarded refuse = p.guarded refuse >>= fun a => (f a).guarded refuse := by
  change (p.bind f).guarded refuse = (p.guarded refuse).bind fun a => (f a).guarded refuse
  induction p with
  | done a => rfl
  | fail x => rfl
  | call op next ih =>
    simp only [bind, guarded]
    cases refuse op with
    | some x => rfl
    | none => simp only [bind, ih]

/-- A program that makes no refused call does not notice the layer. -/
theorem guarded_of_calls {p : Program S ε α} (hp : p.Calls fun op => refuse op = none) :
    p.guarded refuse = p := by
  induction p with
  | done a => rfl
  | fail x => rfl
  | call op next ih =>
    simp only [guarded, hp.1]
    congr 1
    funext r
    exact ih r (hp.2 r)

/-- Below the layer no refused call is made. -/
theorem Calls.guarded {allowed : S.Op → Prop} {p : Program S ε α} (hp : p.Calls allowed) :
    (p.guarded refuse).Calls fun op => allowed op ∧ refuse op = none := by
  induction p with
  | done a => trivial
  | fail x => trivial
  | call op next ih =>
    simp only [Program.guarded]
    cases hop : refuse op with
    | some x => trivial
    | none => exact ⟨⟨hp.1, hop⟩, fun r => ih r (hp.2 r)⟩

theorem run_guarded_perform {op : S.Op} {x : ε} (hop : refuse op = some x)
    (f : S.Ans op → Program S ε α) (h : Handler S σ τ) (s : σ) :
    ((perform op >>= f).guarded refuse).run h s = ⟨.error x, s, []⟩ := by
  change ((call op f).guarded refuse).run h s = _
  simp [guarded, hop, run]

end MowerRover.Effects.Program
