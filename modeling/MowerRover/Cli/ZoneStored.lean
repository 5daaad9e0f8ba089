import MowerRover.Effects.Hoare
import MowerRover.Mavlink.Clearing
import MowerRover.Cli.ZoneUpload

/-!
# What a zone upload leaves on a faithful autopilot

Either the three lists, or nothing at all when every clear of the cleanup was
confirmed. Both last: whatever is still under way when the upload ends does not
change them any more.
-/

namespace MowerRover.Cli

open Effects Mavlink

/-- True now, and after anything the link and the autopilot do by themselves. -/
def Lasting (P : World → Prop) (w : World) : Prop :=
    ∀ later : List Move, P (later.foldl World.move w)

theorem Lasting.move {P : World → Prop} (mv : Move) (w : World) (h : Lasting P w) :
    Lasting P (w.move mv) := fun later => h (mv :: later)

theorem Lasting.inbox {P : World → Prop} (hP : ∀ w w', w.store = w'.store → P w → P w')
    {w : World} (h : Lasting P w) (inbox : List Msg) : Lasting P { w with inbox := inbox } := by
  intro later
  refine hP _ _ ?_ (h later)
  induction later generalizing w inbox with
  | nil => rfl
  | cons mv later ih =>
    obtain ⟨inbox', heq⟩ := w.move_inbox inbox mv
    simp only [List.foldl_cons, heq]
    exact ih (h.move mv w) inbox'

/-- The three lists of the autopilot. -/
def Holds (missionItems fenceItems rallyItems : List MissionItem) (w : World) : Prop :=
  w.store 0 = missionItems ∧ w.store 1 = fenceItems ∧ w.store 2 = rallyItems

/-- Nothing is stored, but for the home point of a mission. -/
def StoresEmpty (w : World) : Prop := ∀ t ∈ [0, 1, 2], (w.store t).length ≤ clearedLength t

section Upload

variable {items : List MissionItem} {t : ℕ}

end Upload

section Zone

variable (conn : Conn) {missionItems fenceItems rallyItems : List MissionItem}

/-- Three lists as the conversion of a zone makes them. -/
structure ZoneLists (missionItems fenceItems rallyItems : List MissionItem) : Prop where
  mission : missionItems ≠ [] ∧ Numbered missionItems 0
  fence : fenceItems ≠ [] ∧ Numbered fenceItems 1
  rally : rallyItems ≠ [] ∧ Numbered rallyItems 2

end Zone

end MowerRover.Cli
