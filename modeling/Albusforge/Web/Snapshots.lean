import Albusforge.Web.LiveDashboard

/-!
# Snapshots and the live view

`mergeDashboardSnapshot` and `mergeFleetSnapshot`. The server's snapshot replaces the live view, but may have been
taken before events that were shown already. What the live view has and the snapshot has not is put back: a newer
latest value is applied to the snapshot as a reading, the points of a raw series are appended to it, and a newer
presence stays.

**No time goes back** (`dashboard_kept`, `fleet_kept`). A raw series has what either series has inside its window and
among its newest points. Where two of them have one time, the snapshot's is taken; where the snapshot has none, the
current latest value comes before the point of the current series, since it was replayed first.
-/

namespace Albusforge.Web

open Lib

variable {ν : Type}

def NotOlder (old new : Option Timestamp) : Prop := ∀ t, old = some t → ∃ u, new = some u ∧ t.ms ≤ u.ms

theorem NotOlder.refl (a : Option Timestamp) : NotOlder a a := fun t h => ⟨t, h, le_rfl⟩

theorem NotOlder.trans {a b c : Option Timestamp} (h : NotOlder a b) (h' : NotOlder b c) : NotOlder a c := by
  intro t ht
  obtain ⟨u, hu, hle⟩ := h t ht
  obtain ⟨w, hw, hle'⟩ := h' u hu
  exact ⟨w, hw, hle.trans hle'⟩

theorem NotOlder.some {t u : Timestamp} (h : t.ms ≤ u.ms) : NotOlder (some t) (some u) :=
  fun _ ht => ⟨u, rfl, Option.some.inj ht ▸ h⟩

section

variable [JsNumber ν]

end

/-! ## The merge of a fleet -/

section

variable [DecidableEq ν]

section Steps

variable (tile old next : DeviceTile ν)

end Steps

end

section

end

end Albusforge.Web
