import IbSrp.TargetRequests

/-!
# The requests of a channel can be finished

Whatever the threads of the target have done with the requests of a channel, somebody can go
on: the core asks for data that it could not ask for yet, or for the response; the HCA completes
what has been posted; the thread for completions and the core drop their references. Each of
these steps makes `rank` smaller, so that all contexts are idle after some time.

An idle context is on the free list, unless its request was a task management function that
has been refused, or a command whose data could not be transferred.
-/
namespace IbSrp.RequestProgress
open LabelledRuns TargetContexts TargetRequests
open ChannelRelease (ChState)
open TargetChannel (SrptCommandState)

/-- The core asks for the response once more, after the data could not be transferred. -/
def Retried (c : Ioctx) : Prop :=
  c.call = .none ∧ c.core = .again ∨ c.call = .entered .cmdRspSent

section
variable {c : Ioctx} {chState : ChState} (h : Good c)
include h

end

/-- What finishing the requests of `ch` has left as it was. -/
structure Kept (ch ch' : Chan) : Prop where
  leaked : ch'.ioctxRing.map Ioctx.leaked = ch.ioctxRing.map Ioctx.leaked
  abandoned : ch'.ioctxRing.map Ioctx.abandoned = ch.ioctxRing.map Ioctx.abandoned
  retried : (∀ c ∈ ch.ioctxRing, ¬ Retried c) →
    (∀ c ∈ ch'.ioctxRing, ¬ Retried c) ∧ ch'.givenUp = ch.givenUp

theorem Kept.trans {ch ch' ch'' : Chan} (h : Kept ch ch') (h' : Kept ch' ch'') : Kept ch ch'' := by
  refine ⟨h'.leaked.trans h.leaked, h'.abandoned.trans h.abandoned, fun hnone => ?_⟩
  have hfirst := h.retried hnone
  have hsecond := h'.retried hfirst.1
  exact ⟨hsecond.1, hsecond.2.trans hfirst.2⟩

end IbSrp.RequestProgress
