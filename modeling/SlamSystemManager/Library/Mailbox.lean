import Mathlib.Data.List.Pairwise
import Mathlib.Order.Basic

/-!
# A mailbox of one slot

Producers put values into a slot that holds one of them, a later value replacing an earlier one that
has not been taken; one consumer takes the value of the slot and deals with it before it takes the
next. The histories are kept latest first. What has been dealt with is a part of what was put in, in
the same order, and the last value put in is still on its way or was dealt with last.
-/

structure Mailbox (α : Type*) where
  slot : Option α := none
  taken : Option α := none
  /-- The values put in, latest first. -/
  sent : List α := []
  /-- The values dealt with, latest first. -/
  done : List α := []

namespace Mailbox

variable {α : Type*} {r : α → α → Prop}

def put (box : Mailbox α) (value : α) : Mailbox α :=
  { box with slot := some value, sent := value :: box.sent }

def take (box : Mailbox α) : Mailbox α := { box with taken := box.slot, slot := none }

def finish (box : Mailbox α) : Mailbox α :=
  { box with taken := none, done := box.taken.toList ++ box.done }

/-- What is on its way and what has been dealt with, latest first. -/
def pipeline (box : Mailbox α) : List α := box.slot.toList ++ (box.taken.toList ++ box.done)

/-- Nothing overtakes and the latest value is not lost. -/
structure Ordered (box : Mailbox α) : Prop where
  sublist : box.pipeline.Sublist box.sent
  latest : box.pipeline.head? = box.sent.head?

theorem ordered_empty : ({} : Mailbox α).Ordered := ⟨.slnil, rfl⟩

theorem Ordered.put {box : Mailbox α} (h : box.Ordered) (value : α) : (box.put value).Ordered := by
  refine ⟨?_, rfl⟩
  have hrest : (box.taken.toList ++ box.done).Sublist box.pipeline :=
    List.sublist_append_right _ _
  exact (hrest.trans h.sublist).cons_cons value

theorem pipeline_take {box : Mailbox α} (hfree : box.taken = none) :
    box.take.pipeline = box.pipeline := by
  simp [pipeline, take, hfree]

theorem Ordered.take {box : Mailbox α} (h : box.Ordered) (hfree : box.taken = none) :
    box.take.Ordered :=
  ⟨(pipeline_take hfree).symm ▸ h.sublist, (pipeline_take hfree).symm ▸ h.latest⟩

theorem pipeline_finish (box : Mailbox α) : box.finish.pipeline = box.pipeline := by
  simp [pipeline, finish]

theorem Ordered.finish {box : Mailbox α} (h : box.Ordered) : box.finish.Ordered :=
  ⟨(pipeline_finish box).symm ▸ h.sublist, (pipeline_finish box).symm ▸ h.latest⟩

/-- Values are dealt with in the order in which they are put in. -/
theorem Ordered.pairwise_done {box : Mailbox α} (h : box.Ordered) (hsent : box.sent.Pairwise r) :
    box.done.Pairwise r := by
  have hdone : box.done.Sublist box.pipeline :=
    (List.sublist_append_right _ _).trans (List.sublist_append_right _ _)
  exact hsent.sublist (hdone.trans h.sublist)

/-- In an empty mailbox the value put in last was dealt with last. -/
theorem Ordered.drained {box : Mailbox α} (h : box.Ordered) (hslot : box.slot = none)
    (htaken : box.taken = none) : box.done.head? = box.sent.head? := by
  rw [← h.latest]
  simp [pipeline, hslot, htaken]

end Mailbox
