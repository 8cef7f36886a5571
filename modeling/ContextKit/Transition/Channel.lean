import Mathlib.Data.List.Basic
import Mathlib.Tactic.Common

/-!
# A value on its way through a queue

A sender tells a receiver a value by messages in a queue, some of which carry something else.  The
receiver keeps what the last message told it.  `latest` is what it will keep once the queue is
empty: sending a value sets it, delivering a message does not change it.
-/

namespace Transition

variable {μ α : Type*} (content : μ → Option α)

/-- The last value in the queue, or the one the receiver has got if there is none. -/
def latest (queue : List μ) (received : Option α) : Option α :=
  (queue.filterMap content).getLast?.or received

variable {content} {queue : List μ} {received : Option α}

@[simp] theorem latest_nil : latest content [] received = received := rfl

/-- Sending some messages. -/
theorem latest_append (ms : List μ) :
    latest content (queue ++ ms) received =
      latest content ms (latest content queue received) := by
  unfold latest
  rw [List.filterMap_append, List.getLast?_append, Option.or_assoc]

/-- A message with a value is delivered. -/
theorem latest_deliver {m : μ} {a : α} (h : content m = some a) :
    latest content (m :: queue) received = latest content queue (some a) := by
  unfold latest
  rw [List.filterMap_cons_some h, List.getLast?_cons]
  cases (queue.filterMap content).getLast? <;> rfl

/-- A message without a value is delivered. -/
theorem latest_skip {m : μ} (h : content m = none) :
    latest content (m :: queue) received = latest content queue received := by
  unfold latest
  rw [List.filterMap_cons_none h]

end Transition
