import Mathlib.Order.MinMax

/-!
# The task history of a task queue

`StateInner::get_task_history(len, key)` lists a queue's tasks for display, newest first: the
queued tasks that `HistoricalTask::from_queued_task` converts, then the completed tasks of the
history, all truncated to `len`. It reads the history truncated to `len` minus the number of
queued tasks, counting the queued tasks before the conversion drops any. So when the conversion
drops a queued task, the result is a strict prefix of the list the spec describes: the history
is cut short by one task for each dropped queued task, while `len` still has room for them.

The storage layer and `from_queued_task` are not in the sources: a read transaction is what its
two getters return, with `get_truncated_task_history(n)` the first `n` tasks of the history, and
the conversion is a parameter.
-/

namespace Renegade.State

/-- What a read transaction on the task queue tables returns. -/
structure TaskQueueTx (TaskQueueKey QueuedTask HistoricalTask : Type) where
  /-- `get_queued_tasks(key)`: the queue, in queue order. -/
  queuedTasks : TaskQueueKey → List QueuedTask
  /-- The task history of a queue, most recent first. -/
  taskHistory : TaskQueueKey → List HistoricalTask

variable {TaskQueueKey QueuedTask HistoricalTask : Type}

/-- Modelled from the spec: `get_truncated_task_history(n, key)`, the `n` most recent tasks of
the history. -/
def TaskQueueTx.getTruncatedTaskHistory (tx : TaskQueueTx TaskQueueKey QueuedTask HistoricalTask)
    (n : Nat) (key : TaskQueueKey) : List HistoricalTask :=
  (tx.taskHistory key).take n

/-- `StateInner::get_task_history`, inside its read transaction; `fromQueuedTask` is
`HistoricalTask::from_queued_task`. -/
def getTaskHistory (fromQueuedTask : TaskQueueKey → QueuedTask → Option HistoricalTask)
    (tx : TaskQueueTx TaskQueueKey QueuedTask HistoricalTask) (len : Nat) (key : TaskQueueKey) :
    List HistoricalTask :=
  let running := tx.queuedTasks key
  let remaining := len - running.length
  let historical := tx.getTruncatedTaskHistory remaining key
  (running.filterMap (fromQueuedTask key) ++ historical).take len

/-- The task history as the spec describes it: the converted queued tasks, then the history,
truncated to `len`. -/
def specTaskHistory (fromQueuedTask : TaskQueueKey → QueuedTask → Option HistoricalTask)
    (tx : TaskQueueTx TaskQueueKey QueuedTask HistoricalTask) (len : Nat) (key : TaskQueueKey) :
    List HistoricalTask :=
  ((tx.queuedTasks key).filterMap (fromQueuedTask key) ++ tx.taskHistory key).take len

section History

variable (fromQueuedTask : TaskQueueKey → QueuedTask → Option HistoricalTask)
  (tx : TaskQueueTx TaskQueueKey QueuedTask HistoricalTask) (len : Nat) (key : TaskQueueKey)

/-- The code's result: the first `len` converted queued tasks, then the history truncated by the
number of queued tasks before conversion. -/
theorem getTaskHistory_eq :
    getTaskHistory fromQueuedTask tx len key =
      ((tx.queuedTasks key).filterMap (fromQueuedTask key)).take len ++
        (tx.taskHistory key).take (len - (tx.queuedTasks key).length) := by
  have hle := List.length_filterMap_le (fromQueuedTask key) (tx.queuedTasks key)
  rw [getTaskHistory, List.take_append_eq_append_take, TaskQueueTx.getTruncatedTaskHistory,
    List.take_take, min_eq_right (by omega)]

/-- The spec's result: the first `len` converted queued tasks, then the history truncated by the
number of converted ones. -/
theorem specTaskHistory_eq :
    specTaskHistory fromQueuedTask tx len key =
      ((tx.queuedTasks key).filterMap (fromQueuedTask key)).take len ++
        (tx.taskHistory key).take
          (len - ((tx.queuedTasks key).filterMap (fromQueuedTask key)).length) :=
  List.take_append_eq_append_take

/-- The code's result is always a prefix of the spec's. -/
theorem getTaskHistory_prefix :
    getTaskHistory fromQueuedTask tx len key <+: specTaskHistory fromQueuedTask tx len key := by
  have hle := List.length_filterMap_le (fromQueuedTask key) (tx.queuedTasks key)
  have hhist : (tx.taskHistory key).take (len - (tx.queuedTasks key).length) =
      ((tx.taskHistory key).take
        (len - ((tx.queuedTasks key).filterMap (fromQueuedTask key)).length)).take
          (len - (tx.queuedTasks key).length) := by
    rw [List.take_take, min_eq_left (by omega)]
  rw [getTaskHistory_eq, specTaskHistory_eq, List.prefix_append_right_inj, hhist]
  exact List.take_prefix _ _

/-- When `from_queued_task` converts every queued task, the code computes the spec's list. -/
theorem getTaskHistory_of_isSome (hconv : ∀ t ∈ tx.queuedTasks key, (fromQueuedTask key t).isSome) :
    getTaskHistory fromQueuedTask tx len key = specTaskHistory fromQueuedTask tx len key := by
  rw [getTaskHistory_eq, specTaskHistory_eq, List.filterMap_length_eq_length.mpr hconv]

end History

/-- A conversion that keeps every task, over one queued task and a history of one: the code lists
what the spec lists. -/
theorem getTaskHistory_of_isSome_keepAll :
    (∀ t ∈ (⟨fun _ => [0], fun _ => [1]⟩ : TaskQueueTx Unit Nat Nat).queuedTasks (),
      ((fun (_ : Unit) (n : Nat) => some n) () t).isSome) ∧
    getTaskHistory (fun (_ : Unit) (n : Nat) => some n) ⟨fun _ => [0], fun _ => [1]⟩ 2 () =
      specTaskHistory (fun (_ : Unit) (n : Nat) => some n) ⟨fun _ => [0], fun _ => [1]⟩ 2 () :=
  have hconv : ∀ t ∈ (⟨fun _ => [0], fun _ => [1]⟩ : TaskQueueTx Unit Nat Nat).queuedTasks (),
      ((fun (_ : Unit) (n : Nat) => some n) () t).isSome := fun _ _ => rfl
  ⟨hconv, getTaskHistory_of_isSome _ _ 2 () hconv⟩

/-- One queued task that the conversion drops and a history of one task: `get_task_history(1)`
returns nothing, where the spec's list holds the historical task. -/
theorem getTaskHistory_drops_history :
    getTaskHistory (fun (_ : Unit) (_ : Nat) => (none : Option Nat)) ⟨fun _ => [0], fun _ => [1]⟩
      1 () = [] ∧
    specTaskHistory (fun (_ : Unit) (_ : Nat) => (none : Option Nat)) ⟨fun _ => [0], fun _ => [1]⟩
      1 () = [1] :=
  ⟨rfl, rfl⟩

end Renegade.State
