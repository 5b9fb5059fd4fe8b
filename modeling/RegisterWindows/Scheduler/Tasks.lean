import Mathlib.Algebra.Ring.Nat
import RegisterWindows.Scheduler.Lists

namespace RegisterWindows.Scheduler
open RegisterWindows.Scheduler.Lists

/-- The two list items of a TCB. -/
inductive ListItem (τ : Type) where
  | xStateListItem (t : τ)
  | xEventListItem (t : τ)
deriving DecidableEq, Repr

/-- `pvOwner`: the TCB the item is part of. -/
def ListItem.owner {τ : Type} : ListItem τ → τ
  | xStateListItem t => t
  | xEventListItem t => t

/-- The lists of `tasks.c`, and those of the queues and other objects that tasks wait for. -/
inductive ListId (κ : Type) (n : Nat) where
  | pxReadyTasksLists (p : Fin n)
  | xDelayedTaskList1
  | xDelayedTaskList2
  | xPendingReadyList
  | xSuspendedTaskList
  | eventList (e : κ)
deriving DecidableEq, Repr

/-- The variables of `tasks.c` on one core, with preemption, time slicing and the generic task
selection. A handle is the `TCB_t *`, and `none` is `NULL`. No task waits for a notification, so
that `ucNotifyState` never is `taskWAITING_NOTIFICATION`.

The counters are numbers that need not wrap: there are fewer TCBs and list items than addresses, the
scheduler would have to be suspended 2^32 times without a resume, and nothing here reads
`xNumOfOverflows`. -/
structure Tasks (τ κ : Type) (configMaxPriorities : Nat) where
  lists : Lists (ListItem τ) (ListId κ configMaxPriorities)
  uxPriority : τ → Fin configMaxPriorities
  pxCurrentTCB : Option τ
  pxDelayedTaskList : ListId κ configMaxPriorities
  pxOverflowDelayedTaskList : ListId κ configMaxPriorities
  uxCurrentNumberOfTasks : Nat
  xTickCount : TickType
  uxTopReadyPriority : Fin configMaxPriorities
  xSchedulerRunning : Bool
  xPendedTicks : TickType
  xYieldPending : Bool
  xNumOfOverflows : Nat
  xNextTaskUnblockTime : TickType
  uxSchedulerSuspended : Nat
  xIdleTaskHandle : Option τ
  /-- History: the tasks created so far. -/
  created : List τ
  /-- History: the tasks that `taskSELECT_HIGHEST_PRIORITY_TASK` chose, and from which list,
  the last one first. -/
  switchedIn : List (τ × Fin configMaxPriorities)
  /-- History: the tasks put into a ready list, and into which one, the last one first. -/
  readied : List (τ × Fin configMaxPriorities)
  /-- History: how often `xTickCount` was incremented. -/
  ticks : Nat

namespace Tasks
open ListItem ListId

section
variable {τ κ : Type} [DecidableEq τ] [DecidableEq κ] {n : Nat}

/-- `taskRECORD_READY_PRIORITY`. -/
def taskRecordReadyPriority (k : Tasks τ κ n) (uxPriority : Fin n) : Tasks τ κ n :=
  if uxPriority > k.uxTopReadyPriority then { k with uxTopReadyPriority := uxPriority } else k

def prvAddTaskToReadyList (k : Tasks τ κ n) (pxTCB : τ) : Tasks τ κ n :=
  let k := k.taskRecordReadyPriority (k.uxPriority pxTCB)
  { k with
    lists := k.lists.vListInsertEnd (pxReadyTasksLists (k.uxPriority pxTCB)) (xStateListItem pxTCB)
    readied := (pxTCB, k.uxPriority pxTCB) :: k.readied }

/-- `listREMOVE_ITEM` on an item of a TCB. -/
def listRemoveItem (k : Tasks τ κ n) (pxItemToRemove : ListItem τ) : Option (Tasks τ κ n) :=
  (k.lists.uxListRemove pxItemToRemove).map fun r => { k with lists := r.1 }

/-- The owner of the head entry, which an empty list does not have. -/
def listGetOwnerOfHeadEntry (k : Tasks τ κ n) (pxList : ListId κ n) : Option τ :=
  (itemAt (k.lists.listGetHeadEntry pxList)).map owner

/-- The highest priority from `p` down that has a ready task. -/
def highestReady (k : Tasks τ κ n) : (p : Nat) → p < n → Option (Fin n)
  | 0, h => if k.lists.listListIsEmpty (pxReadyTasksLists ⟨0, h⟩) then none else some ⟨0, h⟩
  | p + 1, h =>
    if k.lists.listListIsEmpty (pxReadyTasksLists ⟨p + 1, h⟩) then
      k.highestReady p (Nat.lt_of_succ_lt h)
    else some ⟨p + 1, h⟩

/-- Without a ready task the `configASSERT` of the macro fails. -/
def taskSelectHighestPriorityTask (k : Tasks τ κ n) : Option (Tasks τ κ n) := do
  let uxTopPriority ← k.highestReady k.uxTopReadyPriority.val k.uxTopReadyPriority.isLt
  let r := k.lists.listGetOwnerOfNextEntry (pxReadyTasksLists uxTopPriority)
  let item ← r.1
  some { k with
    lists := r.2
    pxCurrentTCB := some item.owner
    uxTopReadyPriority := uxTopPriority
    switchedIn := (item.owner, uxTopPriority) :: k.switchedIn }

def vTaskSwitchContext (k : Tasks τ κ n) : Option (Tasks τ κ n) :=
  if k.uxSchedulerSuspended ≠ 0 then some { k with xYieldPending := true }
  else taskSelectHighestPriorityTask { k with xYieldPending := false }

/-- `taskYIELD_ANY_CORE_IF_USING_PREEMPTION`; `portYIELD_WITHIN_API` is an `ecall`, whose handler
calls `vTaskSwitchContext`. -/
def taskYieldAnyCoreIfUsingPreemption (k : Tasks τ κ n) (pxTCB : τ) : Option (Tasks τ κ n) := do
  let cur ← k.pxCurrentTCB
  if k.uxPriority cur < k.uxPriority pxTCB then k.vTaskSwitchContext else some k

def prvResetNextTaskUnblockTime (k : Tasks τ κ n) : Tasks τ κ n :=
  if k.lists.listListIsEmpty k.pxDelayedTaskList then
    { k with xNextTaskUnblockTime := portMaxDelay }
  else
    { k with xNextTaskUnblockTime :=
        k.lists.listGetItemValueOfHeadEntry k.pxDelayedTaskList }

def taskSwitchDelayedLists (k : Tasks τ κ n) : Option (Tasks τ κ n) :=
  if k.lists.listListIsEmpty k.pxDelayedTaskList then
    some (prvResetNextTaskUnblockTime { k with
      pxDelayedTaskList := k.pxOverflowDelayedTaskList
      pxOverflowDelayedTaskList := k.pxDelayedTaskList
      xNumOfOverflows := k.xNumOfOverflows + 1 })
  else none

/-- A task leaves its list, and the event list if it waits for an event too. -/
def leaveLists (k : Tasks τ κ n) (pxTCB : τ) : Option (Tasks τ κ n) :=
  (k.listRemoveItem (xStateListItem pxTCB)).bind fun k =>
    if k.lists.pxContainer (xEventListItem pxTCB) ≠ none then
      k.listRemoveItem (xEventListItem pxTCB)
    else some k

/-- The body of the loop of `xTaskIncrementTick` for a task whose time is over. -/
def unblock (k : Tasks τ κ n) (pxTCB : τ) : Option (Tasks τ κ n) :=
  (k.leaveLists pxTCB).map fun k => k.prvAddTaskToReadyList pxTCB

/-- The `for` loop of `xTaskIncrementTick`, given up after a number of rounds. -/
def unblockLoop (xConstTickCount : TickType) :
    Nat → Tasks τ κ n → Bool → Option (Bool × Tasks τ κ n)
  | 0, _, _ => none
  | fuel + 1, k, xSwitchRequired =>
    if k.lists.listListIsEmpty k.pxDelayedTaskList then
      some (xSwitchRequired, { k with xNextTaskUnblockTime := portMaxDelay })
    else do
      let pxTCB ← k.listGetOwnerOfHeadEntry k.pxDelayedTaskList
      let xItemValue := k.lists.xItemValue (Node.item (xStateListItem pxTCB))
      if xConstTickCount < xItemValue then
        some (xSwitchRequired, { k with xNextTaskUnblockTime := xItemValue })
      else do
        let k ← k.unblock pxTCB
        let cur ← k.pxCurrentTCB
        unblockLoop xConstTickCount fuel k
          (xSwitchRequired || decide (k.uxPriority pxTCB > k.uxPriority cur))

/-- The new tick count; where it wraps, the lists are exchanged. -/
def incrementTickCount (k : Tasks τ κ n) : Option (Tasks τ κ n) :=
  let xConstTickCount := k.xTickCount + 1
  let k := { k with xTickCount := xConstTickCount, ticks := k.ticks + 1 }
  if xConstTickCount = 0 then k.taskSwitchDelayedLists else some k

def unblockTasks (k : Tasks τ κ n) : Option (Bool × Tasks τ κ n) :=
  if k.xTickCount ≥ k.xNextTaskUnblockTime then
    unblockLoop k.xTickCount (k.lists.uxNumberOfItems k.pxDelayedTaskList + 1) k false
  else some (false, k)

def xTaskIncrementTick (k : Tasks τ κ n) : Option (Bool × Tasks τ κ n) :=
  if k.uxSchedulerSuspended = 0 then do
    let k ← k.incrementTickCount
    let (xSwitchRequired, k) ← k.unblockTasks
    let cur ← k.pxCurrentTCB
    let xSwitchRequired := xSwitchRequired ||
      decide (k.lists.uxNumberOfItems (pxReadyTasksLists (k.uxPriority cur)) > 1)
    some (xSwitchRequired || k.xYieldPending, k)
  else some (false, { k with xPendedTicks := k.xPendedTicks + 1 })

def vTaskSuspendAll (k : Tasks τ κ n) : Tasks τ κ n :=
  { k with uxSchedulerSuspended := k.uxSchedulerSuspended + 1 }

/-- The head of `xPendingReadyList` moves to its ready list. -/
def readyPending (k : Tasks τ κ n) (pxTCB : τ) : Option (Tasks τ κ n) := do
  let k ← k.listRemoveItem (xEventListItem pxTCB)
  let k ← k.listRemoveItem (xStateListItem pxTCB)
  let k := k.prvAddTaskToReadyList pxTCB
  let cur ← k.pxCurrentTCB
  some (if k.uxPriority pxTCB > k.uxPriority cur then { k with xYieldPending := true } else k)

/-- The `while` loop of `xTaskResumeAll`, given up after a number of rounds. -/
def pendingLoop : Nat → Tasks τ κ n → Option (Tasks τ κ n)
  | 0, _ => none
  | fuel + 1, k =>
    if k.lists.listListIsEmpty xPendingReadyList then some k
    else do
      let pxTCB ← k.listGetOwnerOfHeadEntry xPendingReadyList
      let k ← k.readyPending pxTCB
      pendingLoop fuel k

/-- The ticks that occurred while the scheduler was suspended. -/
def unwindTicks : Nat → Tasks τ κ n → Option (Tasks τ κ n)
  | 0, k => some { k with xPendedTicks := 0 }
  | xPendedCounts + 1, k => do
    let (yield, k) ← k.xTaskIncrementTick
    unwindTicks xPendedCounts (if yield then { k with xYieldPending := true } else k)

/-- The pending list is emptied, and where it was not empty, the unblock time is set anew. -/
def resumePending (k : Tasks τ κ n) : Option (Tasks τ κ n) :=
  let moved := !k.lists.listListIsEmpty xPendingReadyList
  (pendingLoop (k.lists.uxNumberOfItems xPendingReadyList + 1) k).map fun k =>
    if moved then k.prvResetNextTaskUnblockTime else k

def resumeTicks (k : Tasks τ κ n) : Option (Tasks τ κ n) :=
  if k.xPendedTicks > 0 then unwindTicks k.xPendedTicks.toNat k else some k

/-- The answer is `xAlreadyYielded`. -/
def xTaskResumeAll (k : Tasks τ κ n) : Option (Bool × Tasks τ κ n) :=
  if k.uxSchedulerSuspended ≠ 0 then
    let k := { k with uxSchedulerSuspended := k.uxSchedulerSuspended - 1 }
    if k.uxSchedulerSuspended = 0 ∧ k.uxCurrentNumberOfTasks > 0 then do
      let k ← k.resumePending
      let k ← k.resumeTicks
      if k.xYieldPending then k.vTaskSwitchContext.map fun k => (true, k) else some (false, k)
    else some (false, k)
  else none

/-- `xTaskCatchUpTicks`. -/
def xTaskCatchUpTicks (k : Tasks τ κ n) (xTicksToCatchUp : TickType) :
    Option (Bool × Tasks τ κ n) :=
  if k.uxSchedulerSuspended = 0 then
    let k := k.vTaskSuspendAll
    xTaskResumeAll { k with xPendedTicks := k.xPendedTicks + xTicksToCatchUp }
  else none

def prvAddCurrentTaskToDelayedList (k : Tasks τ κ n) (xTicksToWait : TickType)
    (xCanBlockIndefinitely : Bool) : Option (Tasks τ κ n) := do
  let cur ← k.pxCurrentTCB
  let k ← k.listRemoveItem (xStateListItem cur)
  if xTicksToWait = portMaxDelay ∧ xCanBlockIndefinitely then
    some { k with lists := k.lists.vListInsertEnd xSuspendedTaskList (xStateListItem cur) }
  else
    let xTimeToWake := k.xTickCount + xTicksToWait
    let lists := k.lists.listSetListItemValue (xStateListItem cur) xTimeToWake
    if xTimeToWake < k.xTickCount then do
      let lists ← lists.vListInsert k.pxOverflowDelayedTaskList (xStateListItem cur)
      some { k with lists := lists }
    else do
      let lists ← lists.vListInsert k.pxDelayedTaskList (xStateListItem cur)
      some { k with
        lists := lists
        xNextTaskUnblockTime :=
          if xTimeToWake < k.xNextTaskUnblockTime then xTimeToWake else k.xNextTaskUnblockTime }

/-- The end of `vTaskDelay` and `xTaskDelayUntil`. -/
def yieldUnless (xAlreadyYielded : Bool) (k : Tasks τ κ n) : Option (Tasks τ κ n) :=
  if xAlreadyYielded then some k else k.vTaskSwitchContext

def vTaskDelay (k : Tasks τ κ n) (xTicksToDelay : TickType) : Option (Tasks τ κ n) :=
  if xTicksToDelay > 0 then
    let k := k.vTaskSuspendAll
    if k.uxSchedulerSuspended = 1 then do
      let k ← k.prvAddCurrentTaskToDelayedList xTicksToDelay false
      let (xAlreadyYielded, k) ← k.xTaskResumeAll
      yieldUnless xAlreadyYielded k
    else none
  else yieldUnless false k

/-- Whether `xTaskDelayUntil` blocks. -/
def xShouldDelay (xConstTickCount xPreviousWakeTime xTimeIncrement : TickType) : Bool :=
  let xTimeToWake := xPreviousWakeTime + xTimeIncrement
  if xConstTickCount < xPreviousWakeTime then
    decide (xTimeToWake < xPreviousWakeTime ∧ xTimeToWake > xConstTickCount)
  else
    decide (xTimeToWake < xPreviousWakeTime ∨ xTimeToWake > xConstTickCount)

def delayIf (k : Tasks τ κ n) (shouldDelay : Bool) (xTicksToWait : TickType) :
    Option (Tasks τ κ n) :=
  if shouldDelay then k.prvAddCurrentTaskToDelayedList xTicksToWait false else some k

/-- The answers are `xShouldDelay` and the new `*pxPreviousWakeTime`. -/
def xTaskDelayUntil (k : Tasks τ κ n) (xPreviousWakeTime xTimeIncrement : TickType) :
    Option ((Bool × TickType) × Tasks τ κ n) :=
  let k := k.vTaskSuspendAll
  if xTimeIncrement > 0 ∧ k.uxSchedulerSuspended = 1 then do
    let xConstTickCount := k.xTickCount
    let xTimeToWake := xPreviousWakeTime + xTimeIncrement
    let shouldDelay := xShouldDelay xConstTickCount xPreviousWakeTime xTimeIncrement
    let k ← k.delayIf shouldDelay (xTimeToWake - xConstTickCount)
    let (xAlreadyYielded, k) ← k.xTaskResumeAll
    let k ← yieldUnless xAlreadyYielded k
    some ((shouldDelay, xTimeToWake), k)
  else none

def vTaskPlaceOnEventList (k : Tasks τ κ n) (pxEventList : κ) (xTicksToWait : TickType) :
    Option (Tasks τ κ n) := do
  let cur ← k.pxCurrentTCB
  let lists ← k.lists.vListInsert (eventList pxEventList) (xEventListItem cur)
  prvAddCurrentTaskToDelayedList { k with lists := lists } xTicksToWait true

/-- The task that no longer waits is ready, or pending while the scheduler is suspended. -/
def readyOrPending (k : Tasks τ κ n) (pxUnblockedTCB : τ) : Option (Tasks τ κ n) :=
  if k.uxSchedulerSuspended = 0 then
    (k.listRemoveItem (xStateListItem pxUnblockedTCB)).map fun k =>
      k.prvAddTaskToReadyList pxUnblockedTCB
  else
    some { k with
      lists := k.lists.vListInsertEnd xPendingReadyList (xEventListItem pxUnblockedTCB) }

/-- The answer is `pdTRUE` if the task has a higher priority than the running one. -/
def xTaskRemoveFromEventList (k : Tasks τ κ n) (pxEventList : κ) : Option (Bool × Tasks τ κ n) := do
  let pxUnblockedTCB ← k.listGetOwnerOfHeadEntry (eventList pxEventList)
  let k ← k.listRemoveItem (xEventListItem pxUnblockedTCB)
  let k ← k.readyOrPending pxUnblockedTCB
  let cur ← k.pxCurrentTCB
  if k.uxPriority pxUnblockedTCB > k.uxPriority cur then
    some (true, { k with xYieldPending := true })
  else some (false, k)

/-- The first critical section of `vTaskSuspend`. -/
def vTaskSuspendRemove (k : Tasks τ κ n) (pxTCB : τ) : Option (Tasks τ κ n) :=
  (k.leaveLists pxTCB).map fun k =>
    { k with lists := k.lists.vListInsertEnd xSuspendedTaskList (xStateListItem pxTCB) }

/-- Without a handle it is the running task that is suspended. -/
def vTaskSuspend (k : Tasks τ κ n) (xTaskToSuspend : Option τ) : Option (Tasks τ κ n) := do
  let pxTCB ← xTaskToSuspend <|> k.pxCurrentTCB
  let k ← k.vTaskSuspendRemove pxTCB
  let k := if k.xSchedulerRunning then k.prvResetNextTaskUnblockTime else k
  if k.pxCurrentTCB = some pxTCB then
    if k.xSchedulerRunning then
      if k.uxSchedulerSuspended = 0 then k.vTaskSwitchContext else none
    else if k.lists.uxNumberOfItems xSuspendedTaskList = k.uxCurrentNumberOfTasks then
      some { k with pxCurrentTCB := none }
    else k.vTaskSwitchContext
  else some k

def prvTaskIsTaskSuspended (k : Tasks τ κ n) (xTask : τ) : Bool :=
  k.lists.pxContainer (xStateListItem xTask) = some xSuspendedTaskList &&
    k.lists.pxContainer (xEventListItem xTask) ≠ some xPendingReadyList &&
    k.lists.pxContainer (xEventListItem xTask) = none

def vTaskResume (k : Tasks τ κ n) (xTaskToResume : τ) : Option (Tasks τ κ n) :=
  if k.pxCurrentTCB ≠ some xTaskToResume ∧ k.prvTaskIsTaskSuspended xTaskToResume then do
    let k ← k.listRemoveItem (xStateListItem xTaskToResume)
    (k.prvAddTaskToReadyList xTaskToResume).taskYieldAnyCoreIfUsingPreemption xTaskToResume
  else some k

/-- The answer is `xYieldRequired`. -/
def xTaskResumeFromISR (k : Tasks τ κ n) (xTaskToResume : τ) : Option (Bool × Tasks τ κ n) :=
  if k.prvTaskIsTaskSuspended xTaskToResume then
    if k.uxSchedulerSuspended = 0 then do
      let cur ← k.pxCurrentTCB
      let xYieldRequired := decide (k.uxPriority xTaskToResume > k.uxPriority cur)
      let k := if xYieldRequired then { k with xYieldPending := true } else k
      let k ← k.listRemoveItem (xStateListItem xTaskToResume)
      some (xYieldRequired, k.prvAddTaskToReadyList xTaskToResume)
    else
      some (false, { k with
        lists := k.lists.vListInsertEnd xPendingReadyList (xEventListItem xTaskToResume) })
  else some (false, k)

def prvInitialiseTaskLists (k : Tasks τ κ n) : Tasks τ κ n :=
  let lists := (List.finRange n).foldl (fun h p => h.vListInitialise (pxReadyTasksLists p)) k.lists
  let lists := lists.vListInitialise xDelayedTaskList1
  let lists := lists.vListInitialise xDelayedTaskList2
  let lists := lists.vListInitialise xPendingReadyList
  let lists := lists.vListInitialise xSuspendedTaskList
  { k with
    lists := lists
    pxDelayedTaskList := xDelayedTaskList1
    pxOverflowDelayedTaskList := xDelayedTaskList2 }

/-- The part of `prvInitialiseNewTask` that is about the lists. -/
def prvInitialiseNewTask (k : Tasks τ κ n) (pxNewTCB : τ) (uxPriority : Fin n) : Tasks τ κ n :=
  let lists := k.lists.vListInitialiseItem (xStateListItem pxNewTCB)
  let lists := lists.vListInitialiseItem (xEventListItem pxNewTCB)
  { k with
    uxPriority := Function.update k.uxPriority pxNewTCB uxPriority
    lists := lists.listSetListItemValue (xEventListItem pxNewTCB)
      (BitVec.ofNat 32 (n - uxPriority.val)) }

/-- The part of `prvAddNewTaskToReadyList` that may make the new task the current one. -/
def adoptTask (k : Tasks τ κ n) (pxNewTCB : τ) : Tasks τ κ n :=
  match k.pxCurrentTCB with
  | none =>
    let k := { k with pxCurrentTCB := some pxNewTCB }
    if k.uxCurrentNumberOfTasks = 1 then k.prvInitialiseTaskLists else k
  | some cur =>
    if k.xSchedulerRunning = false ∧ k.uxPriority cur ≤ k.uxPriority pxNewTCB then
      { k with pxCurrentTCB := some pxNewTCB }
    else k

def prvAddNewTaskToReadyList (k : Tasks τ κ n) (pxNewTCB : τ) : Option (Tasks τ κ n) :=
  let k := { k with
    uxCurrentNumberOfTasks := k.uxCurrentNumberOfTasks + 1
    created := pxNewTCB :: k.created }
  let k := (k.adoptTask pxNewTCB).prvAddTaskToReadyList pxNewTCB
  if k.xSchedulerRunning then k.taskYieldAnyCoreIfUsingPreemption pxNewTCB else some k

def xTaskCreateStatic (k : Tasks τ κ n) (pxNewTCB : τ) (uxPriority : Fin n) :
    Option (Tasks τ κ n) :=
  (k.prvInitialiseNewTask pxNewTCB uxPriority).prvAddNewTaskToReadyList pxNewTCB

/-- `vTaskStartScheduler` up to `xPortStartScheduler`, with the TCB of the idle task. -/
def vTaskStartScheduler [NeZero n] (k : Tasks τ κ n) (xIdleTask : τ) : Option (Tasks τ κ n) := do
  let k ← k.xTaskCreateStatic xIdleTask 0
  some { k with
    xIdleTaskHandle := some xIdleTask
    xNextTaskUnblockTime := portMaxDelay
    xSchedulerRunning := true
    xTickCount := 0 }

end
end Tasks
end RegisterWindows.Scheduler
