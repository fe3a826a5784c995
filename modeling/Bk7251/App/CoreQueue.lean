import Bk7251.Lib.Fifo

/-!
# The queue of the core thread

`g_wifi_core.io_queue` (`app/app.c`): senders push bus messages without waiting, `core_thread_main`
pops them one at a time.
-/
namespace Bk7251.App

open Lib

inductive BmsgType where
  | null
  | rx
  | tx
  | ioctl
  | sktTx
  | media
  | txing
  | staPs
  | txRaw
  | rxLsig
deriving DecidableEq

structure BusMsg where
  type : BmsgType
  arg : Nat
deriving DecidableEq

def CORE_QITEM_COUNT : Nat := 64

/-- `rtos_push_to_queue`: the queue, and whether it returned `kNoErr`. -/
def rtosPushToQueue (q : List BusMsg) (msg : BusMsg) : List BusMsg × Bool :=
  ((Fifo.push CORE_QITEM_COUNT q [msg]).1, (Fifo.push CORE_QITEM_COUNT q [msg]).2 = 1)

theorem rtosPushToQueue_room {q : List BusMsg} (room : q.length < CORE_QITEM_COUNT) (msg : BusMsg) :
    rtosPushToQueue q msg = (q ++ [msg], true) := by
  rw [rtosPushToQueue, Fifo.push_fits _ _ _ room]
  rfl

theorem rtosPushToQueue_full {q : List BusMsg} (full : ¬ q.length < CORE_QITEM_COUNT) (msg : BusMsg) :
    rtosPushToQueue q msg = (q, false) := by
  rw [rtosPushToQueue, Fifo.push_full _ _ _ (Nat.lt_succ_of_le (Nat.not_lt.mp full))]
  rfl

/-- A push leaves the messages of other types as they were. -/
theorem countP_rtosPushToQueue {p : BusMsg → Bool} {msg : BusMsg} (other : p msg = false)
    (q : List BusMsg) : (rtosPushToQueue q msg).1.countP p = q.countP p := by
  by_cases room : q.length < CORE_QITEM_COUNT
  · rw [rtosPushToQueue_room room, List.countP_append, List.countP_singleton, other]
    rfl
  · rw [rtosPushToQueue_full room]

end Bk7251.App
