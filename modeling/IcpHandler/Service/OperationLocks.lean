import IcpHandler.Service.Idempotent

/-
  The operation locks themselves. They are mutexes in a map,
  made when a call asks for one and evicted by a later call
  when nobody refers to them any more. What the rest of the
  model takes for a lock is a key of this map.

  Main declarations:
    * `Resource`, `Resource.lockKey`
    * `Stage`, `LockCall`, `KeyedLocks`
    * `LockMove`, `KeyedLocks.step`
-/

------------------------------------------------------------
-- Names
------------------------------------------------------------

namespace IcpHandler

namespace Service

/- What an operation is alone with while it holds the lock. -/
inductive Resource where
  | idempotencyKey (tenantId key : String)
  | transaction (transactionId : String)
  | subscription (subscriptionId : String)
  | peerQuote (peerQuoteId : String)
  deriving DecidableEq

/-
  `lock_idempotency_key`, `lock_transaction`,
  `lock_subscription` and `lock_peer_quote`
-/
def Resource.lockKey : Resource → String
  | .idempotencyKey tenantId key => idempotencyLock tenantId key
  | .transaction transactionId => txnLock transactionId
  | .subscription subscriptionId => subLock subscriptionId
  | .peerQuote peerQuoteId => quoteLock peerQuoteId

end Service

end IcpHandler

------------------------------------------------------------
-- The Map of Mutexes
------------------------------------------------------------

namespace IcpHandler

namespace Service

/-
  Where a call of `lock_operation` is. Inside the mutex of the
  map it first looks at the entries one by one. With a clone
  of the mutex of its key it waits for that, and has the guard
  then. A guard that is dropped unlocks its mutex before it
  lets go of it.
-/
inductive Stage where
  | waiting
  | retaining (todo : List String)
  | fetched (lock : Nat)
  | holding (lock : Nat)
  | dropping (lock : Nat)
  | gone
  deriving DecidableEq

/- The mutex that the call keeps alive. -/
def Stage.reference : Stage → Option Nat
  | .fetched lock | .holding lock | .dropping lock => some lock
  | _ => none

structure LockCall where
  key : String
  stage : Stage
  deriving DecidableEq

/-
  `KeyedLocks`, with the mutexes that are locked and the calls
  that were made so far. Mutexes are told apart by numbers,
  which are given out in their order.
-/
structure KeyedLocks where
  entries : AList fun _ : String => Nat
  locked : List Nat
  fresh : Nat
  calls : List LockCall

namespace KeyedLocks

/- `Arc::new(Mutex::new(HashMap::new()))` -/
def empty : KeyedLocks :=
  ⟨∅, [], 0, []⟩

/- `Arc::strong_count` -/
def strongCount (locks : KeyedLocks) (lock : Nat) : Nat :=
  (locks.entries.entries.countP fun entry =>
      entry.2 == lock) +
    locks.calls.countP fun call =>
      call.stage.reference == some lock

/- No call is inside the mutex of the map. -/
def isFree (locks : KeyedLocks) : Bool :=
  locks.calls.all fun call =>
    match call.stage with
    | .retaining _ => false
    | _ => true

/- The call goes on to another stage. -/
def setStage
    (locks : KeyedLocks)
    (call : Nat)
    (stage : Stage) : KeyedLocks :=
  { locks with
    calls := locks.calls.modify call fun found =>
      { found with stage := stage } }

/- `retain` looks at one entry. -/
def retain (locks : KeyedLocks) (key : String) : KeyedLocks :=
  match locks.entries.lookup key with
  | none => locks
  | some lock =>
      if 1 < locks.strongCount lock then locks
      else { locks with entries := locks.entries.erase key }

/- `entry(key).or_insert_with(…)`, and the mutex it has. -/
def entry
    (locks : KeyedLocks)
    (key : String) : Nat × KeyedLocks :=
  match locks.entries.lookup key with
  | some lock => (lock, locks)
  | none =>
      (locks.fresh,
        { locks with
          entries := locks.entries.insert key locks.fresh
          fresh := locks.fresh + 1 })

end KeyedLocks

/-
  What can happen next: a new call, the steps of a call by its
  number, or that a call that waits is given up. `enter` has
  the order in which the map is gone through.
-/
inductive LockMove where
  | call (key : String)
  | enter (call : Nat) (order : List String)
  | visit (call : Nat)
  | fetch (call : Nat)
  | acquire (call : Nat)
  | release (call : Nat)
  | dropReference (call : Nat)
  | cancel (call : Nat)

namespace KeyedLocks

/- One step of `lock_operation`, or of dropping its guard. -/
def step
    (locks : KeyedLocks) : LockMove → Option KeyedLocks
  | .call key =>
      some { locks with calls := locks.calls ++ [⟨key, .waiting⟩] }
  | .enter call order =>
      match locks.calls[call]? with
      | some ⟨_, .waiting⟩ =>
          if locks.isFree = true ∧
              order.Perm locks.entries.keys then
            some (locks.setStage call (.retaining order))
          else none
      | _ => none
  | .visit call =>
      match locks.calls[call]? with
      | some ⟨_, .retaining (key :: todo)⟩ =>
          some ((locks.retain key).setStage call
            (.retaining todo))
      | _ => none
  | .fetch call =>
      match locks.calls[call]? with
      | some ⟨key, .retaining []⟩ =>
          let found := locks.entry key
          some (found.2.setStage call (.fetched found.1))
      | _ => none
  | .acquire call =>
      match locks.calls[call]? with
      | some ⟨_, .fetched lock⟩ =>
          if lock ∈ locks.locked then none
          else
            some
              ({ locks with locked := lock :: locks.locked
                }.setStage call (.holding lock))
      | _ => none
  | .release call =>
      match locks.calls[call]? with
      | some ⟨_, .holding lock⟩ =>
          some
            ({ locks with locked := locks.locked.erase lock
              }.setStage call (.dropping lock))
      | _ => none
  | .dropReference call =>
      match locks.calls[call]? with
      | some ⟨_, .dropping _⟩ => some (locks.setStage call .gone)
      | _ => none
  | .cancel call =>
      match locks.calls[call]? with
      | some ⟨_, .waiting⟩ | some ⟨_, .fetched _⟩ =>
          some (locks.setStage call .gone)
      | _ => none

/- Any sequence of such steps. -/
def run : List LockMove → KeyedLocks → Option KeyedLocks
  | [], locks => some locks
  | move :: moves, locks => (locks.step move).bind (run moves)

/- The call has a live guard of the lock with this key. -/
def Holds
    (locks : KeyedLocks)
    (call : Nat)
    (key : String) : Prop :=
  ∃ lock, locks.calls[call]? = some ⟨key, .holding lock⟩

end KeyedLocks

end Service

end IcpHandler
