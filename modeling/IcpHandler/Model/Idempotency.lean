import IcpHandler.Data.Maps
import IcpHandler.Model.Chrono

/-
  The idempotency cache, over its two backends: a map in
  memory, and the table `idempotency` whose timestamps are
  text. Every call is atomic: under the write lock, in an
  immediate transaction, or as one statement.

  Main declarations:
    * `IdempotencyStore`
    * `IdempotencyStore.lookup`
    * `IdempotencyStore.reserve`
    * `IdempotencyStore.release`
    * `IdempotencyStore.store`
    * `IdempotencyStore.prune`
-/

------------------------------------------------------------
-- Entries
------------------------------------------------------------

namespace IcpHandler

namespace Model

/-
  A cached response. The body is the UTF-8 text that the
  JSON writer produced.
-/
structure CachedResponse where
  status : UInt16
  bodyJson : String
  deriving DecidableEq

inductive LookupOutcome where
  | miss
  | replay (response : CachedResponse)
  | conflict
  deriving DecidableEq

inductive ReserveOutcome where
  | won (reservationId : String)
  | replay (response : CachedResponse)
  | conflict
  | inProgress
  deriving DecidableEq

/- `PENDING_STATUS`: claimed, and not completed yet. -/
def pendingStatus : UInt16 := 0

/- An entry of the map in memory. -/
structure IdempotencyEntry where
  requestDigest : String
  response : CachedResponse
  createdAt : DateTime
  reservationId : String

/- A row of the table `idempotency`. -/
structure IdempotencyRow where
  requestDigest : String
  responseStatus : Int
  responseBody : String
  createdAt : String
  reservationId : String

/- A tenant and an idempotency key. -/
abbrev IdempotencyKey := String × String

inductive IdempotencyBackend where
  | memory
      (entries : AList fun _ : IdempotencyKey =>
        IdempotencyEntry)
  | sqlite
      (rows : AList fun _ : IdempotencyKey => IdempotencyRow)

structure IdempotencyStore where
  backend : IdempotencyBackend
  ttl : Duration

/- `DEFAULT_TTL_HOURS` -/
def defaultTtl : Duration :=
  Duration.hours 24

namespace IdempotencyRow

/- The row as it is read; the time text may be unreadable. -/
def toEntry
    (rfc3339 : Rfc3339)
    (now : DateTime)
    (row : IdempotencyRow) : IdempotencyEntry :=
  { requestDigest := row.requestDigest
    response :=
      ⟨UInt16.ofInt row.responseStatus, row.responseBody⟩
    createdAt := (rfc3339.parse row.createdAt).getD now
    reservationId := row.reservationId }

/- The row an entry is written as. -/
def ofEntry
    (rfc3339 : Rfc3339)
    (entry : IdempotencyEntry) : IdempotencyRow :=
  { requestDigest := entry.requestDigest
    responseStatus := entry.response.status.toNat
    responseBody := entry.response.bodyJson
    createdAt := rfc3339.print entry.createdAt
    reservationId := entry.reservationId }

end IdempotencyRow

end Model

end IcpHandler

------------------------------------------------------------
-- Calls
------------------------------------------------------------

namespace IcpHandler

namespace Model

namespace IdempotencyStore

variable (rfc3339 : Rfc3339)

/-
  Decide what to do with a request. A table that cannot be
  reached, which is what `fault` says, is a miss.
-/
def lookup
    (fault : Bool)
    (key : IdempotencyKey)
    (requestDigest : String)
    (now : DateTime)
    (store : IdempotencyStore) : LookupOutcome :=
  let found :=
    match store.backend with
    | .memory entries => entries.lookup key
    | .sqlite rows =>
        if fault then none
        else
          (rows.lookup key).map
            (IdempotencyRow.toEntry rfc3339 now)
  match found with
  | none => .miss
  | some entry =>
      if now - entry.createdAt > store.ttl then .miss
      else if entry.response.status = pendingStatus then .miss
      else if entry.requestDigest = requestDigest then
        .replay entry.response
      else .conflict

/- The entry of a fresh claim. -/
def pendingEntry
    (requestDigest : String)
    (now : DateTime)
    (token : String) : IdempotencyEntry :=
  { requestDigest := requestDigest
    response := ⟨pendingStatus, ""⟩
    createdAt := now
    reservationId := token }

/-
  Claim a key before executing. The token is the random one
  the call has just drawn. An unreachable table answers
  `inProgress`, so that nobody executes.
-/
def reserve
    (fault : Bool)
    (token : String)
    (key : IdempotencyKey)
    (requestDigest : String)
    (now : DateTime)
    (lease : Duration)
    (store : IdempotencyStore) :
    ReserveOutcome × IdempotencyStore :=
  let pending := pendingEntry requestDigest now token
  match store.backend with
  | .memory entries =>
      let claimed : ReserveOutcome × IdempotencyStore :=
        (.won token,
          { store with
            backend := .memory (entries.insert key pending) })
      match entries.lookup key with
      | some e =>
          if now - e.createdAt ≤ store.ttl then
            if e.response.status = pendingStatus then
              if now - e.createdAt > lease then claimed
              else (.inProgress, store)
            else if e.requestDigest = requestDigest then
              (.replay e.response, store)
            else (.conflict, store)
          else claimed
      | none => claimed
  | .sqlite rows =>
      let claimed : ReserveOutcome × IdempotencyStore :=
        (.won token,
          { store with
            backend :=
              .sqlite (rows.insert key
                (.ofEntry rfc3339 pending)) })
      if fault then (.inProgress, store)
      else
        match rows.lookup key with
        | none => claimed
        | some row =>
            let e := row.toEntry rfc3339 now
            if now - e.createdAt > store.ttl then claimed
            else if e.response.status = pendingStatus then
              if now - e.createdAt > lease then claimed
              else (.inProgress, store)
            else if e.requestDigest = requestDigest then
              (.replay e.response, store)
            else (.conflict, store)

/-
  Give a claim up. Only a pending row that still carries the
  caller's token goes. Says whether one did.
-/
def release
    (fault : Bool)
    (key : IdempotencyKey)
    (reservationId : String)
    (store : IdempotencyStore) : Bool × IdempotencyStore :=
  match store.backend with
  | .memory entries =>
      if (entries.lookup key).any fun e =>
          e.response.status == pendingStatus &&
            e.reservationId == reservationId then
        (true,
          { store with backend := .memory (entries.erase key) })
      else (false, store)
  | .sqlite rows =>
      if !fault && (rows.lookup key).any fun row =>
          row.responseStatus == 0 &&
            row.reservationId == reservationId then
        (true,
          { store with backend := .sqlite (rows.erase key) })
      else (false, store)

/-
  Record a response. The write lands if the row is absent or
  still carries the caller's token. Says whether it did.
-/
def store
    (fault : Bool)
    (key : IdempotencyKey)
    (requestDigest : String)
    (response : CachedResponse)
    (now : DateTime)
    (reservationId : String)
    (store : IdempotencyStore) : Bool × IdempotencyStore :=
  let entry : IdempotencyEntry :=
    { requestDigest := requestDigest
      response := response
      createdAt := now
      reservationId := "" }
  match store.backend with
  | .memory entries =>
      if (entries.lookup key).all fun e =>
          e.reservationId == reservationId then
        (true,
          { store with
            backend := .memory (entries.insert key entry) })
      else (false, store)
  | .sqlite rows =>
      if !fault && (rows.lookup key).all fun row =>
          row.reservationId == reservationId then
        (true,
          { store with
            backend :=
              .sqlite (rows.insert key
                (.ofEntry rfc3339 entry)) })
      else (false, store)

/- Delete what is older than the time to live. -/
def prune
    (fault : Bool)
    (now : DateTime)
    (store : IdempotencyStore) : Nat × IdempotencyStore :=
  let cutoff := now - store.ttl
  match store.backend with
  | .memory entries =>
      let kept :=
        Data.retain
          (fun e => decide (cutoff ≤ e.createdAt)) entries
      (entries.entries.length - kept.entries.length,
        { store with backend := .memory kept })
  | .sqlite rows =>
      if fault then (0, store)
      else
        let kept :=
          Data.retain
            (fun row =>
              !decide (row.createdAt < rfc3339.print cutoff))
            rows
        (rows.entries.length - kept.entries.length,
          { store with backend := .sqlite kept })

end IdempotencyStore

end Model

end IcpHandler
