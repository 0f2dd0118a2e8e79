import IcpHandler.Concurrency.Places
import IcpHandler.Properties.AdmittedIntents
import IcpHandler.Service.EventFeeds

/-
  What the event streams say. In every run of requests, work
  in the background and streams, a stream passes on the events
  that its tenant owned when it looked, each once and in the
  order of the bus, and it misses none of them unless it falls
  behind by more than the bus can hold.

  Main declarations:
    * `received`, `judged`, `sent`
    * `StreamRule`, `streamProg_traced`
    * `FollowsBus`, `followsBus_push`
    * `streams_follow_the_bus`
-/

------------------------------------------------------------
-- The Moves of a Stream
------------------------------------------------------------

namespace IcpHandler

namespace Protocol

open Model Service Concurrency Data.Broadcast

/- The moves of a thread of the server. -/
abbrev ServerMoves := Trace ServerEff.Res

/- A move at a door. -/
def pickDoor :
    Move ServerEff.Res → Option (Move FrontEff.Res)
  | ⟨.door effect, answer⟩ => some ⟨effect, answer⟩
  | _ => none

/- An event that a stream was given. -/
def receivedBy : Move ServerEff.Res → Option Event
  | ⟨.recv, .value event⟩ => some event
  | _ => none

/- An event, and whether it was found to be the tenant's. -/
def judgedBy : Move ServerEff.Res → Option (Event × Bool)
  | ⟨.belongs event _, own⟩ => some (event, own)
  | _ => none

/- A frame that was sent to the client. -/
def sentBy : Move ServerEff.Res → Option StreamFrame
  | ⟨.send frame, _⟩ => some frame
  | _ => none

/- The events that a stream was given, the last one first. -/
def received (past : ServerMoves) : List Event :=
  past.filterMap receivedBy

def judged (past : ServerMoves) : List (Event × Bool) :=
  past.filterMap judgedBy

def sent (past : ServerMoves) : List StreamFrame :=
  past.filterMap sentBy

/- The frames of the events that are the tenant's. -/
def ownFrames
    (frame : Event → StreamFrame)
    (events : List (Event × Bool)) : List StreamFrame :=
  (events.filter Prod.snd).map fun pair => frame pair.1

/- The stream has been told that it missed something. -/
def Lagged (past : ServerMoves) : Prop :=
  ∃ missed,
    (⟨.recv, .lagged missed⟩ : Move ServerEff.Res) ∈ past

/- Nothing has happened but at the door. -/
def OnlyDoor (past : ServerMoves) : Prop :=
  ∀ move ∈ past, ∃ effect, move.effect = .door effect

theorem OnlyDoor.quiet
    {past : ServerMoves}
    (hDoor : OnlyDoor past) :
    received past = [] ∧ judged past = [] ∧ sent past = [] := by
  have hMoves :
      ∀ move ∈ past, receivedBy move = none ∧
        judgedBy move = none ∧ sentBy move = none := by
    intro move hMove
    obtain ⟨effect, hEffect⟩ := hDoor move hMove
    rcases move with ⟨other, answer⟩
    cases hEffect
    exact ⟨rfl, rfl, rfl⟩
  unfold received judged sent
  simp only [List.filterMap_eq_nil_iff]
  exact ⟨fun move hMove => (hMoves move hMove).1,
    fun move hMove => (hMoves move hMove).2.1,
    fun move hMove => (hMoves move hMove).2.2⟩

variable {S : Type}

/- The key of the request, valid by the stream's own clock. -/
def Keyed
    (doors : FrontDoors S)
    (request : StreamRequest)
    (key : ApiKey)
    (past : ServerMoves) : Prop :=
  request.bearer.bind doors.keys.lookup = some key ∧
    ∃ now,
      (⟨.door .readClock, now⟩ : Move ServerEff.Res) ∈ past ∧
        key.isExpiredAt now = false

/-
  A stream that has dealt with all it was given: every event
  has been judged, and the tenant's have been sent.
-/
structure Feeding
    (doors : FrontDoors S)
    (request : StreamRequest)
    (key : ApiKey)
    (past : ServerMoves) : Prop where
  keyed : Keyed doors request key past
  looked : (judged past).map Prod.fst = received past
  passedOn :
    sent past =
      ownFrames (request.frame doors.svc.deps) (judged past)

/- What a stream may do after its own moves. -/
def StreamRule
    (doors : FrontDoors S)
    (request : StreamRequest)
    (past : ServerMoves) : ServerEff → Prop
  | .door _ => OnlyDoor past
  | .subscribe =>
      OnlyDoor past ∧ ∃ key, Keyed doors request key past
  | .recv => ∃ key, Feeding doors request key past
  | .belongs event tenantId =>
      ∃ key before,
        Feeding doors request key before ∧
          past = ⟨.recv, .value event⟩ :: before ∧
          tenantId = key.tenantId
  | .send frame =>
      ∃ key event before,
        Feeding doors request key before ∧
          past =
            ⟨.belongs event key.tenantId, true⟩ ::
              ⟨.recv, .value event⟩ :: before ∧
          frame = request.frame doors.svc.deps event

section Feeds

variable {doors : FrontDoors S}
variable {request : StreamRequest}
variable {key : ApiKey}
variable {past : ServerMoves}

theorem Keyed.cons
    (hKeyed : Keyed doors request key past)
    (move : Move ServerEff.Res) :
    Keyed doors request key (move :: past) := by
  obtain ⟨hLookup, now, hMem, hValid⟩ := hKeyed
  exact ⟨hLookup, now, List.mem_cons_of_mem _ hMem, hValid⟩

/- A look that gives no event leaves nothing to be done. -/
theorem Feeding.unmoved
    (hFeeding : Feeding doors request key past)
    {answer : Received Event}
    (hNone : receivedBy ⟨.recv, answer⟩ = none) :
    Feeding doors request key (⟨.recv, answer⟩ :: past) where
  keyed := hFeeding.keyed.cons _
  looked := by
    unfold received
    rw [List.filterMap_cons_none hNone]
    exact hFeeding.looked
  passedOn := hFeeding.passedOn

/- An event of another tenant is not passed on. -/
theorem Feeding.foreign
    (hFeeding : Feeding doors request key past)
    (event : Event) :
    Feeding doors request key
      (⟨.belongs event key.tenantId, false⟩ ::
        ⟨.recv, .value event⟩ :: past) where
  keyed := (hFeeding.keyed.cons _).cons _
  looked := congrArg (event :: ·) hFeeding.looked
  passedOn := hFeeding.passedOn

/- An event of the tenant is passed on. -/
theorem Feeding.own
    (hFeeding : Feeding doors request key past)
    (event : Event) :
    Feeding doors request key
      (⟨.send (request.frame doors.svc.deps event), ()⟩ ::
        ⟨.belongs event key.tenantId, true⟩ ::
        ⟨.recv, .value event⟩ :: past) where
  keyed := ((hFeeding.keyed.cons _).cons _).cons _
  looked := congrArg (event :: ·) hFeeding.looked
  passedOn :=
    congrArg (request.frame doors.svc.deps event :: ·)
      hFeeding.passedOn

/- The loop of a stream, by induction on its looks. -/
theorem feed_traced
    (looks : Nat)
    (hFeeding : Feeding doors request key past) :
    (feed (request.frame doors.svc.deps) key.tenantId
      looks).Traced (StreamRule doors request)
      (fun _ _ => True) past := by
  induction looks generalizing past with
  | zero => trivial
  | succ looks ih =>
      unfold feed
      refine ⟨⟨key, hFeeding⟩, fun answer => ?_⟩
      cases answer with
      | empty => exact ih (hFeeding.unmoved rfl)
      | lagged missed => exact ih (hFeeding.unmoved rfl)
      | value event =>
          refine ⟨⟨key, past, hFeeding, rfl, rfl⟩, fun own => ?_⟩
          cases own with
          | false => exact ih (hFeeding.foreign event)
          | true =>
              refine ⟨⟨key, event, past, hFeeding, rfl, rfl⟩,
                fun _ => ih (hFeeding.own event)⟩

/- A key is found out by one look at the clock. -/
def KeyFound
    (doors : FrontDoors S)
    (bearer : Option String)
    (key : ApiKey)
    (past : FrontMoves) : Prop :=
  bearer.bind doors.keys.lookup = some key ∧
    ∃ now, (⟨.readClock, now⟩ : Move FrontEff.Res) ∈ past ∧
      key.isExpiredAt now = false

/- What is found out at a door is known in the server. -/
theorem keyed_of_found
    (hFound :
      KeyFound doors request.bearer key
        (past.filterMap pickDoor)) :
    Keyed doors request key past := by
  obtain ⟨hLookup, now, hMem, hValid⟩ := hFound
  obtain ⟨move, hMove, hPick⟩ := List.mem_filterMap.mp hMem
  refine ⟨hLookup, now, ?_, hValid⟩
  rcases move with ⟨effect, answer⟩
  cases effect with
  | door effect =>
      cases hPick
      exact hMove
  | _ => cases hPick

theorem onlyDoor_nil : OnlyDoor [] := by
  intro move hMove
  cases hMove

theorem OnlyDoor.cons
    (hDoor : OnlyDoor past)
    {effect : FrontEff}
    {answer : effect.Res} :
    OnlyDoor (⟨.door effect, answer⟩ :: past) := by
  intro move hMove
  rcases List.mem_cons.mp hMove with rfl | hMove
  · exact ⟨effect, rfl⟩
  · exact hDoor move hMove

/- A stream goes on with its key, and otherwise ends. -/
theorem follow_traced
    {ε : Type}
    {refused : ε → StreamReply}
    {looks : Nat}
    {known : Front ε ApiKey}
    (hKnown :
      Fallible.Meets (fun _ _ => True) known
        (fun key later =>
          KeyFound doors request.bearer key later)
        (fun _ _ => True) []) :
    (follow refused (request.frame doors.svc.deps) looks
      known).Traced (StreamRule doors request)
      (fun _ _ => True) [] := by
  have hPicks : Picks ServerEff.door doorAnswer pickDoor :=
    fun _ _ => rfl
  have hStart :
      known.run.Traced _ _
        (([] : ServerMoves).filterMap pickDoor) := hKnown
  unfold follow atDoor
  rw [Prog.Traced.bind_iff]
  apply (Prog.Traced.via_pick hPicks OnlyDoor
    (fun _ _ hDoor _ => hDoor)
    (fun _ _ _ hDoor => hDoor.cons) onlyDoor_nil hStart).mono
  rintro result later ⟨hPost, hDoor⟩
  cases result with
  | error e => trivial
  | ok tenant =>
      have hKeyed := keyed_of_found hPost
      have hFeeding :
          Feeding doors request tenant
            (⟨.subscribe, ()⟩ :: later) := by
        obtain ⟨hReceived, hJudged, hSent⟩ := hDoor.quiet
        constructor
        · exact hKeyed.cons _
        · change (judged later).map Prod.fst = received later
          rw [hReceived, hJudged]
          rfl
        · change sent later = ownFrames _ (judged later)
          rw [hJudged, hSent]
          rfl
      unfold Prog.perform
      simp only [Prog.step_bind, Prog.ret_bind]
      refine ⟨⟨hDoor, tenant, hKeyed⟩, fun _ => ?_⟩
      rw [Prog.Traced.bind_iff]
      apply (feed_traced looks hFeeding).mono
      exact fun _ _ _ => trivial

theorem resolveTenant_found
    {headers : HeaderMap}
    {past : FrontMoves} :
    Fallible.Meets (fun _ _ => True)
      (resolveTenant doors headers)
      (fun key later =>
        KeyFound doors (httpBearer headers) key later)
      (fun _ _ => True) past := by
  simp only [resolveTenant, Fallible.meets_bind,
    Fallible.meets_orFail, Fallible.meets_ensure,
    Fallible.meets_pure, implies_true, and_true]
  intro bearer hBearer key hKey
  rw [Fallible.meets_act]
  refine ⟨trivial, fun now hValid => ?_⟩
  rw [Bool.not_eq_true'] at hValid
  rw [hBearer]
  exact ⟨hKey, now, List.mem_cons_self, hValid⟩

theorem authenticateStream_found
    {metadata : HeaderMap}
    {past : FrontMoves} :
    Fallible.Meets (fun _ _ => True)
      (authenticateStream doors metadata)
      (fun key later =>
        KeyFound doors (grpcBearer metadata) key later)
      (fun _ _ => True) past := by
  simp only [authenticateStream, authenticateBearer,
    Fallible.meets_bind, Fallible.meets_orFail,
    Fallible.meets_ensure, Fallible.meets_pure, implies_true,
    and_true]
  intro bearer hBearer key hKey
  rw [Fallible.meets_act]
  refine ⟨trivial, fun now hValid => ?_⟩
  rw [Bool.not_eq_true'] at hValid
  rw [hBearer]
  exact ⟨hKey, now, List.mem_cons_self, hValid⟩

/- Every stream follows its rule. -/
theorem streamProg_traced
    (doors : FrontDoors S)
    (request : StreamRequest)
    (looks : Nat) :
    (request.prog doors looks).Traced (StreamRule doors request)
      (fun _ _ => True) [] := by
  cases request with
  | sse headers => exact follow_traced resolveTenant_found
  | grpc metadata =>
      exact follow_traced authenticateStream_found

end Feeds

/-
  What a thread of the server may do: a stream by its rule,
  and everything else at a door.
-/
def ServerRule
    (doors : FrontDoors S) :
    ServerOp → ServerMoves → ServerEff → Prop
  | .stream request _, past, effect =>
      StreamRule doors request past effect
  | _, _, effect => ∃ other, effect = .door other

/- A program at a door stays there. -/
theorem atDoor_traced
    {α : Type}
    (p : Prog FrontEff.Res α)
    (past : ServerMoves) :
    (atDoor p).Traced
      (fun _ effect => ∃ other, effect = .door other)
      (fun _ _ => True) past := by
  have hAny :
      p.Traced (fun _ _ => True) (fun _ _ => True) [] :=
    Prog.Traced.of_forall (fun _ _ => trivial)
      (fun _ _ => trivial) p []
  apply (Prog.Traced.via hAny fun _ effect => ⟨effect, rfl⟩).mono
  exact fun _ _ _ => trivial

theorem serverProg_traced
    (doors : FrontDoors S)
    (op : ServerOp) :
    (op.prog doors).Traced (ServerRule doors op)
      (fun _ _ => True) [] := by
  cases op with
  | serve request =>
      unfold ServerOp.prog
      dsimp only
      rw [Prog.Traced.bind_iff]
      apply (atDoor_traced _ _).mono
      exact fun _ _ _ => trivial
  | background op =>
      unfold ServerOp.prog
      dsimp only
      rw [Prog.Traced.bind_iff]
      apply (atDoor_traced _ _).mono
      exact fun _ _ _ => trivial
  | stream request looks =>
      unfold ServerOp.prog
      dsimp only
      rw [Prog.Traced.bind_iff]
      apply (streamProg_traced doors request looks).mono
      exact fun _ _ _ => trivial

end Protocol

end IcpHandler

------------------------------------------------------------
-- The Bus
------------------------------------------------------------

namespace IcpHandler

namespace Protocol

open Model Service Concurrency Data.Broadcast

/- Events are only added, the newest first. -/
theorem events_grow
    {rfc3339 : Rfc3339}
    {thread : Nat}
    {c : Choice}
    {w after : World}
    {effect : Eff}
    {answer : effect.Res}
    (hExec :
      execEff rfc3339 thread c w effect = some (answer, after)) :
    ∃ more, after.events = more ++ w.events := by
  have hSame :
      after.events = w.events →
        ∃ more, after.events = more ++ w.events :=
    fun hEvents => ⟨[], hEvents⟩
  unfold execEff at hExec
  cases effect with
  | emit event =>
      cases hExec
      exact ⟨[event], rfl⟩
  | uuid =>
      dsimp only at hExec
      split at hExec
      · cases hExec
        exact hSame rfl
      · cases hExec
  | lock key =>
      dsimp only at hExec
      split at hExec
      · cases hExec
      · cases hExec
        exact hSame rfl
  | txns op =>
      obtain ⟨result, -, hResult⟩ :=
        Option.map_eq_some_iff.mp hExec
      cases hResult
      exact hSame rfl
  | subs op =>
      obtain ⟨result, -, hResult⟩ :=
        Option.map_eq_some_iff.mp hExec
      cases hResult
      exact hSame rfl
  | quotes op =>
      obtain ⟨result, -, hResult⟩ :=
        Option.map_eq_some_iff.mp hExec
      cases hResult
      exact hSame rfl
  | createOrder buyer currency lineItems total =>
      dsimp only at hExec
      split at hExec
      · cases hExec
        exact hSame rfl
      · cases hExec
        exact hSame rfl
  | insertReceipt receipt =>
      cases hExec
      apply hSame
      split
      · rfl
      · rfl
  | enqueue delivery =>
      cases hExec
      apply hSame
      split
      · rfl
      · rfl
  | _ =>
      cases hExec
      exact hSame rfl

theorem events_grow_dedup
    {rfc3339 : Rfc3339}
    {thread : Nat}
    {c : DedupChoice}
    {w after : DedupWorld}
    {effect : DedupEff}
    {answer : effect.Res}
    (hExec :
      execDedup rfc3339 thread c w effect =
        some (answer, after)) :
    ∃ more, after.base.events = more ++ w.base.events := by
  unfold execDedup at hExec
  cases effect with
  | inner effect =>
      obtain ⟨⟨answered, changed⟩, hInner, hResult⟩ :=
        Option.map_eq_some_iff.mp hExec
      cases hResult
      exact events_grow hInner
  | reserve key digest lease =>
      dsimp only at hExec
      split at hExec
      · cases hExec
      · cases hExec
        exact ⟨[], rfl⟩
  | _ =>
      cases hExec
      exact ⟨[], rfl⟩

variable {S : Type}
variable {doors : FrontDoors S}

theorem events_grow_front
    {thread : Nat}
    {c : FrontChoice}
    {w after : FrontWorld S}
    {effect : FrontEff}
    {answer : effect.Res}
    (hExec :
      execFront doors thread c w effect =
        some (answer, after)) :
    ∃ more,
      after.service.base.events =
        more ++ w.service.base.events := by
  unfold execFront at hExec
  split at hExec
  · cases hExec
    exact ⟨[], rfl⟩
  · cases hExec
    exact ⟨[], rfl⟩
  · cases hExec
    exact ⟨[], rfl⟩
  · cases hExec
    exact ⟨[], rfl⟩
  · cases hExec
    exact ⟨[], rfl⟩
  · obtain ⟨⟨answered, changed⟩, hDedup, hResult⟩ :=
      Option.map_eq_some_iff.mp hExec
    cases hResult
    exact events_grow_dedup hDedup

/- A look at the bus is a look from where the stream stands. -/
theorem recv_exec
    {thread : Nat}
    {c : FrontChoice}
    {w after : ServerWorld S}
    {answer : Received Event}
    (hExec :
      execServer doors thread c w .recv =
        some (answer, after)) :
    ∃ next, w.cursor thread = some next ∧
      (receive busCapacity w.log next).1 = answer ∧
      w.moveCursor thread (receive busCapacity w.log next).2 =
        after := by
  unfold execServer at hExec
  obtain ⟨next, hNext, hResult⟩ :=
    Option.map_eq_some_iff.mp hExec
  dsimp only at hResult
  rw [Prod.mk.injEq] at hResult
  exact ⟨next, hNext, hResult.1, hResult.2⟩

/- The log of the bus only grows. -/
theorem log_grows
    {thread : Nat}
    {c : FrontChoice}
    {w after : ServerWorld S}
    {effect : ServerEff}
    {answer : effect.Res}
    (hExec :
      execServer doors thread c w effect =
        some (answer, after)) :
    ∃ more, after.log = w.log ++ more := by
  cases effect with
  | door effect =>
      obtain ⟨⟨answered, changed⟩, hFront, hResult⟩ :=
        Option.map_eq_some_iff.mp hExec
      cases hResult
      obtain ⟨more, hMore⟩ := events_grow_front hFront
      refine ⟨more.reverse, ?_⟩
      unfold ServerWorld.log ServerWorld.base
      rw [hMore, List.reverse_append]
  | recv =>
      obtain ⟨next, -, -, rfl⟩ := recv_exec hExec
      exact ⟨[], (List.append_nil _).symm⟩
  | _ =>
      cases hExec
      exact ⟨[], (List.append_nil _).symm⟩

/- What becomes of the place where a stream stands. -/
theorem cursor_of_exec
    {thread : Nat}
    {c : FrontChoice}
    {w after : ServerWorld S}
    {effect : ServerEff}
    {answer : effect.Res}
    (hExec :
      execServer doors thread c w effect =
        some (answer, after))
    {other : Nat}
    (hOther : other ≠ thread) :
    after.cursor other = w.cursor other := by
  have hMoved (next : Nat) :
      (w.moveCursor thread next).cursor other =
        w.cursor other := by
    unfold ServerWorld.cursor ServerWorld.moveCursor
    rw [List.lookup_cons, beq_eq_false_iff_ne.mpr hOther]
  cases effect with
  | door effect =>
      obtain ⟨result, -, hResult⟩ :=
        Option.map_eq_some_iff.mp hExec
      cases hResult
      rfl
  | subscribe =>
      cases hExec
      exact hMoved _
  | recv =>
      obtain ⟨next, -, -, rfl⟩ := recv_exec hExec
      exact hMoved _
  | _ =>
      cases hExec
      rfl

theorem cursor_moveCursor
    (w : ServerWorld S)
    (thread next : Nat) :
    (w.moveCursor thread next).cursor thread = some next := by
  unfold ServerWorld.cursor ServerWorld.moveCursor
  rw [List.lookup_cons, beq_self_eq_true]

/- The histories in which every thread follows its rule. -/
abbrev ServerRun
    (doors : FrontDoors S)
    (ops : Nat → ServerOp)
    (w : ServerWorld S)
    (h : History ServerEff.Res (ServerWorld S)) : Prop :=
  Lawful (serverMachine doors)
    (fun thread => ServerRule doors (ops thread)) w h

/- The pool is one that the server can reach. -/
def ServerReaches
    (doors : FrontDoors S)
    (ops : Nat → ServerOp)
    (w : ServerWorld S)
    (pool :
      Pool ServerEff.Res (ServerWorld S) ServerReply) : Prop :=
  ∃ schedule,
    (serverPool doors ops w).run (serverMachine doors)
      schedule = some pool

theorem ServerReaches.serverRun
    {ops : Nat → ServerOp}
    {w : ServerWorld S}
    {pool : Pool ServerEff.Res (ServerWorld S) ServerReply}
    (hReach : ServerReaches doors ops w pool) :
    ServerRun doors ops w pool.history := by
  obtain ⟨schedule, hRun⟩ := hReach
  apply (Pool.run_lawful .start ?_ hRun).1
  · exact fun _ _ _ => True
  · exact fun thread => serverProg_traced doors (ops thread)

/-
  A stream has seen a part of what was emitted since it began,
  in order, and all of it where it has not lagged.
-/
inductive FollowsBus
    (h : History ServerEff.Res (ServerWorld S))
    (thread : Nat) : Prop where
  | waiting
      (hCursor : h.world.cursor thread = none)
      (hReceived : received (own thread h.past) = [])
  | begun
      (subscription :
        Occurrence ServerEff.Res (ServerWorld S))
      (next : Nat)
      (hMem : subscription ∈ h.past)
      (hThread : subscription.thread = thread)
      (hSubscribes : subscription.effect = .subscribe)
      (hCursor : h.world.cursor thread = some next)
      (hFollowing :
        Following h.world.log subscription.before.log.length
          next (received (own thread h.past)).reverse
          (Lagged (own thread h.past)))

section Follows

variable {ops : Nat → ServerOp}
variable {h : History ServerEff.Res (ServerWorld S)}
variable {o : Occurrence ServerEff.Res (ServerWorld S)}
variable {thread : Nat}

/- A stream that has not moved the bus stays where it was. -/
theorem FollowsBus.still
    (hFollows : FollowsBus h thread)
    {more : List Event}
    (hLog : o.after.log = h.world.log ++ more)
    (hCursor :
      o.after.cursor thread = h.world.cursor thread)
    (hReceived :
      received (own thread (h.push o).past) =
        received (own thread h.past))
    (hLagged :
      Lagged (own thread h.past) →
        Lagged (own thread (h.push o).past)) :
    FollowsBus (h.push o) thread := by
  cases hFollows with
  | waiting hNone hNothing =>
      exact .waiting (hCursor.trans hNone)
        (hReceived.trans hNothing)
  | begun subscription next hMem hThread hSubscribes hNext
      hFollowing =>
      apply FollowsBus.begun subscription next
        (List.mem_cons_of_mem _ hMem) hThread hSubscribes
        (hCursor.trans hNext)
      rw [History.push_world, hLog, hReceived]
      exact (hFollowing.append more).mono hLagged

/- An effect that does not look at the bus. -/
def quiet : ServerEff → Bool
  | .subscribe => false
  | .recv => false
  | _ => true

theorem receivedBy_of_ne
    {move : Move ServerEff.Res}
    (hOther : move.effect ≠ .recv) :
    receivedBy move = none := by
  rcases move with ⟨effect, answer⟩
  cases effect with
  | recv => exact absurd rfl hOther
  | _ => rfl

theorem received_recv
    {answer : Received Event}
    {past : ServerMoves} :
    (received (⟨.recv, answer⟩ :: past)).reverse =
      Following.shown (received past).reverse answer := by
  cases answer with
  | empty => rfl
  | lagged missed => rfl
  | value event =>
      change (event :: received past).reverse = _
      rw [List.reverse_cons]
      rfl

theorem lagged_recv
    {answer : Received Event}
    {past : ServerMoves} :
    Lagged past ∨ Following.isLagged answer = true →
      Lagged (⟨.recv, answer⟩ :: past) := by
  rintro (⟨missed, hMem⟩ | hLagged)
  · exact ⟨missed, List.mem_cons_of_mem _ hMem⟩
  · cases answer with
    | lagged missed => exact ⟨missed, List.mem_cons_self⟩
    | empty => cases hLagged
    | value event => cases hLagged

/- A look at the bus. -/
theorem FollowsBus.look
    (hFollows : FollowsBus h o.thread)
    (hAllows : (serverMachine doors).Allows h o)
    (hEffect : o.effect = .recv) :
    FollowsBus (h.push o) o.thread := by
  rcases o with ⟨thread, effect, answer, before, after⟩
  cases hEffect
  obtain ⟨-, choice, hExec⟩ := hAllows
  change execServer doors thread choice h.world .recv =
    some (answer, after) at hExec
  obtain ⟨next, hNext, hAnswer, rfl⟩ := recv_exec hExec
  cases hFollows with
  | waiting hNone hNothing =>
      rw [hNone] at hNext
      cases hNext
  | begun subscription place hMem hThread hSubscribes hPlace
      hFollowing =>
      rw [hPlace, Option.some.injEq] at hNext
      subst hNext
      have hLooked :
          Following h.world.log _
            (receive busCapacity h.world.log place).2 _ _ :=
        hFollowing.receive
      rw [hAnswer] at hLooked
      refine .begun subscription _
        (List.mem_cons_of_mem _ hMem) hThread hSubscribes
        (cursor_moveCursor _ _ _) ?_
      rw [History.push_past, own_cons_self]
      change Following _ _ _
        (received (⟨.recv, answer⟩ :: own thread h.past)).reverse
        (Lagged (⟨.recv, answer⟩ :: own thread h.past))
      rw [received_recv]
      exact hLooked.mono lagged_recv

theorem cursor_of_quiet
    {c : FrontChoice}
    {w after : ServerWorld S}
    {effect : ServerEff}
    {answer : effect.Res}
    (hExec :
      execServer doors thread c w effect =
        some (answer, after))
    (hQuiet : quiet effect = true)
    {other : Nat} :
    after.cursor other = w.cursor other := by
  cases effect with
  | door effect =>
      obtain ⟨result, -, hResult⟩ :=
        Option.map_eq_some_iff.mp hExec
      cases hResult
      rfl
  | subscribe => cases hQuiet
  | recv => cases hQuiet
  | _ =>
      cases hExec
      rfl

/- Only a stream begins, and only once. -/
theorem nothing_before_subscribe
    {op : ServerOp}
    {past : ServerMoves}
    (hRule : ServerRule doors op past .subscribe) :
    received past = [] := by
  cases op with
  | stream request looks => exact hRule.1.quiet.1
  | _ =>
      obtain ⟨effect, hEffect⟩ := hRule
      cases hEffect

/- A stream begins where the bus has come to. -/
theorem FollowsBus.begin
    (hAllows : (serverMachine doors).Allows h o)
    (hEffect : o.effect = .subscribe)
    (hNothing : received (own o.thread h.past) = []) :
    FollowsBus (h.push o) o.thread := by
  obtain ⟨hBefore, choice, hExec⟩ := hAllows
  have hNone :
      received (own o.thread (h.push o).past) = [] := by
    rw [History.push_past, own_cons_self]
    have hOther : receivedBy o.move = none := by
      apply receivedBy_of_ne
      intro hRecv
      change o.effect = .recv at hRecv
      rw [hEffect] at hRecv
      cases hRecv
    exact (List.filterMap_cons_none hOther).trans hNothing
  have hAfter :
      o.after = h.world.moveCursor o.thread
        h.world.log.length := by
    rcases o with ⟨thread, effect, answer, before, after⟩
    cases hEffect
    change some
        ((), h.world.moveCursor thread h.world.log.length) =
      some (answer, after) at hExec
    cases hExec
    rfl
  have hWorld : (h.push o).world = o.after := rfl
  refine .begun o h.world.log.length List.mem_cons_self rfl
    hEffect ?_ ?_
  · rw [hWorld, hAfter]
    exact cursor_moveCursor _ _ _
  · rw [hNone, hBefore, hWorld, hAfter]
    exact .begin

/- One step of the server, on a stream or not. -/
theorem followsBus_push
    (hFollows : FollowsBus h thread)
    (hAllows : (serverMachine doors).Allows h o)
    (hRule :
      ServerRule doors (ops o.thread) (own o.thread h.past)
        o.effect) :
    FollowsBus (h.push o) thread := by
  obtain ⟨-, choice, hExec⟩ := id hAllows
  obtain ⟨more, hLog⟩ := log_grows hExec
  by_cases hThread : o.thread = thread
  · subst hThread
    by_cases hQuiet : quiet o.effect = true
    · have hPast : (h.push o).past = o :: h.past := rfl
      refine hFollows.still hLog (cursor_of_quiet hExec hQuiet)
        ?_ ?_
      · rw [hPast, own_cons_self]
        apply List.filterMap_cons_none
        apply receivedBy_of_ne
        intro hRecv
        change o.effect = .recv at hRecv
        rw [hRecv] at hQuiet
        cases hQuiet
      · rw [hPast, own_cons_self]
        rintro ⟨missed, hMem⟩
        exact ⟨missed, List.mem_cons_of_mem _ hMem⟩
    · cases hEffect : o.effect with
      | recv => exact hFollows.look hAllows hEffect
      | subscribe =>
          apply FollowsBus.begin hAllows hEffect
          rw [hEffect] at hRule
          exact nothing_before_subscribe hRule
      | _ =>
          rw [hEffect] at hQuiet
          exact absurd rfl hQuiet
  · refine hFollows.still hLog
      (cursor_of_exec hExec (Ne.symm hThread)) ?_ ?_
    · rw [History.push_past, own_cons_other hThread]
    · rw [History.push_past, own_cons_other hThread]
      exact id

/- By induction on the run. -/
theorem followsBus_of_run
    {w : ServerWorld S}
    (hRun : ServerRun doors ops w h)
    (hFresh : w.cursor thread = none) :
    FollowsBus h thread := by
  induction hRun with
  | start => exact .waiting hFresh rfl
  | push hBefore hAllows hRule ih =>
      exact followsBus_push ih hAllows hRule

end Follows

end Protocol

end IcpHandler

------------------------------------------------------------
-- Frames
------------------------------------------------------------

namespace IcpHandler

namespace Protocol

open Model Service Concurrency Data.Broadcast

variable {S : Type}
variable {doors : FrontDoors S}
variable {request : StreamRequest}

/-
  A stream is at most one event behind what it was given, and
  at most one frame behind what it has found to be its own.
-/
structure InStep
    (frame : Event → StreamFrame)
    (past : ServerMoves) : Prop where
  looked :
    ∃ waiting : List Event, waiting.length ≤ 1 ∧
      received past = waiting ++ (judged past).map Prod.fst
  passedOn :
    ∃ waiting : List StreamFrame, waiting.length ≤ 1 ∧
      ownFrames frame (judged past) = waiting ++ sent past

theorem InStep.of_eq
    {frame : Event → StreamFrame}
    {past : ServerMoves}
    (hLooked : (judged past).map Prod.fst = received past)
    (hPassedOn : sent past = ownFrames frame (judged past)) :
    InStep frame past where
  looked := ⟨[], Nat.zero_le 1, hLooked.symm⟩
  passedOn := ⟨[], Nat.zero_le 1, hPassedOn.symm⟩

/- One move of a stream. -/
theorem inStep_of_rule
    {past : ServerMoves}
    {effect : ServerEff}
    {answer : effect.Res}
    (hRule : StreamRule doors request past effect) :
    InStep (request.frame doors.svc.deps)
      (⟨effect, answer⟩ :: past) := by
  cases effect with
  | door effect =>
      have hDoor :
          OnlyDoor (⟨.door effect, answer⟩ :: past) :=
        OnlyDoor.cons hRule
      obtain ⟨hReceived, hJudged, hSent⟩ := hDoor.quiet
      apply InStep.of_eq
      · rw [hReceived, hJudged]
        rfl
      · rw [hSent, hJudged]
        rfl
  | subscribe =>
      obtain ⟨hReceived, hJudged, hSent⟩ := hRule.1.quiet
      apply InStep.of_eq
      · change (judged past).map Prod.fst = received past
        rw [hReceived, hJudged]
        rfl
      · change sent past = ownFrames _ (judged past)
        rw [hSent, hJudged]
        rfl
  | recv =>
      obtain ⟨key, hFeeding⟩ := hRule
      cases answer with
      | empty =>
          exact .of_eq hFeeding.looked hFeeding.passedOn
      | lagged missed =>
          exact .of_eq hFeeding.looked hFeeding.passedOn
      | value event =>
          constructor
          · exact ⟨[event], Nat.le_refl 1,
              congrArg (event :: ·) hFeeding.looked.symm⟩
          · exact ⟨[], Nat.zero_le 1, hFeeding.passedOn.symm⟩
  | belongs event tenantId =>
      obtain ⟨key, before, hFeeding, rfl, rfl⟩ := hRule
      constructor
      · exact ⟨[], Nat.zero_le 1,
          congrArg (event :: ·) hFeeding.looked.symm⟩
      · cases answer with
        | false =>
            exact ⟨[], Nat.zero_le 1, hFeeding.passedOn.symm⟩
        | true =>
            exact ⟨[request.frame doors.svc.deps event],
              Nat.le_refl 1,
              congrArg
                (request.frame doors.svc.deps event :: ·)
                hFeeding.passedOn.symm⟩
  | send frame =>
      obtain ⟨key, event, before, hFeeding, rfl, rfl⟩ := hRule
      have hOwn := hFeeding.own event
      exact .of_eq hOwn.looked hOwn.passedOn

theorem inStep_nil (frame : Event → StreamFrame) :
    InStep frame [] :=
  .of_eq rfl rfl

section Runs

variable {ops : Nat → ServerOp}
variable {w : ServerWorld S}
variable {h : History ServerEff.Res (ServerWorld S)}
variable {thread looks : Nat}

theorem inStep_of_run
    (hRun : ServerRun doors ops w h)
    (hOp : ops thread = .stream request looks) :
    InStep (request.frame doors.svc.deps)
      (own thread h.past) := by
  induction hRun with
  | start => exact inStep_nil _
  | @push h o hBefore hAllows hRule ih =>
      rw [History.push_past, own_cons]
      split
      · rename_i hThread
        subst hThread
        rw [hOp] at hRule
        exact inStep_of_rule hRule
      · exact ih

/- An event that was found to be the tenant's. -/
structure FoundOwn
    (doors : FrontDoors S)
    (request : StreamRequest)
    (h : History ServerEff.Res (ServerWorld S))
    (thread : Nat)
    (event : Event) : Prop where
  emitted : event ∈ h.world.log
  owned :
    ∃ key, Keyed doors request key (own thread h.past) ∧
      ∃ look ∈ h.past, look.thread = thread ∧
        look.effect = .belongs event key.tenantId ∧
        eventBelongsToTenant look.before.base event
          key.tenantId = true

theorem Keyed.later
    {key : ApiKey}
    {older : List (Occurrence ServerEff.Res (ServerWorld S))}
    (hKeyed : Keyed doors request key (own thread older))
    (recent : List (Occurrence ServerEff.Res (ServerWorld S))) :
    Keyed doors request key (own thread (recent ++ older)) := by
  obtain ⟨hLookup, now, hMem, hValid⟩ := hKeyed
  refine ⟨hLookup, now, ?_, hValid⟩
  rw [own_append]
  exact List.mem_append_right _ hMem

/- Every event that was given to a stream has been emitted. -/
theorem FollowsBus.emitted
    (hFollows : FollowsBus h thread)
    {event : Event}
    (hReceived : event ∈ received (own thread h.past)) :
    event ∈ h.world.log := by
  cases hFollows with
  | waiting hNone hNothing =>
      rw [hNothing] at hReceived
      cases hReceived
  | begun subscription next hMem hThread hSubscribes hNext
      hFollowing =>
      have hBetween := hFollowing.sublist.subset
        (List.mem_reverse.mpr hReceived)
      exact List.mem_of_mem_take (List.mem_of_mem_drop hBetween)

/- What was judged to be the tenant's was found so. -/
theorem foundOwn_of_judged
    (hRun : ServerRun doors ops w h)
    (hOp : ops thread = .stream request looks)
    (hFollows : FollowsBus h thread)
    {event : Event}
    (hJudged : (event, true) ∈ judged (own thread h.past)) :
    FoundOwn doors request h thread event := by
  constructor
  · obtain ⟨waiting, -, hReceived⟩ :=
      (inStep_of_run hRun hOp).looked
    apply hFollows.emitted
    rw [hReceived]
    exact List.mem_append_right _
      (List.mem_map_of_mem (f := Prod.fst) hJudged)
  · obtain ⟨move, hMove, hPick⟩ := List.mem_filterMap.mp hJudged
    obtain ⟨o, hMem, rfl, rfl⟩ := mem_own_iff.mp hMove
    obtain ⟨recent, older, hPast⟩ := List.append_of_mem hMem
    obtain ⟨earlier, -, rfl, hAllows, hRule⟩ :=
      Lawful.cut hRun hPast
    obtain ⟨hBefore, choice, hExec⟩ := hAllows
    rw [hOp] at hRule
    rcases o with ⟨thread, effect, answer, before, after⟩
    cases effect with
    | belongs other tenantId =>
        cases hPick
        obtain ⟨key, prior, hFeeding, hOwn, rfl⟩ := hRule
        cases hBefore
        change some
            (!choice.fault &&
              eventBelongsToTenant earlier.world.base event
                key.tenantId, earlier.world) =
          some (true, after) at hExec
        rw [Option.some.injEq, Prod.mk.injEq,
          Bool.and_eq_true] at hExec
        refine ⟨key, ?_, _, hMem, rfl, rfl, hExec.1.2⟩
        rw [hPast, List.append_cons]
        apply Keyed.later
        rw [hOwn]
        exact hFeeding.keyed.cons _
    | _ => cases hPick

end Runs

/- A stream lags when the bus is too far ahead of it. -/
theorem lagging_of_allows
    {h : History ServerEff.Res (ServerWorld S)}
    {o : Occurrence ServerEff.Res (ServerWorld S)}
    {thread missed : Nat}
    (hAllows : (serverMachine doors).Allows h o)
    (hThread : o.thread = thread)
    (hMove : o.move = ⟨.recv, .lagged missed⟩) :
    ∃ next, o.before.cursor thread = some next ∧
      0 < missed ∧
      next + busCapacity + missed = o.before.log.length := by
  obtain ⟨hBefore, choice, hExec⟩ := hAllows
  rcases o with ⟨other, effect, answer, before, after⟩
  cases hMove
  cases hBefore
  cases hThread
  change execServer doors other choice h.world .recv =
    some (.lagged missed, after) at hExec
  obtain ⟨next, hNext, hAnswer, -⟩ := recv_exec hExec
  exact ⟨next, hNext, lagged_receive hAnswer⟩

/-
  What a stream has said, in any run. It has looked at the
  events on the bus from where it began, each once and in
  order, and at all of them unless it lagged; it has passed on
  those that it found to be its tenant's, in that order. It
  lags only when the bus has got ahead of it by more than it
  can hold.
-/
theorem streams_follow_the_bus
    (doors : FrontDoors S)
    (ops : Nat → ServerOp)
    (w : ServerWorld S)
    (thread looks : Nat)
    (request : StreamRequest)
    (hFresh : w.cursor thread = none)
    (hOp : ops thread = .stream request looks)
    (pool : Pool ServerEff.Res (ServerWorld S) ServerReply)
    (hReach : ServerReaches doors ops w pool) :
    FollowsBus pool.history thread ∧
    InStep (request.frame doors.svc.deps)
      (own thread pool.history.past) ∧
    (∀ frame ∈ sent (own thread pool.history.past),
      ∃ event, frame = request.frame doors.svc.deps event ∧
        FoundOwn doors request pool.history thread event) ∧
    ∀ o ∈ pool.history.past, o.thread = thread →
      ∀ missed, o.move = ⟨.recv, .lagged missed⟩ →
        ∃ next, o.before.cursor thread = some next ∧
          0 < missed ∧
          next + busCapacity + missed = o.before.log.length := by
  have hRun := hReach.serverRun
  have hFollows := followsBus_of_run hRun hFresh
  have hInStep := inStep_of_run hRun hOp
  refine ⟨hFollows, hInStep, ?_, ?_⟩
  · intro frame hFrame
    obtain ⟨waiting, -, hOwn⟩ := hInStep.passedOn
    have hPassed :
        frame ∈ ownFrames (request.frame doors.svc.deps)
          (judged (own thread pool.history.past)) := by
      rw [hOwn]
      exact List.mem_append_right _ hFrame
    obtain ⟨⟨event, own⟩, hPair, rfl⟩ := List.mem_map.mp hPassed
    obtain ⟨hJudged, hTrue⟩ := List.mem_filter.mp hPair
    cases hTrue
    exact ⟨event, rfl,
      foundOwn_of_judged hRun hOp hFollows hJudged⟩
  · intro o hMem hThread missed hMove
    obtain ⟨recent, older, hPast⟩ := List.append_of_mem hMem
    obtain ⟨earlier, -, -, hAllows, -⟩ :=
      Lawful.cut hRun hPast
    exact lagging_of_allows hAllows hThread hMove

/- A stream of `acme`, and a quote. -/
def watchedOps : Nat → ServerOp
  | 0 =>
      .stream
        (.sse [("authorization", utf8Bytes "Bearer icp_acme")]) 1
  | _ => .serve (acmeRequests 0)

/- The stream begins, the quote is made, the stream looks. -/
def watchedSchedule : List (Nat × FrontChoice) :=
  List.replicate 2 (0, ({} : FrontChoice)) ++
    (List.range 19).map
      (fun i => (1, { token := toString i })) ++
    List.replicate 3 (0, ({} : FrontChoice))

/- The stream sends one frame. -/
theorem watched_sends :
    ((serverPool acmeDoors watchedOps ⟨acmeWorld, []⟩).run
        (serverMachine acmeDoors) watchedSchedule).any
      (fun pool =>
        (sent (own 0 pool.history.past)).length == 1) =
      true := by
  decide

theorem streams_follow_the_bus_sample :
    ∃ pool event,
      ServerReaches acmeDoors watchedOps ⟨acmeWorld, []⟩ pool ∧
      (sent (own 0 pool.history.past)).length = 1 ∧
      FoundOwn acmeDoors
        (.sse [("authorization", utf8Bytes "Bearer icp_acme")])
        pool.history 0 event ∧
      FollowsBus pool.history 0 := by
  obtain ⟨pool, hPool, hSent⟩ :=
    (Option.any_eq_true _ _).mp watched_sends
  rw [beq_iff_eq] at hSent
  have hReach :
      ServerReaches acmeDoors watchedOps ⟨acmeWorld, []⟩ pool :=
    ⟨_, hPool⟩
  obtain ⟨hFollows, -, hFrames, -⟩ :=
    streams_follow_the_bus acmeDoors watchedOps ⟨acmeWorld, []⟩
      0 1 _ rfl rfl pool hReach
  obtain ⟨frame, hFrame⟩ := List.length_eq_one_iff.mp hSent
  obtain ⟨event, -, hFound⟩ :=
    hFrames frame (by rw [hFrame]; exact List.mem_singleton_self _)
  exact ⟨pool, event, hReach, hSent, hFound, hFollows⟩

end Protocol

end IcpHandler
