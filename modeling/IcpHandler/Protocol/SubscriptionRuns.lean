import IcpHandler.Protocol.IntentTurns
import IcpHandler.Protocol.SubscriptionIntents
import IcpHandler.Protocol.Turns

/-
  The operations on subscriptions, one after the other: what
  one of them makes of the books of a subscription, in a run
  where each has its turn.

  Main declarations:
    * `OnSubs`
    * `Carried`, `Turned`
    * `does_subIntent`
    * `turned`
-/

------------------------------------------------------------
-- Operations on Subscriptions
------------------------------------------------------------

namespace IcpHandler

namespace Protocol

open Model Service Concurrency

/- The intents that enroll, charge or mark a subscription. -/
def isSubIntent : Intent → Bool
  | .subscribe | .renew | .pause | .cancelSubscription => true
  | _ => false

/- An intent on a subscription, or a tick of the scheduler. -/
def OnSubs : Op → Prop
  | .intent input =>
      ∀ intent, Intent.parse input.envelope.intent = .ok intent →
        isSubIntent intent = true
  | .tickSubscriptions _ => True
  | .tickExpiries _ => False

/- What the intent makes of the books where it succeeds. -/
def Carried
    (svc : IcpService)
    (lost : Prop)
    (input : IntentInput)
    (mandate : Option MandateEvaluation)
    (id : String)
    (before after : SubBooks) : Intent → Prop
  | .subscribe =>
      SubscribeDone svc lost input mandate id before after
  | .renew => RenewDone svc lost input mandate id before after
  | .pause => MarkDone .pause before after
  | .cancelSubscription => MarkDone .cancel before after
  | _ => False

/-
  What an operation makes of the books in its turn. An intent
  that ends in an error may have been carried out: its receipt
  comes last.
-/
inductive Turned
    (svc : IcpService)
    (lost : Prop)
    (id : String)
    (before after : SubBooks) : Op → OpResult → Prop where
  | refused
      (input : IntentInput)
      (halt : Halt)
      (hUnbilled : Unbilled lost before after) :
      Turned svc lost id before after (.intent input)
        (.response (.error halt))
  | carried
      (input : IntentInput)
      (intent : Intent)
      (mandate : Option MandateEvaluation)
      (result : Except Halt IntentResponseBody)
      (hIntent :
        Intent.parse input.envelope.intent = .ok intent)
      (hCarried :
        Carried svc lost input mandate id before after intent) :
      Turned svc lost id before after (.intent input)
        (.response result)
  | ticked
      (now : DateTime)
      (report : SchedulerTickReport)
      (hTicked :
        Ticked svc lost now (0 < report.failed) before after) :
      Turned svc lost id before after (.tickSubscriptions now)
        (.renewals (.ok report))
  | brokenOff
      (now : DateTime)
      (halt : Halt)
      (hBroken :
        after = before ∨
          ∃ sub, before.row = some sub ∧
            Data.Record.isDue now sub = true ∧
            Billed svc lost now sub True before after) :
      Turned svc lost id before after (.tickSubscriptions now)
        (.renewals (.error halt))

section Turns

variable {svc : IcpService} {fits : Choice → Prop}
variable {lost : Prop} {thread : Nat}
variable {id : String} {h : Log} {before : SubBooks}
variable {input : IntentInput} {intent : Intent}
variable {mandate : Option MandateEvaluation}

theorem Unbilled.rfl : Unbilled lost before before :=
  ⟨Eq.refl _, .inl (Eq.refl _)⟩

/- The intent's own work. -/
theorem does_subDispatch
    (hLoses : Loses fits lost)
    (hBooks : booksOf id h = before)
    (hOn : isSubIntent intent = true) :
    (dispatch svc intent input mandate).Does svc.deps.rfc3339
      fits thread
      (fun _ later =>
        Carried svc lost input mandate id before
          (booksOf id later) intent)
      (fun _ later => Unbilled lost before (booksOf id later))
      h := by
  have hSame :
      ∀ (halt : Halt) (later : Log), booksOf id later = before →
        Unbilled lost before (booksOf id later) := by
    intro halt later hLater
    rw [hLater]
    exact .rfl
  cases intent with
  | subscribe => exact does_doSubscribe hLoses hBooks
  | renew => exact does_doRenew hLoses hBooks
  | pause =>
      exact (does_doPause hLoses hBooks).mono
        (fun _ _ hDone => hDone) hSame
  | cancelSubscription =>
      exact (does_doCancelSubscription hLoses hBooks).mono
        (fun _ _ hDone => hDone) hSame
  | _ => cases hOn

/- The whole intent, with its mandate and its answer. -/
theorem does_subIntent
    (hLoses : Loses fits lost)
    (hBooks : booksOf id h = before)
    (hOn : OnSubs (.intent input)) :
    (handleIntent svc input).Does svc.deps.rfc3339 fits thread
      (fun _ later =>
        ∃ intent mandate,
          Intent.parse input.envelope.intent = .ok intent ∧
            Carried svc lost input mandate id before
              (booksOf id later) intent)
      (fun _ later =>
        Unbilled lost before (booksOf id later) ∨
          ∃ intent mandate,
            Intent.parse input.envelope.intent = .ok intent ∧
              Carried svc lost input mandate id before
                (booksOf id later) intent)
      h := by
  refine does_handleIntent
    (booksView svc.deps.rfc3339 fits id)
    (fun _ hIdle => elsewhere_of_idle hIdle) hBooks ?_ ?_
  · intro halt later hSame
    left
    rw [show booksOf id later = before from hSame]
    exact .rfl
  · intro intent mandate ready hIntent _ hReady
    refine (does_subDispatch hLoses hReady
      (hOn intent hIntent)).mono ?_ fun _ _ hUnbilled =>
        .inl hUnbilled
    intro outcome carried hCarried
    refine (does_respond (booksView svc.deps.rfc3339 fits id)
      (fun _ hIdle => elsewhere_of_idle hIdle) rfl).mono ?_ ?_
    · intro body later hSame
      refine ⟨intent, mandate, hIntent, ?_⟩
      rw [show booksOf id later = booksOf id carried from hSame]
      exact hCarried
    · rintro halt later ⟨hSame, -⟩
      refine .inr ⟨intent, mandate, hIntent, ?_⟩
      rw [show booksOf id later = booksOf id carried from hSame]
      exact hCarried

/- The database has failed on one of the choices. -/
def Faulty (choices : List Choice) : Prop :=
  ∃ choice ∈ choices, choice.fault = true

/- What a turn makes of the books of a subscription. -/
theorem turned
    (id : String)
    {op : Op}
    {choices rest : List Choice}
    {later : Log}
    {result : OpResult}
    (hOn : OnSubs op)
    (hEval :
      (op.prog svc).eval (machine svc.deps.rfc3339) thread
        choices h = some (result, later, rest)) :
    Turned svc (Faulty choices) id (booksOf id h)
      (booksOf id later) op result := by
  have hLoses : Loses (· ∈ choices) (Faulty choices) :=
    fun choice hMem hFault => ⟨choice, hMem, hFault⟩
  have hAll : ∀ choice ∈ choices, choice ∈ choices :=
    fun _ hMem => hMem
  have hSame : booksOf id h = booksOf id h := rfl
  refine Prog.Ensures.eval
    (Q := fun result later =>
      Turned svc (Faulty choices) id (booksOf id h)
        (booksOf id later) op result) ?_ hAll hEval
  cases op with
  | intent input =>
      refine Prog.Ensures.bind_iff.mpr ?_
      refine Prog.Ensures.mono (does_subIntent hLoses hSame hOn)
        fun answer last hPost => ?_
      cases answer with
      | ok body =>
          obtain ⟨intent, mandate, hIntent, hCarried⟩ := hPost
          exact .carried input intent mandate _ hIntent hCarried
      | error halt =>
          rcases hPost with hUnbilled |
            ⟨intent, mandate, hIntent, hCarried⟩
          · exact .refused input halt hUnbilled
          · exact .carried input intent mandate _ hIntent
              hCarried
  | tickSubscriptions now =>
      refine Prog.Ensures.bind_iff.mpr ?_
      refine Prog.Ensures.mono
        (does_tickSubscriptions id hLoses)
        fun answer last hPost => ?_
      cases answer with
      | ok report => exact .ticked now report hPost
      | error halt => exact .brokenOff now halt hPost
  | tickExpiries now => cases hOn

end Turns

end Protocol

end IcpHandler
