import IcpHandler.Protocol.Sections

/-
  An intent that finds a row past its deadline marks it as
  expired. The time it does so by is one that its own clock
  has shown.

  Main declarations:
    * `MarksInTime`
    * `timely_doAuthorize`, `timely_doBuy`, `timely_doA2aPay`
    * `timely_handleIntent`
-/

------------------------------------------------------------
-- Marks in Time
------------------------------------------------------------

namespace IcpHandler

namespace Protocol

open Model Service Concurrency

/- A mark bears a time that the thread has read before. -/
def MarksInTime (past : Moves) (effect : Eff) : Prop :=
  ∀ time, effect.marking = some time →
    (⟨.now, time⟩ : Move Eff.Res) ∈ past

/- The block marks only what is due by its own clock. -/
def Timely
    {α : Type}
    (body : Svc α) : Prop :=
  ∀ past, body.Meets MarksInTime (fun _ _ => True)
    (fun _ _ => True) past

/- A mark of the block, if there is one, bears this time. -/
def MarksAt (now : DateTime) (effect : Eff) : Prop :=
  effect.marking = none ∨ effect.marking = some now

theorem Steady.marksAt
    {effect : Eff}
    (hSteady : Steady effect)
    (now : DateTime) :
    MarksAt now effect :=
  .inl hSteady.unmarking

namespace Timely

variable {α β : Type}

theorem bind
    {body : Svc α}
    {next : α → Svc β}
    (hBody : Timely body)
    (hNext : ∀ value, Timely (next value)) :
    Timely (body >>= next) := by
  intro past
  rw [Svc.meets_bind]
  exact (hBody past).mono
    (fun value later _ => hNext value later)
    (fun _ _ _ => trivial)

theorem unmarking
    {body : Svc α}
    (hOnly :
      Svc.Only (fun effect => effect.marking = none) body) :
    Timely body := by
  intro past
  refine (Svc.Meets.of_kind (hOnly past) ?_).mono
    (fun _ _ _ => trivial) (fun _ _ _ => trivial)
  intro moves effect hNone time hTime
  rw [hNone] at hTime
  cases hTime

theorem steady
    {body : Svc α}
    (hSteady : Svc.Only Steady body) :
    Timely body :=
  unmarking (hSteady.mono fun _ hEffect => hEffect.unmarking)

/- A steady block before the next one. -/
theorem after
    {body : Svc α}
    {next : α → Svc β}
    (hSteady : Svc.Only Steady body)
    (hNext : ∀ value, Timely (next value)) :
    Timely (body >>= next) :=
  (steady hSteady).bind hNext

theorem locked
    {key : String}
    {body : Svc α}
    (hBody : Timely body) :
    Timely (Svc.withLock key body) := by
  intro past
  have hLock : MarksInTime past (.lock key) :=
    fun _ hTime => nomatch hTime
  have hUnlock :
      ∀ later, MarksInTime later (.unlock key) :=
    fun _ _ hTime => nomatch hTime
  refine Svc.meets_withLock.mpr ⟨hLock, ?_⟩
  exact (hBody _).mono
    (fun _ later _ => ⟨hUnlock later, trivial⟩)
    (fun _ later _ => ⟨hUnlock later, trivial⟩)

theorem of_sections
    {body : Svc α}
    (hSections : Sections Steady body) :
    Timely body := by
  induction hSections with
  | only hSteady => exact steady hSteady
  | bind hBody hNext ihBody ihNext => exact ihBody.bind ihNext
  | locked hKey hSteady => exact (steady hSteady).locked

/- After the clock was read, marks may bear what it showed. -/
theorem read
    {next : DateTime → Svc α}
    (hNext : ∀ now, Svc.Only (MarksAt now) (next now)) :
    Timely (Svc.act .now >>= next) := by
  intro past
  have hNow : MarksInTime past .now :=
    fun _ hTime => nomatch hTime
  rw [Svc.meets_bind]
  refine Svc.meets_act.mpr ⟨hNow, fun now => ?_⟩
  have hRead :
      (⟨.now, now⟩ : Move Eff.Res) ∈
        (⟨.now, now⟩ :: past : Moves) :=
    List.mem_cons_self
  refine Prog.Traced.mono
    (Prog.Traced.of_kind_keeping
      (fun moves => (⟨.now, now⟩ : Move Eff.Res) ∈ moves)
      (hNext now _) ?_
      (fun _ _ hMem _ => List.mem_cons_of_mem _ hMem) hRead) ?_
  · intro moves effect hMem hMarks time hTime
    rcases hMarks with hNone | hNow
    · rw [hNone] at hTime
      cases hTime
    · rw [hNow] at hTime
      cases hTime
      exact hMem
  · intro result later _
    cases result with
    | ok value => exact trivial
    | error halt => exact trivial

end Timely

end Protocol

end IcpHandler

------------------------------------------------------------
-- The Intents
------------------------------------------------------------

namespace IcpHandler

namespace Protocol

open Model Service Concurrency

section Bodies

variable {svc : IcpService}
variable {input : IntentInput}
variable {mandate : Option MandateEvaluation}

theorem marksAt_of_steady
    {α : Type}
    {body : Svc α}
    {now : DateTime}
    (hSteady : Svc.Only Steady body) :
    Svc.Only (MarksAt now) body :=
  hSteady.mono fun _ hEffect => hEffect.marksAt now

theorem marksAt_ensureQuoteOpen
    (txn : Transaction)
    (now : DateTime) :
    Svc.Only (MarksAt now) (ensureQuoteOpen txn now) :=
  only_ensureQuoteOpen (fun _ => .inr rfl) txn

theorem timely_doAuthorize :
    Timely (doAuthorize svc input) := by
  refine .after (Svc.Only.ofExcept _ _) fun params => ?_
  refine .locked ?_
  refine .after (hushed_transactionForInput _).steady
    fun txn => ?_
  refine .after (Svc.Only.ensure _ _) fun _ => ?_
  refine .after (Svc.Only.ensure _ _) fun _ => ?_
  refine .read fun now => ?_
  refine (marksAt_ensureQuoteOpen txn now).bind fun _ => ?_
  refine marksAt_of_steady ?_
  exact Svc.Only.bind (Svc.Only.act rfl) fun now =>
    steady_lastUpdate rfl

theorem timely_ensureBuyable (txn : Transaction) :
    Timely (ensureBuyable txn) := by
  unfold ensureBuyable
  split
  · exact .read fun now => marksAt_ensureQuoteOpen txn now
  · exact .steady (Svc.Only.pure _)
  · exact .steady (Svc.Only.fail _)

theorem timely_doBuy :
    Timely (doBuy svc input mandate) := by
  refine .after (Svc.Only.ofExcept _ _) fun params => ?_
  refine .after (Svc.Only.ofExcept _ _) fun _ => ?_
  refine .locked ?_
  refine .after (hushed_transactionForInput _).steady
    fun txn => ?_
  refine .after (Svc.Only.ensure _ _) fun _ => ?_
  refine (timely_ensureBuyable txn).bind fun _ => ?_
  refine .after (hushed_reserve _ _ _ _).steady fun _ => ?_
  refine .after (hushed_persistOrderForTransaction _).steady
    fun order => ?_
  refine .after (Svc.Only.act rfl) fun now => ?_
  exact .steady (steady_lastUpdate rfl)

theorem timely_payTerms (params : A2aPayParams) :
    Timely (payTerms input mandate params) := by
  refine .read fun now => ?_
  split
  · have hTerms :
        ∀ quoteId,
          Svc.Only (MarksAt now)
            (quoteTerms input quoteId now) :=
      only_quoteTerms (fun _ => .inl rfl) fun _ => .inr rfl
    exact (hTerms _).bind fun terms =>
      marksAt_of_steady (steady_settle terms now _)
  · refine marksAt_of_steady ?_
    exact (hushed_directTerms _).steady.bind fun terms =>
      steady_settle terms now _

theorem timely_doA2aPay :
    Timely (doA2aPay svc input mandate) := by
  refine .after (Svc.Only.ofExcept _ _) fun params => ?_
  refine .after (Svc.Only.ensure _ _) fun _ => ?_
  refine .after (hushed_ensureA2aPayment _).steady
    fun _ => ?_
  split
  · exact .locked (timely_payTerms params)
  · exact timely_payTerms params

theorem timely_dispatch (intent : Intent) :
    Timely (dispatch svc intent input mandate) := by
  cases intent with
  | search => exact .steady (steady_advisory _)
  | describe => exact .steady (steady_advisory _)
  | quote => exact .steady steady_doQuote
  | negotiate => exact .of_sections sections_doNegotiate
  | authorize => exact timely_doAuthorize
  | buy => exact timely_doBuy
  | pay => exact timely_doBuy
  | subscribe => exact .steady steady_doSubscribe
  | renew => exact .of_sections sections_doRenew
  | pause => exact .of_sections sections_doPause
  | cancelSubscription =>
      exact .of_sections sections_doCancelSubscription
  | track => exact .steady steady_doTrack
  | confirmReceipt =>
      exact .of_sections sections_doConfirmReceipt
  | «return» => exact .of_sections sections_doReturn
  | refundRequest => exact .of_sections sections_doReturn
  | a2aPay => exact timely_doA2aPay
  | a2aQuote => exact .steady steady_doA2aQuote

theorem timely_respond
    {intent : Intent}
    {outcome : Outcome} :
    Timely (respond svc intent input mandate outcome) := by
  refine .unmarking fun past => ?_
  have hIdle :
      (respond svc intent input mandate outcome).Meets IdleRule
        _ _ past :=
    meets_respond
  refine (Svc.Meets.of_kind hIdle ?_).mono
    (fun _ _ _ => trivial) (fun _ _ _ => trivial)
  exact fun _ _ hKind => marking_of_quiet (isIdle_iff.mp hKind).1

/- An intent only marks what its clock says is due. -/
theorem timely_handleIntent :
    Timely (handleIntent svc input) := by
  have hNow : Steady .now := rfl
  have hMandate :
      ∀ intent, Svc.Only Steady (mandateFor svc input intent) :=
    only_mandateFor hNow (fun _ => rfl) (fun _ => rfl)
  unfold handleIntent
  generalize Intent.parse input.envelope.intent = parsed
  refine .after (Svc.Only.ensure _ _) fun _ => ?_
  refine .after (Svc.Only.ofExcept _ _) fun intent => ?_
  refine .after (hMandate intent) fun mandate => ?_
  refine .after (only_ensureSubject mandate) fun _ => ?_
  exact (timely_dispatch intent).bind fun _ => timely_respond

end Bodies

end Protocol

end IcpHandler
