import IcpHandler.Protocol.Rule

/-
  How an intent can stop early. Most refusals come before
  anything was written; the late ones are listed here.

  Main declarations:
    * `Harmless`
    * `LateFailure`
    * `Stopped`
-/

------------------------------------------------------------
-- Harmless Moves
------------------------------------------------------------

namespace IcpHandler

namespace Protocol

open Model Service Concurrency

/-
  The move wrote nothing that the intent's caller would want
  undone: it is idle, it only marked something expired, or it
  failed.
-/
def HarmlessMove : Move Eff.Res → Prop
  | ⟨.txns (.insert _), _⟩ => False
  | ⟨.txns (.update _ (.expireIfOpen _)), _⟩ => True
  | ⟨.txns (.update _ _), found⟩ => found = none
  | ⟨.insertCharge _ _, _⟩ => False
  | ⟨.subs (.insert _), _⟩ => False
  | ⟨.subs (.update _ _), found⟩ => found = none
  | ⟨.quotes (.insert _), _⟩ => False
  | ⟨.quotes (.update _ (.expire _)), _⟩ => True
  | ⟨.quotes (.update _ _), found⟩ => found = none
  | ⟨.recordSpend _ _ _ _ _, result⟩ => ∃ e, result = .error e
  | ⟨.createOrder _ _ _ _, result⟩ => ∃ e, result = .error e
  | _ => True

def Harmless (past : Moves) : Prop :=
  ∀ move ∈ past, HarmlessMove move

theorem harmless_cons
    {move : Move Eff.Res}
    {past : Moves} :
    Harmless (move :: past) ↔
      HarmlessMove move ∧ Harmless past :=
  List.forall_mem_cons

theorem harmlessMove_of_isIdle
    {move : Move Eff.Res}
    (hIdle : move.effect.isIdle = true) :
    HarmlessMove move := by
  rcases move with ⟨effect, answer⟩
  cases effect with
  | txns op =>
      cases op with
      | insert txn => cases hIdle
      | update id patch => cases hIdle
      | _ => trivial
  | subs op =>
      cases op with
      | insert sub => cases hIdle
      | update id patch => cases hIdle
      | _ => trivial
  | quotes op =>
      cases op with
      | insert quote => cases hIdle
      | update id patch => cases hIdle
      | _ => trivial
  | insertCharge txn bills => cases hIdle
  | recordSpend jti tenantId amount now limits => cases hIdle
  | createOrder buyer currency items total => cases hIdle
  | _ => trivial

/- Only idle moves so far. -/
def Idle (past : Moves) : Prop :=
  ∀ move ∈ past, move.effect.isIdle = true

section Idle

variable {past : Moves}

theorem Idle.harmless
    (hIdle : Idle past) :
    Harmless past :=
  fun move hMove => harmlessMove_of_isIdle (hIdle move hMove)

theorem isQuiet_iff
    {effect : Eff} :
    effect.isQuiet = true ↔
      effect.touchesTxns = false ∧
        effect.touchesSubs = false ∧
        effect.touchesQuotes = false ∧
        effect.isLocking = false := by
  simp [Eff.isQuiet, and_assoc]

theorem isIdle_iff
    {effect : Eff} :
    effect.isIdle = true ↔
      effect.isQuiet = true ∧ effect.spends = false := by
  simp [Eff.isIdle]

theorem Idle.pendingCharge
    (hIdle : Idle past) :
    pendingCharge past = none := by
  have hQuiet :
      ∀ move ∈ past, move.effect.touchesSubs = false ∧
        move.effect.touchesTxns = false := by
    intro move hMove
    have hMoveQuiet :=
      isQuiet_iff.mp (isIdle_iff.mp (hIdle move hMove)).1
    exact ⟨hMoveQuiet.2.1, hMoveQuiet.1⟩
  have hKept :
      Protocol.pendingCharge (past ++ []) =
        Protocol.pendingCharge [] :=
    pendingCharge_append past hQuiet
  rwa [List.append_nil] at hKept

theorem Idle.unlocked
    (hIdle : Idle past) :
    ∀ move ∈ past, move.effect.isLocking = false :=
  fun move hMove =>
    (isQuiet_iff.mp
      (isIdle_iff.mp (hIdle move hMove)).1).2.2.2

end Idle

end Protocol

end IcpHandler

------------------------------------------------------------
-- Late Failures
------------------------------------------------------------

namespace IcpHandler

namespace Protocol

open Model Service Concurrency

/- A spend has been recorded on a mandate. -/
def Spent (past : Moves) : Prop :=
  ∃ jti tenantId amount now limits,
    (⟨.recordSpend jti tenantId amount now limits, .ok ()⟩ :
      Move Eff.Res) ∈ past

/- An order has been created. -/
def Ordered (past : Moves) : Prop :=
  ∃ buyer currency items total order,
    (⟨.createOrder buyer currency items total, .ok order⟩ :
      Move Eff.Res) ∈ past

/-
  A step that refuses after a spend was recorded, an order was
  created or a row was written.
-/
inductive LateFailure
    (svc : IcpService)
    (input : IntentInput)
    (past : Moves) : Prop where
  /- a trial that is too long, checked after the reservation -/
  | trial
      (params : SubscribeParams)
      (days : UInt32)
      (hParams :
        svc.deps.subscribeParams input.envelope.params =
          .ok params)
      (hDays : params.trialDays = some days)
      (hLong :
        maxTrialDays < days ∨
          ∃ now, svc.deps.calendar.checkedAddSigned now
            (Duration.days days.toNat) = none)
      (hSpent : Spent past)
  /- production, and the order cannot be persisted -/
  | order
      (hProduction : svc.config.isProduction = true)
      (hRefused : ¬ Ordered past)
      (hSpent : Spent past)
  /- a transaction whose last write does not land -/
  | lost
      (id : String)
      (patch : TxnPatch)
      (hLost :
        (⟨.txns (.update id patch), none⟩ : Move Eff.Res) ∈
          past)
      (hDone : Spent past ∨ Ordered past)
  /- the receipt cannot be made or signed -/
  | receipt
      (hReceipt :
        (∃ body error,
          svc.deps.jcsBody body = .error error) ∨
        ∃ claims error,
          (⟨.signClaims claims, .error error⟩ :
            Move Eff.Res) ∈ past)

/-
  How an intent stops: no charge is left without its row, and
  an error either wrote nothing or is one of the late ones.
-/
structure Stopped
    (svc : IcpService)
    (input : IntentInput)
    (halt : Halt)
    (past : Moves) : Prop where
  settled : pendingCharge past = none
  excused :
    ∀ error, halt = .error error →
      Harmless past ∨ LateFailure svc input past

end Protocol

end IcpHandler
