import IcpHandler.Concurrency.Trace
import IcpHandler.Model.World

/-
  Tracing the operations of the service. `Meets` runs through
  an operation for every answer at once: it collects what the
  rule asks of each effect, and leaves one postcondition for a
  value and one for an early stop.

  Main declarations:
    * `Svc.Meets`
    * `Svc.meets_bind`, `Svc.meets_act`
    * `Svc.meets_withLock`
    * `Svc.Meets.of_kind`
    * `Svc.Only`, `Svc.Only.andThen`
    * `Svc.Confined`
-/

------------------------------------------------------------
-- Tracing an Operation
------------------------------------------------------------

namespace IcpHandler

namespace Model

open Concurrency

/- The moves of one thread of the service. -/
abbrev Moves := Trace Eff.Res

namespace Svc

variable {α β : Type}
variable {rule : Moves → Eff → Prop}
variable {past : Moves}

/-
  After the moves `past`, the block only performs effects that
  the rule allows; it lands in `Q` where it returns and in `X`
  where it stops early.
-/
def Meets
    (rule : Moves → Eff → Prop)
    (body : Svc α)
    (Q : α → Moves → Prop)
    (X : Halt → Moves → Prop)
    (past : Moves) : Prop :=
  body.run.Traced rule
    (fun result later =>
      match result with
      | .ok value => Q value later
      | .error halt => X halt later)
    past

variable {Q : α → Moves → Prop}
variable {X : Halt → Moves → Prop}

/- A block goes on where the one before it has returned. -/
theorem run_bind_eq
    (body : Svc α)
    (next : α → Svc β) :
    (body >>= next).run =
      body.run >>= fun result =>
        match result with
        | .ok value => (next value).run
        | .error halt => pure (.error halt) := by
  rw [ExceptT.run_bind]
  refine bind_congr fun result => ?_
  cases result with
  | ok value => rfl
  | error halt => rfl

@[simp] theorem meets_pure
    {value : α} :
    (pure value : Svc α).Meets rule Q X past ↔
      Q value past :=
  Iff.rfl

@[simp] theorem meets_bind
    {body : Svc α}
    {next : α → Svc β}
    {Q : β → Moves → Prop} :
    (body >>= next).Meets rule Q X past ↔
      body.Meets rule
        (fun value later => (next value).Meets rule Q X later)
        X past := by
  rw [Meets, run_bind_eq, Prog.Traced.bind_iff, Meets]
  constructor
  · intro hTraced
    refine hTraced.mono fun result later hNext => ?_
    cases result with
    | ok value => exact hNext
    | error halt => exact hNext
  · intro hTraced
    refine hTraced.mono fun result later hNext => ?_
    cases result with
    | ok value => exact hNext
    | error halt => exact hNext

@[simp] theorem meets_act
    {effect : Eff}
    {Q : effect.Res → Moves → Prop} :
    (act effect).Meets rule Q X past ↔
      rule past effect ∧
        ∀ answer, Q answer (⟨effect, answer⟩ :: past) :=
  Iff.rfl

@[simp] theorem meets_fail
    {error : ApiError} :
    (fail error : Svc α).Meets rule Q X past ↔
      X (.error error) past :=
  Iff.rfl

@[simp] theorem meets_panic
    {message : String} :
    (panic message : Svc α).Meets rule Q X past ↔
      X (.panicked message) past :=
  Iff.rfl

@[simp] theorem meets_ensure
    {check : Bool}
    {error : ApiError}
    {Q : Unit → Moves → Prop} :
    (ensure check error).Meets rule Q X past ↔
      (check = true → Q () past) ∧
        (check = false → X (.error error) past) := by
  cases check with
  | true => simp [ensure]
  | false => simp [ensure]

@[simp] theorem meets_orFail
    {error : ApiError}
    {found : Option α} :
    (orFail error found).Meets rule Q X past ↔
      (∀ value, found = some value → Q value past) ∧
        (found = none → X (.error error) past) := by
  cases found with
  | some value => simp [orFail]
  | none => simp [orFail]

@[simp] theorem meets_orPanic
    {message : String}
    {found : Option α} :
    (orPanic message found).Meets rule Q X past ↔
      (∀ value, found = some value → Q value past) ∧
        (found = none → X (.panicked message) past) := by
  cases found with
  | some value => simp [orPanic]
  | none => simp [orPanic]

@[simp] theorem meets_ofExcept
    {ε : Type}
    {error : ε → ApiError}
    {result : Except ε α} :
    (ofExcept error result).Meets rule Q X past ↔
      (∀ value, result = .ok value → Q value past) ∧
        ∀ e, result = .error e →
          X (.error (error e)) past := by
  cases result with
  | ok value => simp [ofExcept]
  | error e => simp [ofExcept]

@[simp] theorem meets_attempt
    {body : Svc α}
    {Q : Except ApiError α → Moves → Prop} :
    (attempt body).Meets rule Q X past ↔
      body.Meets rule
        (fun value later => Q (.ok value) later)
        (fun halt later =>
          match halt with
          | .error e => Q (.error e) later
          | .panicked message => X (.panicked message) later)
        past := by
  rw [Meets, attempt, ExceptT.run_mk, Prog.Traced.bind_iff,
    Meets]
  constructor
  · intro hTraced
    refine hTraced.mono fun result later hNext => ?_
    rcases result with (e | message) | value
    · exact hNext
    · exact hNext
    · exact hNext
  · intro hTraced
    refine hTraced.mono fun result later hNext => ?_
    rcases result with (e | message) | value
    · exact hNext
    · exact hNext
    · exact hNext

@[simp] theorem meets_withLock
    {key : String}
    {body : Svc α} :
    (withLock key body).Meets rule Q X past ↔
      rule past (.lock key) ∧
        body.Meets rule
          (fun value later =>
            rule later (.unlock key) ∧
              Q value (⟨.unlock key, ()⟩ :: later))
          (fun halt later =>
            rule later (.unlock key) ∧
              X halt (⟨.unlock key, ()⟩ :: later))
          (⟨.lock key, ()⟩ :: past) := by
  have hRest :
      (do
        let result ← body.run
        let _ ← Prog.perform (.unlock key)
        pure result : Prog Eff.Res (Except Halt α)).Traced rule
          (fun result later =>
            match result with
            | .ok value => Q value later
            | .error halt => X halt later)
          (⟨.lock key, ()⟩ :: past) ↔
        body.Meets rule
          (fun value later =>
            rule later (.unlock key) ∧
              Q value (⟨.unlock key, ()⟩ :: later))
          (fun halt later =>
            rule later (.unlock key) ∧
              X halt (⟨.unlock key, ()⟩ :: later))
          (⟨.lock key, ()⟩ :: past) := by
    rw [Prog.Traced.bind_iff, Meets]
    constructor
    · intro hTraced
      refine hTraced.mono fun result later hNext => ?_
      cases result with
      | ok value => exact ⟨hNext.1, hNext.2 ()⟩
      | error halt => exact ⟨hNext.1, hNext.2 ()⟩
    · intro hTraced
      refine hTraced.mono fun result later hNext => ?_
      cases result with
      | ok value => exact ⟨hNext.1, fun _ => hNext.2⟩
      | error halt => exact ⟨hNext.1, fun _ => hNext.2⟩
  rw [← hRest, Meets, withLock, ExceptT.run_mk]
  exact and_congr_right fun _ =>
    ⟨fun hAll => hAll (), fun hOne _ => hOne⟩

namespace Meets

theorem mono
    {body : Svc α}
    {Q' : α → Moves → Prop}
    {X' : Halt → Moves → Prop}
    (hMeets : body.Meets rule Q X past)
    (hValue : ∀ value later, Q value later → Q' value later)
    (hHalt : ∀ halt later, X halt later → X' halt later) :
    body.Meets rule Q' X' past := by
  refine Prog.Traced.mono hMeets fun result later hPost => ?_
  cases result with
  | ok value => exact hValue value later hPost
  | error halt => exact hHalt halt later hPost

/-
  A block of effects of one kind extends the moves by moves of
  that kind, under every rule that allows them.
-/
theorem of_kind
    {kind : Eff → Prop}
    {body : Svc α}
    (hKind :
      body.Meets (fun _ effect => kind effect) Q X past)
    (hRule :
      ∀ moves effect, kind effect → rule moves effect) :
    body.Meets rule
      (fun value later => Q value later ∧
        ∃ recent, later = recent ++ past ∧
          ∀ move ∈ recent, kind move.effect)
      (fun halt later => X halt later ∧
        ∃ recent, later = recent ++ past ∧
          ∀ move ∈ recent, kind move.effect) past := by
  refine (Prog.Traced.of_kind hKind hRule).mono
    fun result later hPost => ?_
  cases result with
  | ok value => exact hPost
  | error halt => exact hPost

/- Whatever a block does, it adds to the moves there are. -/
theorem appended
    {body : Svc α}
    (hMeets : body.Meets rule Q X past) :
    body.Meets rule
      (fun value later =>
        Q value later ∧ ∃ recent, later = recent ++ past)
      (fun halt later =>
        X halt later ∧ ∃ recent, later = recent ++ past)
      past := by
  have hBoth :=
    Prog.Traced.and hMeets (Prog.Traced.appends body.run past)
  refine (hBoth.weaken fun _ _ hRule => hRule.1).mono
    fun result later hPost => ?_
  cases result with
  | ok value => exact hPost
  | error halt => exact hPost

end Meets

end Svc

end Model

end IcpHandler

------------------------------------------------------------
-- Blocks of One Kind
------------------------------------------------------------

namespace IcpHandler

namespace Model

open Concurrency

namespace Svc

variable {α β ε : Type}
variable {kind : Eff → Prop}

/- The block only performs effects of one kind. -/
def Only
    (kind : Eff → Prop)
    (body : Svc α) : Prop :=
  ∀ past, body.Meets (fun _ effect => kind effect)
    (fun _ _ => True) (fun _ _ => True) past

namespace Only

theorem pure (value : α) :
    Only kind (Pure.pure value : Svc α) :=
  fun _ => trivial

theorem bind
    {body : Svc α}
    {next : α → Svc β}
    (hBody : Only kind body)
    (hNext : ∀ value, Only kind (next value)) :
    Only kind (body >>= next) := by
  intro past
  rw [meets_bind]
  exact (hBody past).mono
    (fun value later _ => hNext value later)
    (fun _ _ _ => trivial)

theorem act
    {effect : Eff}
    (hKind : kind effect) :
    Only kind (Svc.act effect) :=
  fun _ => ⟨hKind, fun _ => trivial⟩

theorem fail (error : ApiError) :
    Only kind (Svc.fail error : Svc α) :=
  fun _ => trivial

theorem panic (message : String) :
    Only kind (Svc.panic message : Svc α) :=
  fun _ => trivial

theorem ensure (check : Bool) (error : ApiError) :
    Only kind (Svc.ensure check error) :=
  fun _ => meets_ensure.mpr
    ⟨fun _ => trivial, fun _ => trivial⟩

theorem orFail (error : ApiError) (found : Option α) :
    Only kind (Svc.orFail error found) :=
  fun _ => meets_orFail.mpr
    ⟨fun _ _ => trivial, fun _ => trivial⟩

theorem orPanic (message : String) (found : Option α) :
    Only kind (Svc.orPanic message found) :=
  fun _ => meets_orPanic.mpr
    ⟨fun _ _ => trivial, fun _ => trivial⟩

theorem ofExcept
    (error : ε → ApiError)
    (result : Except ε α) :
    Only kind (Svc.ofExcept error result) :=
  fun _ => meets_ofExcept.mpr
    ⟨fun _ _ => trivial, fun _ _ => trivial⟩

theorem attempt
    {body : Svc α}
    (hBody : Only kind body) :
    Only kind (Svc.attempt body) := by
  intro past
  rw [meets_attempt]
  refine (hBody past).mono (fun _ _ _ => trivial) ?_
  intro halt later _
  cases halt with
  | error e => exact trivial
  | panicked message => exact trivial

theorem withLock
    {key : String}
    {body : Svc α}
    (hLock : kind (.lock key))
    (hUnlock : kind (.unlock key))
    (hBody : Only kind body) :
    Only kind (Svc.withLock key body) :=
  fun _ => meets_withLock.mpr ⟨hLock, (hBody _).mono
    (fun _ _ _ => ⟨hUnlock, trivial⟩)
    (fun _ _ _ => ⟨hUnlock, trivial⟩)⟩

/- A block of one kind is of every wider kind. -/
theorem mono
    {kind' : Eff → Prop}
    {body : Svc α}
    (hBody : Only kind body)
    (hImp : ∀ effect, kind effect → kind' effect) :
    Only kind' body :=
  fun past =>
    (Meets.of_kind (hBody past) fun _ effect hKind =>
      hImp effect hKind).mono
      (fun _ _ _ => trivial) (fun _ _ _ => trivial)

end Only

/-
  The block only performs effects of one kind, and where it
  stops early it does so in one way.
-/
def Confined
    (kind : Eff → Prop)
    (stops : Halt → Prop)
    (body : Svc α) : Prop :=
  ∀ past, body.Meets (fun _ effect => kind effect)
    (fun _ _ => True) (fun halt _ => stops halt) past

namespace Confined

variable {stops : Halt → Prop}

theorem only
    {body : Svc α}
    (hBody : Confined kind stops body) :
    Only kind body :=
  fun past =>
    (hBody past).mono (fun _ _ _ => trivial)
      (fun _ _ _ => trivial)

theorem pure (value : α) :
    Confined kind stops (Pure.pure value : Svc α) :=
  fun _ => trivial

theorem bind
    {body : Svc α}
    {next : α → Svc β}
    (hBody : Confined kind stops body)
    (hNext : ∀ value, Confined kind stops (next value)) :
    Confined kind stops (body >>= next) := by
  intro past
  rw [meets_bind]
  exact (hBody past).mono
    (fun value later _ => hNext value later)
    (fun _ _ hStops => hStops)

theorem act
    {effect : Eff}
    (hKind : kind effect) :
    Confined kind stops (Svc.act effect) :=
  fun _ => ⟨hKind, fun _ => trivial⟩

theorem fail
    {error : ApiError}
    (hStops : stops (.error error)) :
    Confined kind stops (Svc.fail error : Svc α) :=
  fun _ => hStops

theorem ensure
    (check : Bool)
    {error : ApiError}
    (hStops : stops (.error error)) :
    Confined kind stops (Svc.ensure check error) :=
  fun _ => meets_ensure.mpr
    ⟨fun _ => trivial, fun _ => hStops⟩

theorem ofExcept
    {error : ε → ApiError}
    (result : Except ε α)
    (hStops : ∀ e, stops (.error (error e))) :
    Confined kind stops (Svc.ofExcept error result) :=
  fun _ => meets_ofExcept.mpr
    ⟨fun _ _ => trivial, fun e _ => hStops e⟩

end Confined

variable {past : Moves}

/-
  After a block of one kind the moves there were are still
  there.
-/
theorem Only.andThen
    {body : Svc α}
    {next : α → Svc β}
    {Q : β → Moves → Prop}
    {X : Halt → Moves → Prop}
    {rule : Moves → Eff → Prop}
    (hBody : Only kind body)
    (hRule : ∀ moves effect, kind effect → rule moves effect)
    (hHalt : ∀ halt later, X halt later)
    (hNext :
      ∀ value recent,
        (next value).Meets rule Q X (recent ++ past)) :
    (body >>= next).Meets rule Q X past := by
  rw [meets_bind]
  refine (Meets.of_kind (hBody past) hRule).mono ?_
    (fun halt later _ => hHalt halt later)
  rintro value later ⟨-, recent, rfl, -⟩
  exact hNext value recent

end Svc

end Model

end IcpHandler
