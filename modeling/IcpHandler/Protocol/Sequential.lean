import IcpHandler.Concurrency.Sequential
import IcpHandler.Protocol.Meets

/-
  Operations that run alone, followed through the world. Where
  `Meets` knows a block by its moves, `Does` knows the world
  that each answer comes from.

  Main declarations:
    * `Svc.Does`
    * `Svc.does_bind`, `Svc.does_act`
    * `Svc.does_withLock`, `Svc.does_attempt`
    * `Svc.Does.of_meets`
    * `View`, `View.does_confined`
    * `View.does_act`, `View.does_after`
    * `View.does_locked`
-/

------------------------------------------------------------
-- Blocks that Run Alone
------------------------------------------------------------

namespace IcpHandler

namespace Model

open Concurrency

/- The service's world, with all that has happened. -/
abbrev Log := History Eff.Res World

namespace Svc

variable {α β : Type}
variable {rfc3339 : Rfc3339} {fits : Choice → Prop}
variable {thread : Nat} {h : Log}

/-
  From the history `h`, with choices that fit, the block lands
  in `Q` where it returns and in `X` where it stops early.
-/
def Does
    (rfc3339 : Rfc3339)
    (fits : Choice → Prop)
    (thread : Nat)
    (body : Svc α)
    (Q : α → Log → Prop)
    (X : Halt → Log → Prop)
    (h : Log) : Prop :=
  body.run.Ensures (machine rfc3339) fits thread
    (fun result later =>
      match result with
      | .ok value => Q value later
      | .error halt => X halt later)
    h

variable {Q : α → Log → Prop}
variable {X : Halt → Log → Prop}

@[simp] theorem does_pure
    {value : α} :
    (pure value : Svc α).Does rfc3339 fits thread Q X h ↔
      Q value h :=
  Iff.rfl

@[simp] theorem does_bind
    {body : Svc α}
    {next : α → Svc β}
    {Q : β → Log → Prop} :
    (body >>= next).Does rfc3339 fits thread Q X h ↔
      body.Does rfc3339 fits thread
        (fun value later =>
          (next value).Does rfc3339 fits thread Q X later)
        X h := by
  rw [Does, run_bind_eq, Prog.Ensures.bind_iff, Does]
  constructor
  · intro hEnsures
    refine hEnsures.mono fun result later hNext => ?_
    cases result with
    | ok value => exact hNext
    | error halt => exact hNext
  · intro hEnsures
    refine hEnsures.mono fun result later hNext => ?_
    cases result with
    | ok value => exact hNext
    | error halt => exact hNext

theorem does_act
    {effect : Eff}
    {Q : effect.Res → Log → Prop} :
    (act effect).Does rfc3339 fits thread Q X h ↔
      ∀ answer after,
        (machine rfc3339).Makes fits h
            ⟨thread, effect, answer, h.world, after⟩ →
          Q answer
            (h.push ⟨thread, effect, answer, h.world, after⟩) :=
  Iff.rfl

@[simp] theorem does_fail
    {error : ApiError} :
    (fail error : Svc α).Does rfc3339 fits thread Q X h ↔
      X (.error error) h :=
  Iff.rfl

@[simp] theorem does_panic
    {message : String} :
    (panic message : Svc α).Does rfc3339 fits thread Q X h ↔
      X (.panicked message) h :=
  Iff.rfl

@[simp] theorem does_ensure
    {check : Bool}
    {error : ApiError}
    {Q : Unit → Log → Prop} :
    (ensure check error).Does rfc3339 fits thread Q X h ↔
      (check = true → Q () h) ∧
        (check = false → X (.error error) h) := by
  cases check with
  | true => simp [ensure]
  | false => simp [ensure]

@[simp] theorem does_orFail
    {error : ApiError}
    {found : Option α} :
    (orFail error found).Does rfc3339 fits thread Q X h ↔
      (∀ value, found = some value → Q value h) ∧
        (found = none → X (.error error) h) := by
  cases found with
  | some value => simp [orFail]
  | none => simp [orFail]

@[simp] theorem does_orPanic
    {message : String}
    {found : Option α} :
    (orPanic message found).Does rfc3339 fits thread Q X h ↔
      (∀ value, found = some value → Q value h) ∧
        (found = none → X (.panicked message) h) := by
  cases found with
  | some value => simp [orPanic]
  | none => simp [orPanic]

@[simp] theorem does_ofExcept
    {ε : Type}
    {error : ε → ApiError}
    {result : Except ε α} :
    (ofExcept error result).Does rfc3339 fits thread Q X h ↔
      (∀ value, result = .ok value → Q value h) ∧
        ∀ e, result = .error e → X (.error (error e)) h := by
  cases result with
  | ok value => simp [ofExcept]
  | error e => simp [ofExcept]

theorem does_attempt
    {body : Svc α}
    {Q : Except ApiError α → Log → Prop} :
    (attempt body).Does rfc3339 fits thread Q X h ↔
      body.Does rfc3339 fits thread
        (fun value later => Q (.ok value) later)
        (fun halt later =>
          match halt with
          | .error e => Q (.error e) later
          | .panicked message => X (.panicked message) later)
        h := by
  rw [Does, attempt, ExceptT.run_mk, Prog.Ensures.bind_iff,
    Does]
  constructor
  · intro hEnsures
    refine hEnsures.mono fun result later hNext => ?_
    rcases result with (e | message) | value
    · exact hNext
    · exact hNext
    · exact hNext
  · intro hEnsures
    refine hEnsures.mono fun result later hNext => ?_
    rcases result with (e | message) | value
    · exact hNext
    · exact hNext
    · exact hNext

namespace Does

theorem mono
    {body : Svc α}
    {Q' : α → Log → Prop}
    {X' : Halt → Log → Prop}
    (hDoes : body.Does rfc3339 fits thread Q X h)
    (hValue : ∀ value later, Q value later → Q' value later)
    (hHalt : ∀ halt later, X halt later → X' halt later) :
    body.Does rfc3339 fits thread Q' X' h := by
  refine Prog.Ensures.mono hDoes fun result later hPost => ?_
  cases result with
  | ok value => exact hValue value later hPost
  | error halt => exact hHalt halt later hPost

/-
  A block of effects of one kind keeps what they keep. What is
  known of its moves, is known of moves that fit.
-/
theorem of_meets
    {kind : Eff → Prop}
    {body : Svc α}
    {Q : α → Moves → Prop}
    {X : Halt → Moves → Prop}
    (possible : Move Eff.Res → Prop)
    (inv : Log → Prop)
    (hMeets : body.Meets (fun _ effect => kind effect) Q X [])
    (hPossible :
      ∀ h o, (machine rfc3339).Makes fits h o →
        possible o.move)
    (hKeeps :
      ∀ h o, inv h → (machine rfc3339).Makes fits h o →
        kind o.effect → inv (h.push o))
    (hInv : inv h) :
    body.Does rfc3339 fits thread
      (fun value later =>
        inv later ∧
          ∃ moves, (∀ move ∈ moves, possible move) ∧
            Q value moves)
      (fun halt later =>
        inv later ∧
          ∃ moves, (∀ move ∈ moves, possible move) ∧
            X halt moves) h := by
  refine (Prog.Ensures.of_traced inv hMeets hPossible hKeeps
    (fun _ hMove => nomatch hMove) hInv).mono
      fun result later hPost => ?_
  cases result with
  | ok value => exact hPost
  | error halt => exact hPost

/-
  A block under a lock, for conditions that do not look at the
  locks.
-/
theorem withLock
    {key : String}
    {body : Svc α}
    (inv : Log → Prop)
    (hTake :
      ∀ o, (machine rfc3339).Makes fits h o →
        o.effect = .lock key → inv (h.push o))
    (hBody :
      ∀ later, inv later →
        body.Does rfc3339 fits thread Q X later)
    (hValue :
      ∀ value h o, Q value h →
        (machine rfc3339).Makes fits h o →
          o.effect = .unlock key → Q value (h.push o))
    (hHalt :
      ∀ halt h o, X halt h →
        (machine rfc3339).Makes fits h o →
          o.effect = .unlock key → X halt (h.push o)) :
    (withLock key body).Does rfc3339 fits thread Q X h := by
  intro answer after hMakes
  have hInv := hTake _ hMakes rfl
  refine (Prog.Ensures.bind_iff (p := body.run)).mpr ?_
  refine Prog.Ensures.mono (hBody _ hInv)
    fun result later hPost => ?_
  cases result with
  | ok value =>
      exact fun answer after hMakes =>
        hValue value later _ hPost hMakes rfl
  | error halt =>
      exact fun answer after hMakes =>
        hHalt halt later _ hPost hMakes rfl

end Does

end Svc

end Model

end IcpHandler

------------------------------------------------------------
-- Views
------------------------------------------------------------

namespace IcpHandler

namespace Model

open Concurrency

/- A part of the log that some effects leave alone. -/
structure View
    (rfc3339 : Rfc3339)
    (fits : Choice → Prop)
    (β : Type) where
  of : Log → β
  quiet : Eff → Prop
  keeps :
    ∀ {h : Log} {o : Occurrence Eff.Res World},
      (machine rfc3339).Makes fits h o → quiet o.effect →
        of (h.push o) = of h

namespace View

variable {α β γ : Type}
variable {rfc3339 : Rfc3339} {fits : Choice → Prop}
variable {thread : Nat} {h : Log} {before : β}
variable (view : View rfc3339 fits β)

/- A quiet block that stops in one way leaves the view alone. -/
theorem does_confined
    {body : Svc α}
    {stops : Halt → Prop}
    {Q : α → Log → Prop}
    {X : Halt → Log → Prop}
    (hView : view.of h = before)
    (hBody : Svc.Confined view.quiet stops body)
    (hValue :
      ∀ value later, view.of later = before → Q value later)
    (hHalt :
      ∀ halt later, stops halt → view.of later = before →
        X halt later) :
    body.Does rfc3339 fits thread Q X h := by
  refine (Svc.Does.of_meets (fun _ => True)
    (fun later => view.of later = before) (hBody [])
    (fun _ _ _ => trivial) ?_ hView).mono ?_ ?_
  · exact fun _ _ hInv hMakes hKind =>
      (view.keeps hMakes hKind).trans hInv
  · exact fun value later hPost => hValue value later hPost.1
  · rintro halt later ⟨hSame, moves, -, hStops⟩
    exact hHalt halt later hStops hSame

/- And so does one that stops in any way. -/
theorem does_keep
    {body : Svc α}
    {Q : α → Log → Prop}
    {X : Halt → Log → Prop}
    (hView : view.of h = before)
    (hOnly : Svc.Only view.quiet body)
    (hValue :
      ∀ value later, view.of later = before → Q value later)
    (hHalt :
      ∀ halt later, view.of later = before → X halt later) :
    body.Does rfc3339 fits thread Q X h := by
  have hBody : Svc.Confined view.quiet (fun _ => True) body :=
    hOnly
  exact view.does_confined hView hBody hValue
    fun halt later _ => hHalt halt later

/- A quiet effect always answers. -/
theorem does_act
    {effect : Eff}
    {Q : effect.Res → Log → Prop}
    {X : Halt → Log → Prop}
    (hView : view.of h = before)
    (hQuiet : view.quiet effect)
    (hNext :
      ∀ answer later, view.of later = before →
        Q answer later) :
    (Svc.act effect).Does rfc3339 fits thread Q X h := by
  rw [Svc.does_act]
  intro answer after hMakes
  exact hNext answer _ ((view.keeps hMakes hQuiet).trans hView)

/- And what follows it starts from the same view. -/
theorem does_after
    {body : Svc α}
    {next : α → Svc γ}
    {Q : γ → Log → Prop}
    {X : Halt → Log → Prop}
    (hView : view.of h = before)
    (hOnly : Svc.Only view.quiet body)
    (hHalt :
      ∀ halt later, view.of later = before → X halt later)
    (hNext :
      ∀ value later, view.of later = before →
        (next value).Does rfc3339 fits thread Q X later) :
    (body >>= next).Does rfc3339 fits thread Q X h := by
  rw [Svc.does_bind]
  exact view.does_keep hView hOnly hNext hHalt

/- A lock makes no difference to what is said of the view. -/
theorem does_locked
    {key : String}
    {body : Svc α}
    {Q : α → β → Prop}
    {X : Halt → β → Prop}
    (hLocks :
      view.quiet (.lock key) ∧ view.quiet (.unlock key))
    (hView : view.of h = before)
    (hBody :
      ∀ locked, view.of locked = before →
        body.Does rfc3339 fits thread
          (fun value later => Q value (view.of later))
          (fun halt later => X halt (view.of later)) locked) :
    (Svc.withLock key body).Does rfc3339 fits thread
      (fun value later => Q value (view.of later))
      (fun halt later => X halt (view.of later)) h := by
  have hUnlocked :
      ∀ later (o : Occurrence Eff.Res World),
        (machine rfc3339).Makes fits later o →
          o.effect = .unlock key →
            view.of (later.push o) = view.of later := by
    intro later o hMakes hEffect
    refine view.keeps hMakes ?_
    rw [hEffect]
    exact hLocks.2
  refine .withLock (fun locked => view.of locked = before) ?_
    hBody ?_ ?_
  · intro o hMakes hEffect
    refine (view.keeps hMakes ?_).trans hView
    rw [hEffect]
    exact hLocks.1
  · intro value later o hValue hMakes hEffect
    rw [hUnlocked later o hMakes hEffect]
    exact hValue
  · intro halt later o hHalt hMakes hEffect
    rw [hUnlocked later o hMakes hEffect]
    exact hHalt

end View

end Model

end IcpHandler
