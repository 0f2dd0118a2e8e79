import IcpHandler.Concurrency.Trace

/-
  Programs that may stop early with an error, how to trace
  them, and what they come to when all answers are known
  beforehand.

  Main declarations:
    * `Prog.onTable`
    * `Fallible`
    * `Fallible.Meets`, `Fallible.meets_bind`
    * `Fallible.outcome`, `Fallible.outcome_bind_ok`
-/

------------------------------------------------------------
-- Answers from a Table
------------------------------------------------------------

namespace IcpHandler

namespace Concurrency

namespace Prog

variable {E : Type} {Res : E → Type}
variable {α β : Type}

/- What a program returns when its answers are looked up. -/
def onTable
    (answers : ∀ effect, Res effect) : Prog Res α → α
  | .ret value => value
  | .step effect next =>
      (next (answers effect)).onTable answers

theorem onTable_bind
    (answers : ∀ effect, Res effect)
    (p : Prog Res α)
    (f : α → Prog Res β) :
    (p >>= f).onTable answers =
      (f (p.onTable answers)).onTable answers := by
  induction p with
  | ret value => rfl
  | step effect next ih => exact ih (answers effect)

end Prog

end Concurrency

end IcpHandler

------------------------------------------------------------
-- Programs that May Stop
------------------------------------------------------------

namespace IcpHandler

namespace Concurrency

/- A program that returns a value or stops with an error. -/
abbrev Fallible
    {E : Type}
    (Res : E → Type)
    (ε α : Type) : Type :=
  ExceptT ε (Prog Res) α

namespace Fallible

variable {E : Type} {Res : E → Type}
variable {ε δ α β : Type}

/- Perform one effect. -/
def act (effect : E) : Fallible Res ε (Res effect) :=
  ExceptT.lift (Prog.perform effect)

def fail (error : ε) : Fallible Res ε α :=
  ExceptT.mk (pure (.error error))

/- Go on with a value, or stop with the error. -/
def ofExcept : Except ε α → Fallible Res ε α
  | .ok value => pure value
  | .error error => fail error

/- Stop unless the check holds. -/
def ensure (check : Bool) (error : ε) : Fallible Res ε Unit :=
  if check then pure () else fail error

/- Stop if there is no value. -/
def orFail (error : ε) : Option α → Fallible Res ε α
  | some value => pure value
  | none => fail error

/- The same program, with its errors told differently. -/
def mapError
    (f : ε → δ)
    (body : Fallible Res ε α) : Fallible Res δ α :=
  ExceptT.mk do
    let result ← body.run
    pure (result.mapError f)

section Tracing

variable {rule : Trace Res → E → Prop}
variable {past : Trace Res}

/-
  After the moves `past`, the program only performs effects
  that the rule allows; it lands in `Q` where it returns and in
  `X` where it stops early.
-/
def Meets
    (rule : Trace Res → E → Prop)
    (body : Fallible Res ε α)
    (Q : α → Trace Res → Prop)
    (X : ε → Trace Res → Prop)
    (past : Trace Res) : Prop :=
  body.run.Traced rule
    (fun result later =>
      match result with
      | .ok value => Q value later
      | .error error => X error later)
    past

variable {Q : α → Trace Res → Prop}
variable {X : ε → Trace Res → Prop}

/- A program goes on where the one before it has returned. -/
theorem run_bind_eq
    (body : Fallible Res ε α)
    (next : α → Fallible Res ε β) :
    (body >>= next).run =
      body.run >>= fun result =>
        match result with
        | .ok value => (next value).run
        | .error error => pure (.error error) := by
  rw [ExceptT.run_bind]
  refine bind_congr fun result => ?_
  cases result with
  | ok value => rfl
  | error error => rfl

theorem Meets.mono
    {body : Fallible Res ε α}
    {Q' : α → Trace Res → Prop}
    {X' : ε → Trace Res → Prop}
    (hMeets : Meets rule body Q X past)
    (hQ : ∀ value later, Q value later → Q' value later)
    (hX : ∀ error later, X error later → X' error later) :
    Meets rule body Q' X' past := by
  apply Prog.Traced.mono hMeets
  intro result later hPost
  cases result with
  | ok value => exact hQ value later hPost
  | error error => exact hX error later hPost

@[simp] theorem meets_pure
    {value : α} :
    Meets rule (pure value) Q X past ↔ Q value past :=
  Iff.rfl

@[simp] theorem meets_bind
    {body : Fallible Res ε α}
    {next : α → Fallible Res ε β}
    {Q : β → Trace Res → Prop} :
    Meets rule (body >>= next) Q X past ↔
      Meets rule body
        (fun value later => Meets rule (next value) Q X later)
        X past := by
  rw [Meets, run_bind_eq, Prog.Traced.bind_iff, Meets]
  constructor
  · intro hTraced
    apply hTraced.mono
    intro result later hNext
    cases result with
    | ok value => exact hNext
    | error error => exact hNext
  · intro hTraced
    apply hTraced.mono
    intro result later hNext
    cases result with
    | ok value => exact hNext
    | error error => exact hNext

@[simp] theorem meets_act
    {effect : E}
    {Q : Res effect → Trace Res → Prop} :
    Meets rule (act effect) Q X past ↔
      rule past effect ∧
        ∀ answer, Q answer (⟨effect, answer⟩ :: past) :=
  Iff.rfl

@[simp] theorem meets_fail
    {error : ε} :
    Meets rule (fail error) Q X past ↔ X error past :=
  Iff.rfl

@[simp] theorem meets_ofExcept
    {result : Except ε α} :
    Meets rule (ofExcept result) Q X past ↔
      (∀ value, result = .ok value → Q value past) ∧
        ∀ error, result = .error error → X error past := by
  cases result with
  | ok value => simp [ofExcept]
  | error error => simp [ofExcept]

@[simp] theorem meets_ensure
    {check : Bool}
    {error : ε}
    {Q : Unit → Trace Res → Prop} :
    Meets rule (ensure check error) Q X past ↔
      (check = true → Q () past) ∧
        (check = false → X error past) := by
  cases check with
  | true => simp [ensure]
  | false => simp [ensure]

@[simp] theorem meets_orFail
    {error : ε}
    {found : Option α} :
    Meets rule (orFail error found) Q X past ↔
      (∀ value, found = some value → Q value past) ∧
        (found = none → X error past) := by
  cases found with
  | some value => simp [orFail]
  | none => simp [orFail]

@[simp] theorem meets_mapError
    {f : ε → δ}
    {body : Fallible Res ε α}
    {X : δ → Trace Res → Prop} :
    Meets rule (mapError f body) Q X past ↔
      Meets rule body Q (fun error => X (f error)) past := by
  unfold Meets mapError
  rw [ExceptT.run_mk, Prog.Traced.bind_iff]
  constructor
  · intro hTraced
    apply hTraced.mono
    intro result later hPost
    cases result with
    | ok value => exact hPost
    | error error => exact hPost
  · intro hTraced
    apply hTraced.mono
    intro result later hPost
    cases result with
    | ok value => exact hPost
    | error error => exact hPost

end Tracing

section Outcomes

variable {answers : ∀ effect, Res effect}

/- What a program comes to when its answers are known. -/
def outcome
    (answers : ∀ effect, Res effect)
    (body : Fallible Res ε α) : Except ε α :=
  body.run.onTable answers

@[simp] theorem outcome_pure_ok {value other : α} :
    outcome answers (pure value : Fallible Res ε α) =
        .ok other ↔
      value = other := by
  change Except.ok value = .ok other ↔ _
  rw [Except.ok.injEq]

@[simp] theorem outcome_bind_ok
    {body : Fallible Res ε α}
    {next : α → Fallible Res ε β}
    {value : β} :
    outcome answers (body >>= next) = .ok value ↔
      ∃ first, outcome answers body = .ok first ∧
        outcome answers (next first) = .ok value := by
  unfold outcome
  rw [run_bind_eq, Prog.onTable_bind]
  cases body.run.onTable answers with
  | ok first => simp
  | error error =>
      constructor
      · intro hError
        cases hError
      · rintro ⟨first, hError, -⟩
        cases hError

@[simp] theorem outcome_act_ok
    {effect : E}
    {answer : Res effect} :
    outcome answers (act effect : Fallible Res ε _) =
        .ok answer ↔
      answers effect = answer := by
  change Except.ok (answers effect) = .ok answer ↔ _
  rw [Except.ok.injEq]

@[simp] theorem outcome_fail_ok
    {error : ε}
    {value : α} :
    ¬ outcome answers (fail error : Fallible Res ε α) =
      .ok value := by
  intro hOk
  cases hOk

@[simp] theorem outcome_ofExcept_ok
    {result : Except ε α}
    {value : α} :
    outcome answers (ofExcept result) = .ok value ↔
      result = .ok value := by
  cases result with
  | ok other => exact Iff.rfl
  | error error => exact Iff.rfl

@[simp] theorem outcome_ensure_ok
    {check : Bool}
    {error : ε}
    {value : Unit} :
    outcome answers (ensure check error) = .ok value ↔
      check = true := by
  unfold ensure
  cases check with
  | true => simp
  | false => simp

@[simp] theorem outcome_orFail_ok
    {error : ε}
    {found : Option α}
    {value : α} :
    outcome answers (orFail error found) = .ok value ↔
      found = some value := by
  unfold orFail
  cases found with
  | some other => simp
  | none => simp

@[simp] theorem outcome_mapError_ok
    {f : ε → δ}
    {body : Fallible Res ε α}
    {value : α} :
    outcome answers (mapError f body) = .ok value ↔
      outcome answers body = .ok value := by
  unfold outcome mapError
  rw [ExceptT.run_mk, Prog.onTable_bind]
  change (body.run.onTable answers).mapError f = _ ↔ _
  cases body.run.onTable answers with
  | ok other =>
      change Except.ok other = .ok value ↔ _
      rw [Except.ok.injEq, Except.ok.injEq]
  | error error =>
      constructor
      · intro hError
        cases hError
      · intro hError
        cases hError

end Outcomes

end Fallible

end Concurrency

end IcpHandler
