import Mathlib.Logic.Basic

/-
  Programs that act on a shared world only through atomic
  effects. A program is a tree: it either has returned, or it
  asks for one effect and continues with its result.

  Main declarations:
    * `Prog`
    * `Prog.perform`
    * `Prog.via`
-/

------------------------------------------------------------
-- Programs
------------------------------------------------------------

namespace IcpHandler

namespace Concurrency

/-
  A program over the effects `E`, where the effect `e` answers
  with a value of `Res e`.
-/
inductive Prog
    {E : Type}
    (Res : E → Type)
    (α : Type) : Type where
  | ret (value : α)
  | step (effect : E) (next : Res effect → Prog Res α)

namespace Prog

variable {E : Type} {Res : E → Type}
variable {α β : Type}

/- Sequential composition. -/
def bind :
    Prog Res α → (α → Prog Res β) → Prog Res β
  | .ret value, f => f value
  | .step effect next, f =>
      .step effect fun answer => (next answer).bind f

instance : Monad (Prog Res) where
  pure := .ret
  bind := bind

/- The program that performs one effect. -/
def perform (effect : E) : Prog Res (Res effect) :=
  .step effect .ret

/- The program that performs some effects in their order. -/
def performAll : List E → Prog Res Unit
  | [] => .ret ()
  | effect :: effects =>
      .step effect fun _ => performAll effects

@[simp] theorem pure_eq_ret (value : α) :
    (pure value : Prog Res α) = .ret value :=
  rfl

@[simp] theorem ret_bind
    (value : α)
    (f : α → Prog Res β) :
    (Prog.ret value : Prog Res α) >>= f = f value :=
  rfl

@[simp] theorem step_bind
    (effect : E)
    (next : Res effect → Prog Res α)
    (f : α → Prog Res β) :
    Prog.step effect next >>= f =
      .step effect fun answer => next answer >>= f :=
  rfl

/- Sequential composition is associative. -/
instance : LawfulMonad (Prog Res) :=
  LawfulMonad.mk' (Prog Res)
    (by
      intro α program
      induction program with
      | ret value => rfl
      | step effect next ih =>
          exact congrArg (Prog.step effect) (funext ih))
    (fun _ _ => rfl)
    (by
      intro α β γ program f g
      induction program with
      | ret value => rfl
      | step effect next ih =>
          exact congrArg (Prog.step effect) (funext ih))

/-
  A program over some effects as a program over more effects:
  every effect is performed in its new place, and what it
  answers there is read back.
-/
def via
    {E' : Type}
    {Res' : E' → Type}
    (place : E → E')
    (back : ∀ effect, Res' (place effect) → Res effect) :
    Prog Res α → Prog Res' α
  | .ret value => .ret value
  | .step effect next =>
      .step (place effect) fun answer =>
        (next (back effect answer)).via place back

end Prog

end Concurrency

end IcpHandler
