/-
  When a chain of steps that may fail gives a value.

  Main declarations:
    * `bind_eq_ok`, `mapError_eq_ok`
-/

------------------------------------------------------------
-- Chains of Steps
------------------------------------------------------------

namespace IcpHandler

namespace Data

namespace Results

variable {ε δ α β : Type}

theorem bind_eq_ok
    {result : Except ε α}
    {next : α → Except ε β}
    {value : β} :
    result >>= next = .ok value ↔
      ∃ first, result = .ok first ∧ next first = .ok value := by
  cases result with
  | ok first =>
      constructor
      · intro hNext
        exact ⟨first, rfl, hNext⟩
      · rintro ⟨other, hOther, hNext⟩
        cases hOther
        exact hNext
  | error e =>
      constructor
      · intro hError
        cases hError
      · rintro ⟨other, hOther, -⟩
        cases hOther

theorem pure_eq_ok {value other : α} :
    (pure value : Except ε α) = .ok other ↔ value = other := by
  change Except.ok value = .ok other ↔ value = other
  rw [Except.ok.injEq]

theorem mapError_eq_ok
    {f : ε → δ}
    {result : Except ε α}
    {value : α} :
    result.mapError f = .ok value ↔ result = .ok value := by
  cases result with
  | ok other =>
      change Except.ok other = .ok value ↔ _
      rw [Except.ok.injEq, Except.ok.injEq]
  | error e =>
      constructor
      · intro hError
        cases hError
      · intro hError
        cases hError

theorem toOption_eq_some
    {result : Except ε α}
    {value : α} :
    result.toOption = some value ↔ result = .ok value := by
  cases result with
  | ok other =>
      change some other = some value ↔ _
      rw [Option.some.injEq, Except.ok.injEq]
  | error e =>
      constructor
      · intro hNone
        cases hNone
      · intro hError
        cases hError

end Results

end Data

end IcpHandler
