/-
  Two machines that take the same calls. A relation between
  their states that every allowed call keeps, and under which
  it comes to the same on both, makes them answer every run
  alike. What is allowed, and what is related, may depend on
  the log so far.

  Main declarations:
    * `transcript`
    * `Admits`
    * `Bisimulation`, `Bisimulation.transcript_eq`
-/

------------------------------------------------------------
-- Transcripts
------------------------------------------------------------

namespace IcpHandler

namespace Data

variable {S T C O : Type}

/- Calls one after another, each with what it came to. -/
def transcript
    (perform : S → C → O × S) : List C → S → List (C × O)
  | [], _ => []
  | call :: calls, state =>
      (call, (perform state call).1) ::
        transcript perform calls (perform state call).2

/- Every call of a log is allowed by what precedes it. -/
def Admits
    (Allowed : List (C × O) → C → Prop)
    (past log : List (C × O)) : Prop :=
  ∀ before entry after, log = before ++ entry :: after →
    Allowed (past ++ before) entry.1

variable {Allowed : List (C × O) → C → Prop}
variable {past log : List (C × O)}
variable {entry : C × O}

/- The first call is allowed by the past alone. -/
theorem Admits.head
    (hAdmits : Admits Allowed past (entry :: log)) :
    Allowed past entry.1 := by
  have hFirst : Allowed (past ++ []) entry.1 :=
    hAdmits [] entry log rfl
  rwa [List.append_nil] at hFirst

/- The other calls have the first one in their past. -/
theorem Admits.tail
    (hAdmits : Admits Allowed past (entry :: log)) :
    Admits Allowed (past ++ [entry]) log := by
  intro before other after hLog
  have hOther : Allowed (past ++ entry :: before) other.1 :=
    hAdmits (entry :: before) other after (by rw [hLog]; rfl)
  rwa [List.append_assoc, List.singleton_append]

/- A log is admitted call by call. -/
theorem Admits.cons
    (hFirst : Allowed past entry.1)
    (hRest : Admits Allowed (past ++ [entry]) log) :
    Admits Allowed past (entry :: log) := by
  intro before other after hLog
  cases before with
  | nil =>
      cases hLog
      rwa [List.append_nil]
  | cons first before =>
      cases hLog
      have hOther := hRest before other after rfl
      rwa [List.append_assoc, List.singleton_append] at hOther

theorem admits_nil : Admits Allowed past [] := by
  intro before other after hLog
  cases before with
  | nil => cases hLog
  | cons first before => cases hLog

/- A condition on the calls alone admits what satisfies it. -/
theorem admits_of_forall
    {Holds : C → Prop}
    (hLog : ∀ entry ∈ log, Holds entry.1) :
    Admits (fun _ call => Holds call) past log := by
  intro before entry after hSplit
  refine hLog entry ?_
  rw [hSplit]
  exact List.mem_append_right _ List.mem_cons_self

/- The calls of a transcript are the calls that were made. -/
theorem transcript_calls
    (perform : S → C → O × S)
    (calls : List C)
    (state : S) :
    (transcript perform calls state).map Prod.fst = calls := by
  induction calls generalizing state with
  | nil => rfl
  | cons call calls ih =>
      rw [transcript, List.map_cons, ih]

end Data

end IcpHandler

------------------------------------------------------------
-- Bisimulations
------------------------------------------------------------

namespace IcpHandler

namespace Data

variable {S T C O : Type}

/-
  The relation holds after every allowed call if it held
  before, and the call comes to the same on both sides.
-/
structure Bisimulation
    (left : S → C → O × S)
    (right : T → C → O × T)
    (Allowed : List (C × O) → C → Prop)
    (Related : List (C × O) → S → T → Prop) : Prop where
  outcome :
    ∀ past state other call,
      Related past state other → Allowed past call →
        (left state call).1 = (right other call).1
  step :
    ∀ past state other call,
      Related past state other → Allowed past call →
        Related (past ++ [(call, (left state call).1)])
          (left state call).2 (right other call).2

variable {left : S → C → O × S}
variable {right : T → C → O × T}
variable {Allowed : List (C × O) → C → Prop}
variable {Related : List (C × O) → S → T → Prop}

/-
  Related states answer every run alike whose calls are
  allowed on the left. By induction on the calls.
-/
theorem Bisimulation.transcript_eq
    (hBisim : Bisimulation left right Allowed Related)
    {past : List (C × O)}
    {state : S}
    {other : T}
    {calls : List C}
    (hRelated : Related past state other)
    (hAdmits :
      Admits Allowed past (transcript left calls state)) :
    transcript left calls state =
      transcript right calls other := by
  induction calls generalizing past state other with
  | nil => rfl
  | cons call calls ih =>
      have hAllowed : Allowed past call := hAdmits.head
      have hOutcome :
          (left state call).1 = (right other call).1 :=
        hBisim.outcome past state other call hRelated hAllowed
      have hRest :
          transcript left calls (left state call).2 =
            transcript right calls (right other call).2 :=
        ih (hBisim.step past state other call hRelated hAllowed)
          hAdmits.tail
      rw [transcript, transcript, hOutcome, hRest]

end Data

end IcpHandler
