import IcpHandler.Concurrency.Machine

/-
  What a program does, told from its own moves. A rule says
  which effect a thread may perform after which moves of its
  own; a program that follows its rule does so under every
  interleaving, so a property of the shared world only needs
  to look at one lawful occurrence at a time.

  Main declarations:
    * `Move`, `Trace`, `own`
    * `Prog.Traced`, `Prog.Yields`
    * `Lawful`
    * `Pool.run_lawful`
    * `Prog.eval_lawful`
    * `Lawful.induct`, `Lawful.mono`, `Lawful.cut`
    * `Lawful.onward`, `Lawful.since`, `UnbrokenSince.cut`
-/

------------------------------------------------------------
-- Traces
------------------------------------------------------------

namespace IcpHandler

namespace Concurrency

/- An effect with its answer. -/
structure Move
    {E : Type}
    (Res : E → Type) where
  effect : E
  answer : Res effect

/- The moves of one thread, most recent first. -/
abbrev Trace
    {E : Type}
    (Res : E → Type) :=
  List (Move Res)

section Own

variable {E : Type} {Res : E → Type} {W : Type}

/- What the thread itself sees of an occurrence. -/
def Occurrence.move (o : Occurrence Res W) : Move Res :=
  ⟨o.effect, o.answer⟩

/- The moves of a thread in a past. -/
def own
    (thread : Nat)
    (past : List (Occurrence Res W)) : Trace Res :=
  (past.filter (·.thread == thread)).map Occurrence.move

@[simp] theorem own_nil (thread : Nat) :
    own thread ([] : List (Occurrence Res W)) = [] :=
  rfl

theorem own_cons
    (thread : Nat)
    (o : Occurrence Res W)
    (past : List (Occurrence Res W)) :
    own thread (o :: past) =
      if o.thread = thread then o.move :: own thread past
      else own thread past := by
  by_cases hThread : o.thread = thread
  · simp [own, hThread]
  · simp [own, hThread]

theorem own_cons_self
    (o : Occurrence Res W)
    (past : List (Occurrence Res W)) :
    own o.thread (o :: past) =
      o.move :: own o.thread past := by
  rw [own_cons, if_pos rfl]

theorem own_cons_other
    {thread : Nat}
    {o : Occurrence Res W}
    (hOther : o.thread ≠ thread)
    (past : List (Occurrence Res W)) :
    own thread (o :: past) = own thread past := by
  rw [own_cons, if_neg hOther]

/- A thread that has not moved has no moves of its own. -/
theorem own_eq_nil
    {thread : Nat}
    {past : List (Occurrence Res W)}
    (hNone : ∀ o ∈ past, o.thread ≠ thread) :
    own thread past = [] := by
  unfold own
  rw [List.map_eq_nil_iff, List.filter_eq_nil_iff]
  intro o hMem hThread
  exact hNone o hMem (beq_iff_eq.mp hThread)

/- A thread's moves are its occurrences in the past. -/
theorem mem_own_iff
    {thread : Nat}
    {past : List (Occurrence Res W)}
    {move : Move Res} :
    move ∈ own thread past ↔
      ∃ o ∈ past, o.thread = thread ∧ o.move = move := by
  simp only [own, List.mem_map, List.mem_filter,
    beq_iff_eq, and_assoc]

theorem own_append
    (thread : Nat)
    (recent older : List (Occurrence Res W)) :
    own thread (recent ++ older) =
      own thread recent ++ own thread older := by
  simp [own]

/- A thread's own moves are cut where the past is cut. -/
theorem own_split
    {thread : Nat}
    {past : List (Occurrence Res W)}
    {recent older : Trace Res}
    {move : Move Res}
    (hOwn : own thread past = recent ++ move :: older) :
    ∃ later o earlier,
      past = later ++ o :: earlier ∧
      o.thread = thread ∧ o.move = move ∧
      own thread later = recent ∧
      own thread earlier = older := by
  induction past generalizing recent with
  | nil =>
      rw [own_nil] at hOwn
      cases recent with
      | nil => cases hOwn
      | cons first recent => cases hOwn
  | cons o past ih =>
      rw [own_cons] at hOwn
      split at hOwn
      · rename_i hThread
        cases recent with
        | nil =>
            rw [List.nil_append] at hOwn
            rcases List.cons.inj hOwn with ⟨hMove, hOlder⟩
            exact ⟨[], o, past, rfl, hThread, hMove, rfl,
              hOlder⟩
        | cons first recent =>
            rw [List.cons_append] at hOwn
            rcases List.cons.inj hOwn with ⟨hFirst, hRest⟩
            rcases ih hRest with
              ⟨later, p, earlier, hPast, hP, hMove, hLater,
                hEarlier⟩
            refine ⟨o :: later, p, earlier, ?_, hP, hMove, ?_,
              hEarlier⟩
            · rw [hPast, List.cons_append]
            · rw [own_cons, if_pos hThread, hFirst, hLater]
      · rename_i hThread
        rcases ih hOwn with
          ⟨later, p, earlier, hPast, hP, hMove, hLater,
            hEarlier⟩
        refine ⟨o :: later, p, earlier, ?_, hP, hMove, ?_,
          hEarlier⟩
        · rw [hPast, List.cons_append]
        · rw [own_cons, if_neg hThread, hLater]

end Own

end Concurrency

end IcpHandler

------------------------------------------------------------
-- Programs that Follow a Rule
------------------------------------------------------------

namespace IcpHandler

namespace Concurrency

namespace Prog

variable {E : Type} {Res : E → Type}
variable {α β : Type}

/-
  Whatever the answers: after the moves `past`, the program
  only performs effects the rule allows at that point, and
  where it returns, `Q` holds of the value and the moves.
-/
def Traced
    (rule : Trace Res → E → Prop) :
    Prog Res α → (α → Trace Res → Prop) → Trace Res → Prop
  | .ret value, Q, past => Q value past
  | .step effect next, Q, past =>
      rule past effect ∧
        ∀ answer, (next answer).Traced rule Q
          (⟨effect, answer⟩ :: past)

/-
  The moves, oldest first, are a whole run of the program, and
  the value is what it returns.
-/
inductive Yields :
    Prog Res α → List (Move Res) → α → Prop where
  | ret (value : α) : Yields (.ret value) [] value
  | step
      {effect : E}
      {next : Res effect → Prog Res α}
      {answer : Res effect}
      {moves : List (Move Res)}
      {value : α}
      (hNext : Yields (next answer) moves value) :
      Yields (.step effect next) (⟨effect, answer⟩ :: moves)
        value

namespace Traced

variable {rule rule' : Trace Res → E → Prop}

theorem bind_iff
    {p : Prog Res α}
    {f : α → Prog Res β}
    {Q : β → Trace Res → Prop}
    {past : Trace Res} :
    (p >>= f).Traced rule Q past ↔
      p.Traced rule
        (fun value later => (f value).Traced rule Q later)
        past := by
  induction p generalizing past with
  | ret value => exact Iff.rfl
  | step effect next ih =>
      exact and_congr_right fun _ =>
        forall_congr' fun answer => ih answer

theorem mono
    {p : Prog Res α}
    {Q Q' : α → Trace Res → Prop}
    {past : Trace Res}
    (hTraced : p.Traced rule Q past)
    (hImp : ∀ value later, Q value later → Q' value later) :
    p.Traced rule Q' past := by
  induction p generalizing past with
  | ret value => exact hImp value past hTraced
  | step effect next ih =>
      exact ⟨hTraced.1, fun answer =>
        ih answer (hTraced.2 answer)⟩

/- Under a rule that allows everything anything goes. -/
theorem of_forall
    {Q : α → Trace Res → Prop}
    (hRule : ∀ moves effect, rule moves effect)
    (hPost : ∀ value later, Q value later)
    (p : Prog Res α)
    (past : Trace Res) :
    p.Traced rule Q past := by
  induction p generalizing past with
  | ret value => exact hPost value past
  | step effect next ih =>
      exact ⟨hRule past effect, fun answer => ih answer _⟩

/-
  A program that only performs effects of one kind extends the
  moves by moves of that kind, under every rule that allows
  them.
-/
theorem of_kind
    {kind : E → Prop}
    {p : Prog Res α}
    {Q : α → Trace Res → Prop}
    {past : Trace Res}
    (hKind : p.Traced (fun _ effect => kind effect) Q past)
    (hRule :
      ∀ moves effect, kind effect → rule moves effect) :
    p.Traced rule
      (fun value later => Q value later ∧
        ∃ recent, later = recent ++ past ∧
          ∀ move ∈ recent, kind move.effect) past := by
  suffices hAll :
      ∀ start, (∃ recent, past = recent ++ start ∧
          ∀ move ∈ recent, kind move.effect) →
        p.Traced rule
          (fun value later => Q value later ∧
            ∃ recent, later = recent ++ start ∧
              ∀ move ∈ recent, kind move.effect) past from
    hAll past ⟨[], rfl, by simp⟩
  intro start hStart
  induction p generalizing past with
  | ret value => exact ⟨hKind, hStart⟩
  | step effect next ih =>
      refine ⟨hRule past effect hKind.1, fun answer =>
        ih answer (hKind.2 answer) ?_⟩
      rcases hStart with ⟨recent, rfl, hRecent⟩
      refine ⟨⟨effect, answer⟩ :: recent, rfl, ?_⟩
      intro move hMove
      rcases List.mem_cons.mp hMove with rfl | hMove
      · exact hKind.1
      · exact hRecent move hMove

/- A program that follows two rules follows both at once. -/
theorem and
    {p : Prog Res α}
    {Q Q' : α → Trace Res → Prop}
    {past : Trace Res}
    (hTraced : p.Traced rule Q past)
    (hTraced' : p.Traced rule' Q' past) :
    p.Traced
      (fun moves effect =>
        rule moves effect ∧ rule' moves effect)
      (fun value later => Q value later ∧ Q' value later)
      past := by
  induction p generalizing past with
  | ret value => exact ⟨hTraced, hTraced'⟩
  | step effect next ih =>
      exact ⟨⟨hTraced.1, hTraced'.1⟩, fun answer =>
        ih answer (hTraced.2 answer) (hTraced'.2 answer)⟩

/-
  A program that only performs effects of one kind follows a
  rule that allows them while something holds that they keep.
-/
theorem of_kind_keeping
    {kind : E → Prop}
    (inv : Trace Res → Prop)
    {p : Prog Res α}
    {Q : α → Trace Res → Prop}
    {past : Trace Res}
    (hKind : p.Traced (fun _ effect => kind effect) Q past)
    (hRule :
      ∀ moves effect, inv moves → kind effect →
        rule moves effect)
    (hKeeps :
      ∀ moves move, inv moves → kind move.effect →
        inv (move :: moves))
    (hInv : inv past) :
    p.Traced rule
      (fun value later => Q value later ∧ inv later) past := by
  induction p generalizing past with
  | ret value => exact ⟨hKind, hInv⟩
  | step effect next ih =>
      exact ⟨hRule past effect hInv hKind.1, fun answer =>
        ih answer (hKind.2 answer)
          (hKeeps past ⟨effect, answer⟩ hInv hKind.1)⟩

/- A program adds to the moves there are. -/
theorem appends
    (p : Prog Res α)
    (past : Trace Res) :
    p.Traced (fun _ _ => True)
      (fun _ later => ∃ recent, later = recent ++ past)
      past := by
  have hAny :
      p.Traced (fun _ _ => True) (fun _ _ => True) past :=
    of_forall (fun _ _ => trivial) (fun _ _ => trivial) p past
  refine (of_kind hAny fun _ _ _ => trivial).mono ?_
  rintro value later ⟨-, recent, hLater, -⟩
  exact ⟨recent, hLater⟩

/- A program that follows a rule follows every weaker one. -/
theorem weaken
    {p : Prog Res α}
    {Q : α → Trace Res → Prop}
    {past : Trace Res}
    (hTraced : p.Traced rule Q past)
    (hRule :
      ∀ moves effect, rule moves effect → rule' moves effect) :
    p.Traced rule' Q past := by
  induction p generalizing past with
  | ret value => exact hTraced
  | step effect next ih =>
      exact ⟨hRule past effect hTraced.1, fun answer =>
        ih answer (hTraced.2 answer)⟩

/-
  A program put in a larger place moves by effects of that
  place only, and ends as it would have ended before.
-/
theorem via
    {E' : Type}
    {Res' : E' → Type}
    {place : E → E'}
    {back : ∀ effect, Res' (place effect) → Res effect}
    {rule' : Trace Res' → E' → Prop}
    {p : Prog Res α}
    {P : α → Prop}
    {before : Trace Res}
    {past : Trace Res'}
    (hTraced : p.Traced rule (fun value _ => P value) before)
    (hRule : ∀ moves effect, rule' moves (place effect)) :
    (p.via place back).Traced rule'
      (fun value later => P value ∧
        ∃ recent, later = recent ++ past ∧
          ∀ move ∈ recent, ∃ effect,
            move.effect = place effect) past := by
  suffices hAll :
      ∀ start, (∃ recent, past = recent ++ start ∧
          ∀ move ∈ recent, ∃ effect,
            move.effect = place effect) →
        (p.via place back).Traced rule'
          (fun value later => P value ∧
            ∃ recent, later = recent ++ start ∧
              ∀ move ∈ recent, ∃ effect,
                move.effect = place effect) past from
    hAll past ⟨[], rfl, by simp⟩
  intro start hStart
  induction p generalizing before past with
  | ret value => exact ⟨hTraced, hStart⟩
  | step effect next ih =>
      refine ⟨hRule past effect, fun answer =>
        ih (back effect answer)
          (hTraced.2 (back effect answer)) ?_⟩
      rcases hStart with ⟨recent, rfl, hRecent⟩
      refine ⟨⟨place effect, answer⟩ :: recent, rfl, ?_⟩
      intro move hMove
      rcases List.mem_cons.mp hMove with rfl | hMove
      · exact ⟨effect, rfl⟩
      · exact hRecent move hMove

/-
  A program put in a larger place makes there the moves of a
  run of its own.
-/
theorem via_yields
    {E' : Type}
    {Res' : E' → Type}
    {place : E → E'}
    {back : ∀ effect, Res' (place effect) → Res effect}
    {lift : Move Res → Move Res'}
    (hLift :
      ∀ effect answer,
        lift ⟨effect, back effect answer⟩ =
          ⟨place effect, answer⟩)
    {rule' : Trace Res' → E' → Prop}
    (hRule : ∀ moves effect, rule' moves (place effect))
    (p : Prog Res α)
    (past : Trace Res') :
    (p.via place back).Traced rule'
      (fun value later => ∃ moves, p.Yields moves value ∧
        later = (moves.map lift).reverse ++ past) past := by
  induction p generalizing past with
  | ret value => exact ⟨[], .ret value, rfl⟩
  | step effect next ih =>
      refine ⟨hRule past effect, fun answer => ?_⟩
      refine (ih (back effect answer)
        (⟨place effect, answer⟩ :: past)).mono ?_
      rintro value later ⟨moves, hYields, rfl⟩
      refine ⟨⟨effect, back effect answer⟩ :: moves,
        .step hYields, ?_⟩
      rw [List.map_cons, List.reverse_cons, hLift,
        List.append_assoc, List.singleton_append]

end Traced

/- A whole run ends where the program is traced to end. -/
theorem Yields.post
    {rule : Trace Res → E → Prop}
    {Q : α → Trace Res → Prop}
    {p : Prog Res α}
    {moves : List (Move Res)}
    {value : α}
    {past : Trace Res}
    (hYields : p.Yields moves value)
    (hTraced : p.Traced rule Q past) :
    Q value (moves.reverse ++ past) := by
  induction hYields generalizing past with
  | ret value => exact hTraced
  | @step effect next answer moves value hNext ih =>
      rw [List.reverse_cons, List.append_assoc,
        List.singleton_append]
      exact ih (hTraced.2 answer)

/- A program runs to its end on every table of answers. -/
theorem exists_yields
    (answers : ∀ effect, Res effect)
    (p : Prog Res α) :
    ∃ moves value, p.Yields moves value ∧
      ∀ move ∈ moves, move.answer = answers move.effect := by
  induction p with
  | ret value =>
      exact ⟨[], value, .ret value,
        fun _ hMem => absurd hMem List.not_mem_nil⟩
  | step effect next ih =>
      obtain ⟨moves, value, hYields, hAnswers⟩ :=
        ih (answers effect)
      refine ⟨⟨effect, answers effect⟩ :: moves, value,
        .step hYields, ?_⟩
      exact List.forall_mem_cons.mpr ⟨rfl, hAnswers⟩

end Prog

end Concurrency

end IcpHandler

------------------------------------------------------------
-- Lawful Histories
------------------------------------------------------------

namespace IcpHandler

namespace Concurrency

variable {E : Type} {Res : E → Type} {W C α : Type}

/-
  The histories that come about when every occurrence is one
  the machine allows and the rule of its thread allows after
  the thread's own moves.
-/
inductive Lawful
    (m : Machine Res W C)
    (rule : Nat → Trace Res → E → Prop)
    (w : W) : History Res W → Prop where
  | start : Lawful m rule w (.start w)
  | push
      {h : History Res W}
      {o : Occurrence Res W}
      (hBefore : Lawful m rule w h)
      (hAllows : m.Allows h o)
      (hRule : rule o.thread (own o.thread h.past) o.effect) :
      Lawful m rule w (h.push o)

variable {m : Machine Res W C}
variable {rule : Nat → Trace Res → E → Prop}
variable {w : W}

/-
  What holds at the start, and is kept by every lawful
  occurrence that meets the condition, holds of every lawful
  history that conforms to it.
-/
theorem Lawful.induct
    {cond :
      List (Occurrence Res W) → Occurrence Res W → Prop}
    {Inv : History Res W → Prop}
    {h : History Res W}
    (hLawful : Lawful m rule w h)
    (hCond : Conforms cond h.past)
    (hStart : Inv (.start w))
    (hStep :
      ∀ h o, Lawful m rule w h → Inv h →
        m.Allows h o →
        rule o.thread (own o.thread h.past) o.effect →
        cond h.past o → Inv (h.push o)) :
    Inv h := by
  induction hLawful with
  | start => exact hStart
  | push hBefore hAllows hRule ih =>
      exact hStep _ _ hBefore (ih hCond.2) hAllows hRule
        hCond.1

/- A weaker rule allows the same histories. -/
theorem Lawful.mono
    {rule' : Nat → Trace Res → E → Prop}
    {h : History Res W}
    (hLawful : Lawful m rule w h)
    (hRule :
      ∀ thread moves effect, rule thread moves effect →
        rule' thread moves effect) :
    Lawful m rule' w h := by
  induction hLawful with
  | start => exact .start
  | push hBefore hAllows hAllowed ih =>
      exact .push ih hAllows (hRule _ _ _ hAllowed)

/-
  What holds of the history when an occurrence has happened,
  goes on to hold until something breaks it. By induction on
  what has happened since.
-/
theorem Lawful.onward
    {P : History Res W → Prop}
    (breaks : Occurrence Res W → Bool)
    {h : History Res W}
    (hLawful : Lawful m rule w h)
    {recent older : List (Occurrence Res W)}
    {first : Occurrence Res W}
    (hPast : h.past = recent ++ first :: older)
    (hFirst :
      ∀ h, Lawful m rule w h → m.Allows h first →
        rule first.thread (own first.thread h.past)
          first.effect →
        P (h.push first))
    (hKeeps :
      ∀ h o, Lawful m rule w h → m.Allows h o →
        rule o.thread (own o.thread h.past) o.effect →
        P h → breaks o = false → P (h.push o))
    (hNone : ∀ o ∈ recent, breaks o = false) :
    P h := by
  induction hLawful generalizing recent with
  | start =>
      rw [History.start_past] at hPast
      cases recent with
      | nil => cases hPast
      | cons move recent => cases hPast
  | @push h o hBefore hAllows hRule ih =>
      rw [History.push_past] at hPast
      cases recent with
      | nil =>
          rcases List.cons.inj hPast with ⟨rfl, rfl⟩
          exact hFirst h hBefore hAllows hRule
      | cons last recent =>
          rcases List.cons.inj hPast with ⟨rfl, hOlder⟩
          refine hKeeps h o hBefore hAllows hRule ?_
            (hNone o List.mem_cons_self)
          exact ih hOlder fun other hOther =>
            hNone other (List.mem_cons_of_mem _ hOther)

/- The same for what an occurrence has left in the world. -/
theorem Lawful.since
    {P : W → Prop}
    (breaks : Occurrence Res W → Bool)
    {h : History Res W}
    (hLawful : Lawful m rule w h)
    {recent older : List (Occurrence Res W)}
    {first : Occurrence Res W}
    (hPast : h.past = recent ++ first :: older)
    (hFirst : P first.after)
    (hKeeps :
      ∀ h o, Lawful m rule w h → m.Allows h o →
        rule o.thread (own o.thread h.past) o.effect →
        P h.world → breaks o = false → P o.after)
    (hNone : ∀ o ∈ recent, breaks o = false) :
    P h.world :=
  hLawful.onward (P := fun h => P h.world) breaks hPast
    (fun _ _ _ _ => hFirst) hKeeps hNone

/-
  Whatever broke it, the thread has not listed anything
  before that.
-/
def UnbrokenSince
    (breaks : Occurrence Res W → Bool)
    (lists : E → Bool)
    (thread : Nat)
    (past : List (Occurrence Res W)) : Prop :=
  Conforms
    (fun older other =>
      breaks other = true →
        ∀ listing ∈ older, listing.thread = thread →
          lists listing.effect = false)
    past

instance
    (breaks : Occurrence Res W → Bool)
    (lists : E → Bool)
    (thread : Nat)
    (past : List (Occurrence Res W)) :
    Decidable (UnbrokenSince breaks lists thread past) :=
  inferInstanceAs (Decidable (Conforms _ past))

theorem UnbrokenSince.mono
    {breaks breaks' : Occurrence Res W → Bool}
    {lists : E → Bool}
    {thread : Nat}
    {past : List (Occurrence Res W)}
    (hUnbroken : UnbrokenSince breaks lists thread past)
    (hImp : ∀ o, breaks' o = true → breaks o = true) :
    UnbrokenSince breaks' lists thread past :=
  Conforms.mono hUnbroken fun _ _ hCond hBreaks =>
    hCond (hImp _ hBreaks)

/- Nothing has broken it since the thread's own listing. -/
theorem UnbrokenSince.cut
    {breaks : Occurrence Res W → Bool}
    {lists : E → Bool}
    {thread : Nat}
    {past : List (Occurrence Res W)}
    (hUnbroken : UnbrokenSince breaks lists thread past)
    {move : Move Res}
    (hMove : move ∈ own thread past)
    (hLists : lists move.effect = true) :
    ∃ recent listing older,
      past = recent ++ listing :: older ∧
      listing.thread = thread ∧ listing.move = move ∧
      ∀ other ∈ recent, breaks other = false := by
  obtain ⟨listing, hMem, hThread, rfl⟩ := mem_own_iff.mp hMove
  obtain ⟨recent, older, hPast⟩ := List.append_of_mem hMem
  refine ⟨recent, listing, older, hPast, hThread, rfl, ?_⟩
  intro other hOther
  rw [Bool.eq_false_iff]
  intro hBreaks
  obtain ⟨newer, middle, hRecent⟩ := List.append_of_mem hOther
  rw [hPast, hRecent, List.append_assoc,
    List.cons_append] at hUnbroken
  have hListed :=
    (Conforms.cut hUnbroken).1 hBreaks listing (by simp) hThread
  have hListing : lists listing.effect = true := hLists
  rw [hListing] at hListed
  cases hListed

/- The past tells the world that it has led to. -/
theorem Lawful.world_of_past
    {h h' : History Res W}
    (hLawful : Lawful m rule w h)
    (hLawful' : Lawful m rule w h')
    (hPast : h.past = h'.past) :
    h.world = h'.world := by
  cases hLawful with
  | start =>
      cases hLawful' with
      | start => rfl
      | push => cases hPast
  | push =>
      cases hLawful' with
      | start => cases hPast
      | push =>
          rw [History.push_past, History.push_past] at hPast
          rw [History.push_world, History.push_world,
            (List.cons.inj hPast).1]

/- A past can be cut anywhere, and what came first is lawful. -/
theorem Lawful.cut
    {h : History Res W}
    (hLawful : Lawful m rule w h)
    {recent older : List (Occurrence Res W)}
    {o : Occurrence Res W}
    (hPast : h.past = recent ++ o :: older) :
    ∃ earlier, Lawful m rule w earlier ∧
      earlier.past = older ∧
      m.Allows earlier o ∧
      rule o.thread (own o.thread older) o.effect := by
  induction hLawful generalizing recent with
  | start =>
      rw [History.start] at hPast
      cases recent with
      | nil => cases hPast
      | cons move recent => cases hPast
  | @push h last hBefore hAllows hRule ih =>
      rw [History.push_past] at hPast
      cases recent with
      | nil =>
          rcases List.cons.inj hPast with ⟨rfl, rfl⟩
          exact ⟨h, hBefore, rfl, hAllows, hRule⟩
      | cons other recent =>
          exact ih (List.cons.inj hPast).2

namespace Pool

/-
  A run of threads that follow their rules makes a lawful
  history, and every thread goes on following its rule. By
  induction on the schedule.
-/
theorem run_lawful
    {post : Nat → α → Trace Res → Prop}
    {schedule : List (Nat × C)}
    {pool pool' : Pool Res W α}
    (hLawful : Lawful m rule w pool.history)
    (hTraced :
      ∀ thread, (pool.threads thread).Traced (rule thread)
        (post thread) (own thread pool.history.past))
    (hRun : pool.run m schedule = some pool') :
    Lawful m rule w pool'.history ∧
      ∀ thread, (pool'.threads thread).Traced (rule thread)
        (post thread) (own thread pool'.history.past) := by
  induction schedule generalizing pool with
  | nil =>
      cases hRun
      exact ⟨hLawful, hTraced⟩
  | cons entry schedule ih =>
      rcases entry with ⟨thread, choice⟩
      simp only [run, Option.bind_eq_some_iff] at hRun
      rcases hRun with ⟨middle, hStep, hRest⟩
      rcases step_cases hStep with
        ⟨effect, next, answer, after, hThread, hExec,
          hHistory, hNext, hOthers⟩
      have hOwn := hTraced thread
      rw [hThread] at hOwn
      refine ih ?_ ?_ hRest
      · rw [hHistory]
        exact .push hLawful ⟨rfl, choice, hExec⟩ hOwn.1
      · intro other
        rw [hHistory, History.push_past]
        by_cases hOther : other = thread
        · subst hOther
          rw [hNext, own_cons, if_pos rfl]
          exact hOwn.2 answer
        · rw [hOthers other hOther,
            own_cons_other (Ne.symm hOther)]
          exact hTraced other

end Pool

namespace Prog

/-
  A program run alone is lawful too. All that happens is the
  thread's own doing, and its last moves meet the
  postcondition.
-/
theorem eval_lawful
    {thread : Nat}
    {p : Prog Res α}
    {Q : α → Trace Res → Prop}
    {choices rest : List C}
    {h h' : History Res W}
    {value : α}
    (hLawful : Lawful m rule w h)
    (hTraced :
      p.Traced (rule thread) Q (own thread h.past))
    (hEval :
      p.eval m thread choices h = some (value, h', rest)) :
    Lawful m rule w h' ∧
      Q value (own thread h'.past) ∧
      ∃ recent, h'.past = recent ++ h.past ∧
        ∀ o ∈ recent, o.thread = thread := by
  induction p generalizing choices h with
  | ret returned =>
      simp only [eval, Option.some.injEq,
        Prod.mk.injEq] at hEval
      rcases hEval with ⟨rfl, rfl, _⟩
      exact ⟨hLawful, hTraced, [], rfl, by simp⟩
  | step effect next ih =>
      cases choices with
      | nil => simp [eval] at hEval
      | cons choice choices =>
          simp only [eval] at hEval
          split at hEval
          · cases hEval
          · rename_i answer after hExec
            have hNext := hTraced.2 answer
            have hPush :
                own thread (⟨thread, effect, answer, h.world,
                  after⟩ :: h.past) =
                  ⟨effect, answer⟩ :: own thread h.past :=
              own_cons_self ⟨thread, effect, answer, h.world,
                after⟩ h.past
            rw [← hPush] at hNext
            rcases ih answer
                (.push hLawful ⟨rfl, choice, hExec⟩ hTraced.1)
                hNext hEval with
              ⟨hAfter, hPost, recent, hRecent, hThreads⟩
            refine ⟨hAfter, hPost,
              recent ++ [⟨thread, effect, answer, h.world,
                after⟩], by simp [hRecent], ?_⟩
            intro o hO
            rcases List.mem_append.mp hO with hO | hO
            · exact hThreads o hO
            · rw [List.mem_singleton.mp hO]

/- A program ends with a value of which the trace tells. -/
theorem Traced.eval_value
    {rule : Trace Res → E → Prop}
    {thread : Nat}
    {p : Prog Res α}
    {P : α → Prop}
    {past : Trace Res}
    {choices rest : List C}
    {h h' : History Res W}
    {value : α}
    (hTraced : p.Traced rule (fun value _ => P value) past)
    (hEval :
      p.eval m thread choices h = some (value, h', rest)) :
    P value := by
  induction p generalizing past choices h with
  | ret returned =>
      simp only [eval, Option.some.injEq,
        Prod.mk.injEq] at hEval
      rcases hEval with ⟨rfl, _⟩
      exact hTraced
  | step effect next ih =>
      cases choices with
      | nil => simp [eval] at hEval
      | cons choice choices =>
          simp only [eval] at hEval
          split at hEval
          · cases hEval
          · exact ih _ (hTraced.2 _) hEval

end Prog

end Concurrency

end IcpHandler
