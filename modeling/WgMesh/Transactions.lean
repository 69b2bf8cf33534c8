import Mathlib.Data.List.Basic

namespace WgMesh.Transactions

/-!
# Statements that may fail, and transactions that roll back

An action runs against data held by a database whose driver may refuse any
statement.  A session carries the driver's coming answers: a text is a
refusal, and when the list is used up every statement succeeds.  Quantifying
over the answers therefore covers a failure at every single statement.

`Runs action before result after` forgets the answers.  Its inversion rules,
one for each way of building an action, are what proofs about concrete
actions use; no such proof unfolds an action into its session function.
-/

/-- The database contents together with the driver's coming answers. -/
structure Session (Data : Type) where
  /-- What the database holds, uncommitted changes included. -/
  data : Data
  /-- A refusal text, or `none` for a statement that works. -/
  answers : List (Option String)

/-- A computation on a session that ends in a value or an error. -/
def Action (Data Failure Value : Type) : Type :=
  Session Data → Except Failure Value × Session Data

variable {Data Failure Value Result : Type}

namespace Action

/-- An action that only returns a value. -/
def done (value : Value) : Action Data Failure Value :=
  fun session => (.ok value, session)

/-- Continue after a success; an error ends the whole action. -/
def andThen
    (first : Action Data Failure Value)
    (next : Value → Action Data Failure Result) :
    Action Data Failure Result :=
  fun session =>
    match first session with
    | (.ok value, later) => next value later
    | (.error failure, later) => (.error failure, later)

instance : Monad (Action Data Failure) where
  pure := done
  bind := andThen

end Action

variable {first action body : Action Data Failure Value} {failure : Failure}
  {value : Value} {before after : Data} {result : Except Failure Value}
  {next : Value → Action Data Failure Result}
  {refused beginRefused : String → Failure} {read : Data → Value}
  {write : Data → Except String (Value × Data)}
  {commitRefused : Value → String → Failure}

/-- An error of the first action is the error of both. -/
theorem Action.bind_of_error
    {session : Session Data}
    (failed : (first session).1 = .error failure)
    (next : Value → Action Data Failure Result) :
    ((first >>= next) session).1 = .error failure := by
  change (Action.andThen first next session).1 = _
  rw [Action.andThen]
  split
  · rename_i value later ran
    rw [ran] at failed
    cases failed
  · rename_i error later ran
    rw [ran] at failed
    cases failed
    rfl

/-- A sequence may be cut anywhere. -/
theorem Action.bind_bind
    {Final : Type}
    (first : Action Data Failure Value)
    (second : Value → Action Data Failure Result)
    (third : Result → Action Data Failure Final) :
    (first >>= second) >>= third =
      first >>= fun value => second value >>= third := by
  funext session
  change
    Action.andThen (Action.andThen first second) third session =
      Action.andThen first (fun value => Action.andThen (second value) third)
        session
  unfold Action.andThen
  cases first session with
  | mk outcome later =>
      cases outcome with
      | ok value => rfl
      | error failure => rfl

/-- End with an error. -/
def raise (failure : Failure) : Action Data Failure Value :=
  fun session => (.error failure, session)

/-- Give the driver one statement, which it may refuse. -/
def statement (refused : String → Failure) : Action Data Failure Unit :=
  fun session =>
    match session.answers with
    | [] => (.ok (), session)
    | none :: rest => (.ok (), { session with answers := rest })
    | some text :: rest =>
        (.error (refused text), { session with answers := rest })

/-- Look at the data without asking the driver again. -/
def peek (read : Data → Value) : Action Data Failure Value :=
  fun session => (.ok (read session.data), session)

/-- One reading statement. -/
def query (refused : String → Failure) (read : Data → Value) :
    Action Data Failure Value := do
  statement refused
  peek read

/-- Store new data, or fail with the constraint it would violate. -/
def change
    (refused : String → Failure)
    (write : Data → Except String (Value × Data)) :
    Action Data Failure Value :=
  fun session =>
    match write session.data with
    | .ok (value, data) => (.ok value, { session with data })
    | .error text => (.error (refused text), session)

/-- One writing statement. -/
def exec
    (refused : String → Failure)
    (write : Data → Except String (Value × Data)) :
    Action Data Failure Value := do
  statement refused
  change refused write

/-- Undo every change to the data when the action fails. -/
def restoring (body : Action Data Failure Value) :
    Action Data Failure Value :=
  fun session =>
    match body session with
    | (.ok value, later) => (.ok value, later)
    | (.error failure, later) =>
        (.error failure, { later with data := session.data })

/--
Begin, body and commit; an error anywhere rolls back.  How a refused commit
is reported may depend on what the body computed.
-/
def transaction
    (beginRefused : String → Failure)
    (commitRefused : Value → String → Failure)
    (body : Action Data Failure Value) :
    Action Data Failure Value :=
  restoring do
    statement beginRefused
    let value ← body
    statement (commitRefused value)
    pure value

/-- Run an action and hand its error on as a value. -/
def attempt (action : Action Data Failure Value) :
    Action Data Result (Except Failure Value) :=
  fun session =>
    match action session with
    | (outcome, later) => (.ok outcome, later)

/-- Run an action and change its error, as wrapping does. -/
def mapError
    (change : Failure → Failure)
    (action : Action Data Failure Value) :
    Action Data Failure Value :=
  fun session =>
    match action session with
    | (.ok value, later) => (.ok value, later)
    | (.error failure, later) => (.error (change failure), later)

/-- Change data in memory, without asking the driver. -/
def adjust (update : Data → Data) : Action Data Failure Unit :=
  fun session => (.ok (), { session with data := update session.data })

/-- Run an action on a part of the data and hand its outcome on. -/
def zoom
    {Whole Other : Type}
    (part : Whole → Data)
    (put : Data → Whole → Whole)
    (action : Action Data Failure Value) :
    Action Whole Other (Except Failure Value) :=
  fun session =>
    match action ⟨part session.data, session.answers⟩ with
    | (outcome, later) =>
        (.ok outcome, ⟨put later.data session.data, later.answers⟩)

/-- An action can take the data from `before` to `after` with this result. -/
def Runs
    (action : Action Data Failure Value)
    (before : Data)
    (result : Except Failure Value)
    (after : Data) : Prop :=
  ∃ answers remaining,
    action ⟨before, answers⟩ = (result, ⟨after, remaining⟩)

/-- Every session of an action is one of its runs. -/
theorem Runs.of_session
    (action : Action Data Failure Value)
    (session : Session Data) :
    Runs action session.data (action session).1 (action session).2.data :=
  ⟨session.answers, (action session).2.answers, rfl⟩

/-- Returning a value changes nothing. -/
theorem Runs.pure_inv
    (run : Runs (pure value) before result after) :
    result = .ok value ∧ after = before := by
  obtain ⟨answers, remaining, shape⟩ := run
  have parts := Prod.mk.inj shape
  exact ⟨parts.1.symm, (Session.mk.inj parts.2).1.symm⟩

/-- A sequence fails in its first part or runs both parts. -/
theorem Runs.bind_inv
    {result : Except Failure Result}
    (run : Runs (first >>= next) before result after) :
    (∃ failure,
        Runs first before (.error failure) after ∧
          result = .error failure) ∨
      ∃ value middle,
        Runs first before (.ok value) middle ∧
          Runs (next value) middle result after := by
  obtain ⟨answers, remaining, shape⟩ := run
  change Action.andThen first next ⟨before, answers⟩ = _ at shape
  unfold Action.andThen at shape
  split at shape
  · rename_i value later firstShape
    exact Or.inr ⟨value, later.data,
      ⟨answers, later.answers, firstShape⟩,
      ⟨later.answers, remaining, shape⟩⟩
  · rename_i failure later firstShape
    have parts := Prod.mk.inj shape
    refine Or.inl ⟨failure, ⟨answers, remaining, ?_⟩, parts.1.symm⟩
    rw [firstShape, parts.2]

/-- A sequence that succeeds runs both parts. -/
theorem Runs.bind_ok
    {result : Result}
    (run : Runs (first >>= next) before (.ok result) after) :
    ∃ value middle,
      Runs first before (.ok value) middle ∧
        Runs (next value) middle (.ok result) after := by
  rcases run.bind_inv with ⟨failure, -, impossible⟩ | parts
  · cases impossible
  · exact parts

/-- A successful run may have its value changed afterwards. -/
theorem Runs.then_pure
    (run : Runs action before (.ok value) after)
    (change : Value → Result) :
    Runs (action >>= fun value => pure (change value))
      before (.ok (change value)) after := by
  obtain ⟨answers, remaining, shape⟩ := run
  refine ⟨answers, remaining, ?_⟩
  change Action.andThen action _ ⟨before, answers⟩ = _
  unfold Action.andThen
  rw [shape]
  rfl

/-- Raising an error changes nothing. -/
theorem Runs.raise_inv
    (run : Runs (raise failure) before result after) :
    result = .error failure ∧ after = before := by
  obtain ⟨answers, remaining, shape⟩ := run
  have parts := Prod.mk.inj shape
  exact ⟨parts.1.symm, (Session.mk.inj parts.2).1.symm⟩

/-- A raised error is not a success. -/
theorem Runs.raise_ok
    (run : Runs (raise failure) before (.ok value) after) :
    False := by
  cases run.raise_inv.1

/-- A statement by itself changes nothing. -/
theorem Runs.statement_inv
    {result : Except Failure Unit}
    (run : Runs (statement refused) before result after) :
    after = before ∧
      (result = .ok () ∨ ∃ text, result = .error (refused text)) := by
  obtain ⟨answers, remaining, shape⟩ := run
  unfold statement at shape
  split at shape
  · have parts := Prod.mk.inj shape
    exact ⟨(Session.mk.inj parts.2).1.symm, Or.inl parts.1.symm⟩
  · have parts := Prod.mk.inj shape
    exact ⟨(Session.mk.inj parts.2).1.symm, Or.inl parts.1.symm⟩
  · rename_i text rest answersShape
    have parts := Prod.mk.inj shape
    exact ⟨(Session.mk.inj parts.2).1.symm,
      Or.inr ⟨text, parts.1.symm⟩⟩

/-- A reading statement changes nothing and returns what the data says. -/
theorem Runs.query_inv
    (run : Runs (query refused read) before result after) :
    after = before ∧
      (result = .ok (read before) ∨
        ∃ text, result = .error (refused text)) := by
  rcases run.bind_inv with
    ⟨failure, refusal, resultShape⟩ | ⟨_, middle, first, second⟩
  · obtain ⟨same, outcome⟩ := refusal.statement_inv
    rcases outcome with impossible | ⟨text, textShape⟩
    · cases impossible
    · cases textShape
      exact ⟨same, Or.inr ⟨text, resultShape⟩⟩
  · obtain ⟨sameFirst, -⟩ := first.statement_inv
    subst middle
    obtain ⟨answers, remaining, shape⟩ := second
    have parts := Prod.mk.inj shape
    exact ⟨(Session.mk.inj parts.2).1.symm, Or.inl parts.1.symm⟩

/-- A successful reading statement returns what the data says. -/
theorem Runs.query_ok
    (run : Runs (query refused read) before (.ok value) after) :
    after = before ∧ value = read before := by
  obtain ⟨same, outcome⟩ := run.query_inv
  rcases outcome with shape | ⟨text, impossible⟩
  · exact ⟨same, Except.ok.inj shape⟩
  · cases impossible

/-- A writing statement stores what it writes or changes nothing. -/
theorem Runs.exec_inv
    (run : Runs (exec refused write) before result after) :
    (∃ value, write before = .ok (value, after) ∧ result = .ok value) ∨
      after = before ∧ ∃ text, result = .error (refused text) := by
  rcases run.bind_inv with
    ⟨failure, refusal, resultShape⟩ | ⟨_, middle, first, second⟩
  · obtain ⟨same, outcome⟩ := refusal.statement_inv
    rcases outcome with impossible | ⟨text, textShape⟩
    · cases impossible
    · cases textShape
      exact Or.inr ⟨same, text, resultShape⟩
  · obtain ⟨sameFirst, -⟩ := first.statement_inv
    subst middle
    obtain ⟨answers, remaining, shape⟩ := second
    unfold change at shape
    split at shape
    · rename_i value data written
      have parts := Prod.mk.inj shape
      have sameData := (Session.mk.inj parts.2).1
      simp only at written sameData
      subst data
      exact Or.inl ⟨value, written, parts.1.symm⟩
    · rename_i text violated
      have parts := Prod.mk.inj shape
      exact Or.inr ⟨(Session.mk.inj parts.2).1.symm, text,
        parts.1.symm⟩

/-- A successful writing statement stores what it writes. -/
theorem Runs.exec_ok
    (run : Runs (exec refused write) before (.ok value) after) :
    write before = .ok (value, after) := by
  rcases run.exec_inv with ⟨other, written, shape⟩ | ⟨-, text, impossible⟩
  · cases shape
    exact written
  · cases impossible

/-- A failed restoring action changes nothing; a successful one is its body. -/
theorem Runs.restoring_inv
    (run : Runs (restoring body) before result after) :
    (∃ value, result = .ok value ∧ Runs body before (.ok value) after) ∨
      ∃ failure, result = .error failure ∧ after = before := by
  obtain ⟨answers, remaining, shape⟩ := run
  unfold restoring at shape
  split at shape
  · rename_i value later bodyShape
    have parts := Prod.mk.inj shape
    refine Or.inl ⟨value, parts.1.symm, answers, remaining, ?_⟩
    rw [bodyShape, parts.2]
  · rename_i failure later bodyShape
    have parts := Prod.mk.inj shape
    exact Or.inr ⟨failure, parts.1.symm,
      (Session.mk.inj parts.2).1.symm⟩

/-- A transaction that reports an error has changed nothing. -/
theorem Runs.transaction_error
    (run :
      Runs (transaction beginRefused commitRefused body)
        before (.error failure) after) :
    after = before := by
  rcases run.restoring_inv with ⟨value, impossible, -⟩ | ⟨-, -, same⟩
  · cases impossible
  · exact same

/-- A transaction that succeeds has run its body to the end. -/
theorem Runs.transaction_ok
    (run :
      Runs (transaction beginRefused commitRefused body)
        before (.ok value) after) :
    Runs body before (.ok value) after := by
  rcases run.restoring_inv with ⟨other, shape, inner⟩ | ⟨_, impossible, -⟩
  · cases shape
    obtain ⟨_, begun, first, rest⟩ := inner.bind_ok
    obtain ⟨result, written, bodyRun, tail⟩ := rest.bind_ok
    obtain ⟨_, committed, commit, last⟩ := tail.bind_ok
    obtain ⟨sameBegin, -⟩ := first.statement_inv
    obtain ⟨sameCommit, -⟩ := commit.statement_inv
    obtain ⟨resultShape, sameEnd⟩ := last.pure_inv
    cases resultShape
    subst begun committed
    rw [sameEnd]
    exact bodyRun
  · cases impossible

/-- Attempting an action always succeeds and returns its outcome. -/
theorem Runs.attempt_inv
    {result : Except Result (Except Failure Value)}
    (run : Runs (attempt action) before result after) :
    ∃ outcome, result = .ok outcome ∧
      Runs action before outcome after := by
  obtain ⟨answers, remaining, shape⟩ := run
  refine ⟨(action ⟨before, answers⟩).1, ?_, answers, remaining, ?_⟩
  · exact (Prod.mk.inj shape).1.symm
  · exact Prod.ext rfl (Prod.mk.inj shape).2

/-- Changing errors does not change what succeeds. -/
theorem Runs.mapError_ok
    {change : Failure → Failure}
    (run : Runs (mapError change action) before (.ok value) after) :
    Runs action before (.ok value) after := by
  obtain ⟨answers, remaining, shape⟩ := run
  refine ⟨answers, remaining, ?_⟩
  unfold mapError at shape
  split at shape
  · rename_i inner
    exact inner.trans shape
  · cases (Prod.mk.inj shape).1

/-- Looking at the data returns what it says. -/
theorem Runs.peek_inv
    (run : Runs (peek read) before result after) :
    result = .ok (read before) ∧ after = before := by
  obtain ⟨answers, remaining, shape⟩ := run
  have parts := Prod.mk.inj shape
  exact ⟨parts.1.symm, (Session.mk.inj parts.2).1.symm⟩

/-- A change in memory always succeeds. -/
theorem Runs.adjust_inv
    {update : Data → Data}
    {result : Except Failure Unit}
    (run : Runs (adjust update) before result after) :
    result = .ok () ∧ after = update before := by
  obtain ⟨answers, remaining, shape⟩ := run
  have parts := Prod.mk.inj shape
  exact ⟨parts.1.symm, (Session.mk.inj parts.2).1.symm⟩

/-- Zooming always succeeds and returns the outcome on the part. -/
theorem Runs.zoom_inv
    {Whole Other : Type}
    {part : Whole → Data}
    {put : Data → Whole → Whole}
    {before after : Whole}
    {result : Except Other (Except Failure Value)}
    (run : Runs (zoom part put action) before result after) :
    ∃ outcome changed, result = .ok outcome ∧
      Runs action (part before) outcome changed ∧
      after = put changed before := by
  obtain ⟨answers, remaining, shape⟩ := run
  have parts := Prod.mk.inj shape
  refine ⟨(action ⟨part before, answers⟩).1,
    (action ⟨part before, answers⟩).2.data, parts.1.symm,
    ⟨answers, (action ⟨part before, answers⟩).2.answers, rfl⟩, ?_⟩
  exact (Session.mk.inj parts.2).1.symm

/-- The action never changes the data. -/
def ReadOnly (action : Action Data Failure Value) : Prop :=
  ∀ before result after, Runs action before result after → after = before

/-- The action changes nothing when it reports an error. -/
def Atomic (action : Action Data Failure Value) : Prop :=
  ∀ before failure after,
    Runs action before (.error failure) after → after = before

/-- What never changes the data changes nothing on an error. -/
theorem ReadOnly.atomic
    (readOnly : ReadOnly action) :
    Atomic action :=
  fun before failure after run => readOnly before (.error failure) after run

/-- Returning a value is read-only. -/
theorem readOnly_pure
    (value : Value) :
    ReadOnly (pure value : Action Data Failure Value) :=
  fun _ _ _ run => run.pure_inv.2

/-- Raising an error is read-only. -/
theorem readOnly_raise
    (failure : Failure) :
    ReadOnly (raise failure : Action Data Failure Value) :=
  fun _ _ _ run => run.raise_inv.2

/-- Reading statements are read-only. -/
theorem readOnly_query
    (refused : String → Failure)
    (read : Data → Value) :
    ReadOnly (query refused read) :=
  fun _ _ _ run => run.query_inv.1

/-- A statement by itself is read-only. -/
theorem readOnly_statement
    (refused : String → Failure) :
    ReadOnly (statement refused : Action Data Failure Unit) :=
  fun _ _ _ run => run.statement_inv.1

/-- A sequence of read-only actions is read-only. -/
theorem ReadOnly.bind
    (firstReadOnly : ReadOnly first)
    (nextReadOnly : ∀ value, ReadOnly (next value)) :
    ReadOnly (first >>= next) := by
  intro before result after run
  rcases run.bind_inv with
    ⟨failure, firstRun, -⟩ | ⟨value, middle, firstRun, nextRun⟩
  · exact firstReadOnly _ _ _ firstRun
  · have sameFirst := firstReadOnly _ _ _ firstRun
    have sameNext := nextReadOnly value _ _ _ nextRun
    rw [sameNext, sameFirst]

/-- A writing statement is atomic. -/
theorem atomic_exec
    (refused : String → Failure)
    (write : Data → Except String (Value × Data)) :
    Atomic (exec refused write) := by
  intro before failure after run
  rcases run.exec_inv with ⟨value, -, impossible⟩ | ⟨same, -⟩
  · cases impossible
  · exact same

/-- Transactions are atomic. -/
theorem atomic_transaction
    (beginRefused : String → Failure)
    (commitRefused : Value → String → Failure)
    (body : Action Data Failure Value) :
    Atomic (transaction beginRefused commitRefused body) :=
  fun _ _ _ run => run.transaction_error

/-- An atomic action may be preceded by reading. -/
theorem Atomic.after_reading
    (firstReadOnly : ReadOnly first)
    (nextAtomic : ∀ value, Atomic (next value)) :
    Atomic (first >>= next) := by
  intro before failure after run
  rcases run.bind_inv with
    ⟨_, firstRun, -⟩ | ⟨value, middle, firstRun, nextRun⟩
  · exact firstReadOnly _ _ _ firstRun
  · have sameFirst := firstReadOnly _ _ _ firstRun
    rw [nextAtomic value _ _ _ nextRun, sameFirst]

/-- An atomic action may be followed by returning a value. -/
theorem Atomic.then_pure
    (firstAtomic : Atomic first)
    (project : Value → Result) :
    Atomic (first >>= fun value => pure (project value)) := by
  intro before failure after run
  rcases run.bind_inv with
    ⟨_, firstRun, -⟩ | ⟨value, middle, -, nextRun⟩
  · exact firstAtomic _ _ _ firstRun
  · cases nextRun.pure_inv.1

/-- However the action ends, the data before and after are related. -/
def Within
    (relation : Data → Data → Prop)
    (action : Action Data Failure Value) : Prop :=
  ∀ before result after,
    Runs action before result after → relation before after

section Within

variable {relation : Data → Data → Prop}

/-- What never changes the data stays within a reflexive relation. -/
theorem ReadOnly.within
    {action : Action Data Failure Value}
    (readOnly : ReadOnly action)
    (reflexive : ∀ data, relation data data) :
    Within relation action := by
  intro before result after run
  rw [readOnly before result after run]
  exact reflexive before

/-- A sequence stays within a transitive relation. -/
theorem Within.bind
    {first : Action Data Failure Value}
    {next : Value → Action Data Failure Result}
    (firstWithin : Within relation first)
    (nextWithin : ∀ value, Within relation (next value))
    (transitive :
      ∀ {before middle after}, relation before middle →
        relation middle after → relation before after) :
    Within relation (first >>= next) := by
  intro before result after run
  rcases run.bind_inv with
    ⟨failure, firstRun, -⟩ | ⟨value, middle, firstRun, nextRun⟩
  · exact firstWithin _ _ _ firstRun
  · exact transitive (firstWithin _ _ _ firstRun)
      (nextWithin value _ _ _ nextRun)

/-- A writing statement stays within what its write does. -/
theorem within_exec
    {refused : String → Failure}
    {write : Data → Except String (Value × Data)}
    (reflexive : ∀ data, relation data data)
    (writes :
      ∀ before value after, write before = .ok (value, after) →
        relation before after) :
    Within relation (exec refused write) := by
  intro before result after run
  rcases run.exec_inv with ⟨value, written, -⟩ | ⟨same, -⟩
  · exact writes before value after written
  · rw [same]
    exact reflexive before

end Within

/--
The run in which the driver refuses nothing.

Such a run is unique, so a statement about it says what the action computes
and, unlike `Runs`, that it does compute something.
-/
def Completes
    (action : Action Data Failure Value)
    (before : Data)
    (result : Except Failure Value)
    (after : Data) : Prop :=
  action ⟨before, []⟩ = (result, ⟨after, []⟩)

/-- The run without refusals is a run. -/
theorem Completes.runs
    (complete : Completes action before result after) :
    Runs action before result after :=
  ⟨[], [], complete⟩

/-- An action has at most one run without refusals. -/
theorem Completes.unique
    {first second : Data}
    {firstResult secondResult : Except Failure Value}
    (firstRun : Completes action before firstResult first)
    (secondRun : Completes action before secondResult second) :
    firstResult = secondResult ∧ first = second := by
  have parts := Prod.mk.inj (firstRun.symm.trans secondRun)
  exact ⟨parts.1, (Session.mk.inj parts.2).1⟩

/-- Returning a value completes. -/
theorem completes_pure
    (value : Value)
    (data : Data) :
    Completes (pure value : Action Data Failure Value)
      data (.ok value) data :=
  rfl

/-- Raising an error completes with it. -/
theorem completes_raise
    (failure : Failure)
    (data : Data) :
    Completes (raise failure : Action Data Failure Value)
      data (.error failure) data :=
  rfl

/-- Looking at the data completes with what it says. -/
theorem completes_peek
    (read : Data → Value)
    (data : Data) :
    Completes (peek read : Action Data Failure Value)
      data (.ok (read data)) data :=
  rfl

/-- A reading statement completes with what the data says. -/
theorem completes_query
    (refused : String → Failure)
    (read : Data → Value)
    (data : Data) :
    Completes (query refused read) data (.ok (read data)) data :=
  rfl

/-- A sequence continues after a first part that succeeds. -/
theorem Completes.bind
    {middle : Data}
    {result : Except Failure Result}
    (firstRun : Completes first before (.ok value) middle)
    (nextRun : Completes (next value) middle result after) :
    Completes (first >>= next) before result after := by
  change Action.andThen first next ⟨before, []⟩ = _
  unfold Action.andThen
  rw [firstRun]
  exact nextRun

/-- A sequence ends with the error of its first part. -/
theorem Completes.bind_error
    (firstRun : Completes first before (.error failure) after) :
    Completes (first >>= next) before (.error failure) after := by
  change Action.andThen first next ⟨before, []⟩ = _
  unfold Action.andThen
  rw [firstRun]

/-- A writing statement that keeps the constraints completes. -/
theorem completes_exec
    (written : write before = .ok (value, after)) :
    Completes (exec refused write) before (.ok value) after := by
  change change refused write ⟨before, []⟩ = _
  unfold change
  simp only [written]

/-- Changing errors leaves a success alone. -/
theorem Completes.mapError
    {change : Failure → Failure}
    (run : Completes action before (.ok value) after) :
    Completes (Transactions.mapError change action) before (.ok value)
      after := by
  unfold Completes Transactions.mapError
  rw [run]

/-- A transaction whose body succeeds commits. -/
theorem Completes.transaction
    (bodyRun : Completes body before (.ok value) after) :
    Completes (Transactions.transaction beginRefused commitRefused body)
      before (.ok value) after := by
  have inner :
      Completes
        (do
          statement beginRefused
          let result ← body
          statement (commitRefused result)
          pure result)
        before (.ok value) after :=
    Completes.bind rfl (bodyRun.bind (Completes.bind rfl rfl))
  change restoring _ ⟨before, []⟩ = _
  unfold restoring
  rw [inner]

/-- A transaction whose body fails reports the error and rolls back. -/
theorem Completes.transaction_rollback
    {beginRefused : String → Failure}
    {commitRefused : Value → String → Failure}
    {body : Action Data Failure Value}
    {before after : Data}
    {failure : Failure}
    (bodyRun : Completes body before (.error failure) after) :
    Completes (Transactions.transaction beginRefused commitRefused body)
      before (.error failure) before := by
  have inner :
      Completes
        (do
          statement beginRefused
          let result ← body
          statement (commitRefused result)
          pure result)
        before (.error failure) after :=
    Completes.bind rfl bodyRun.bind_error
  change restoring _ ⟨before, []⟩ = _
  unfold restoring
  rw [inner]

/-- Zooming completes with what the action completes with. -/
theorem Completes.zoom
    {Whole Other : Type}
    {part : Whole → Data}
    {put : Data → Whole → Whole}
    {action : Action Data Failure Value}
    {before : Whole}
    {after : Data}
    {result : Except Failure Value}
    (complete : Completes action (part before) result after) :
    Completes
      (Transactions.zoom part put action :
        Action Whole Other (Except Failure Value))
      before (.ok result) (put after before) := by
  change Transactions.zoom part put action ⟨before, []⟩ = _
  unfold Transactions.zoom
  rw [complete]

/-- Without refusals, the action always ends with no answer left over. -/
def Settles (action : Action Data Failure Value) : Prop :=
  ∀ before, ∃ result after, Completes action before result after

/-- Returning a value settles. -/
theorem settles_pure
    (value : Value) :
    Settles (pure value : Action Data Failure Value) :=
  fun before => ⟨_, before, completes_pure value before⟩

/-- Raising an error settles. -/
theorem settles_raise
    (failure : Failure) :
    Settles (raise failure : Action Data Failure Value) :=
  fun before => ⟨_, before, completes_raise failure before⟩

/-- A reading statement settles. -/
theorem settles_query
    (refused : String → Failure)
    (read : Data → Value) :
    Settles (query refused read) :=
  fun before => ⟨_, before, completes_query refused read before⟩

/-- A writing statement settles, whether it keeps the constraints or not. -/
theorem settles_exec
    (refused : String → Failure)
    (write : Data → Except String (Value × Data)) :
    Settles (exec refused write) := by
  intro before
  cases written : write before with
  | ok pair => exact ⟨_, _, completes_exec written⟩
  | error text =>
      refine ⟨.error (refused text), before, ?_⟩
      change change refused write ⟨before, []⟩ = _
      unfold change
      simp only [written]

/-- A sequence of settling actions settles. -/
theorem Settles.bind
    (firstSettles : Settles first)
    (nextSettles : ∀ value, Settles (next value)) :
    Settles (first >>= next) := by
  intro before
  obtain ⟨firstResult, middle, firstRun⟩ := firstSettles before
  cases firstResult with
  | error failure => exact ⟨_, middle, firstRun.bind_error⟩
  | ok value =>
      obtain ⟨result, after, nextRun⟩ := nextSettles value middle
      exact ⟨result, after, firstRun.bind nextRun⟩

/-- Looking at the outcome of a settling action settles. -/
theorem Settles.attempt
    (settles : Settles action) :
    Settles
      (Transactions.attempt action :
        Action Data Result (Except Failure Value)) := by
  intro before
  obtain ⟨result, after, run⟩ := settles before
  refine ⟨.ok result, after, ?_⟩
  unfold Completes Transactions.attempt
  rw [show action ⟨before, []⟩ = (result, ⟨after, []⟩) from run]

/-- A transaction with a settling body settles. -/
theorem Settles.transaction
    (bodySettles : Settles body) :
    Settles (Transactions.transaction beginRefused commitRefused body) := by
  intro before
  obtain ⟨result, after, bodyRun⟩ := bodySettles before
  cases result with
  | error failure => exact ⟨_, before, bodyRun.transaction_rollback⟩
  | ok value => exact ⟨_, after, bodyRun.transaction⟩

end WgMesh.Transactions
