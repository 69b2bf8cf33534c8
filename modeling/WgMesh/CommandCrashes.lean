import WgMesh.CommandScripts

namespace WgMesh.CommandScripts

/-!
# Scripts that are interrupted

A script whose commands may be refused and which may be stopped before any of
them, as by a crash.  The environment decides with one fate for each command
that is issued; where the list of fates ends, nothing more happens to the
script.

What an environment does may be bounded by a condition on each command, its
fate and the state in which it is issued.  `Safe` says of a script that every
environment within the condition leads to a given postcondition; it is computed
along the script and does not mention the fates.
-/

/-- What the environment does with a command. -/
inductive Fate where
  | granted
  | refused
  /-- The program stops before the command. -/
  | stopped
deriving DecidableEq

namespace Interpreter

variable {Command Reply State Value Result : Type}

/-- What a program sees of a command and the state after it; nothing if the
program stops. -/
def proceed (system : Interpreter Command Reply State) (command : Command)
    (fate : Fate) (state : State) : Option (Option Reply × State) :=
  match fate with
  | .stopped => none
  | .refused => some (none, state)
  | .granted =>
      match system.exec command state with
      | some (reply, after) => some (some reply, after)
      | none => some (none, state)

/-- The value of a script that is not stopped, the state it leaves and the
fates that are left. -/
def interrupted (system : Interpreter Command Reply State) :
    Script Command Reply Value → List Fate → State →
      Option Value × State × List Fate
  | .done value, fates, state => (some value, state, fates)
  | .call command next, fates, state =>
      match system.proceed command (fates.headD .granted) state with
      | none => (none, state, fates.tail)
      | some (reply, after) =>
          system.interrupted (next reply) fates.tail after

/-- Every command that is issued, its fate and its state meet a condition. -/
def Along
    (system : Interpreter Command Reply State)
    (fine : Command → Fate → State → Prop) :
    Script Command Reply Value → List Fate → State → Prop
  | .done _, _, _ => True
  | .call command next, fates, state =>
      fine command (fates.headD .granted) state ∧
        match system.proceed command (fates.headD .granted) state with
        | none => True
        | some (reply, after) =>
            system.Along fine (next reply) fates.tail after

/-- However the script is interrupted within a condition, it ends or stops as
the postcondition says; a script that is stopped has no value. -/
def Safe
    (system : Interpreter Command Reply State)
    (fine : Command → Fate → State → Prop) :
    Script Command Reply Value → (Option Value → State → Prop) → State → Prop
  | .done value, post, state => post (some value) state
  | .call command next, post, state =>
      ∀ fate, fine command fate state →
        match system.proceed command fate state with
        | none => post none state
        | some (reply, after) => system.Safe fine (next reply) post after

variable
  {system : Interpreter Command Reply State}
  {fine : Command → Fate → State → Prop}

variable {state : State} {script : Script Command Reply Value}

theorem along_call
    {command : Command}
    {next : Option Reply → Script Command Reply Value}
    {fates : List Fate} :
    system.Along fine (.call command next) fates state ↔
      fine command (fates.headD .granted) state ∧
        match system.proceed command (fates.headD .granted) state with
        | none => True
        | some (reply, after) =>
            system.Along fine (next reply) fates.tail after := by
  rw [Along]

section Decidability

variable [∀ command fate state, Decidable (fine command fate state)]

/-- The condition can be checked along a script. -/
def Along.decidable :
    ∀ (script : Script Command Reply Value) fates state,
      Decidable (system.Along fine script fates state)
  | .done _, _, _ => inferInstanceAs (Decidable True)
  | .call command next, fates, state =>
      @decidable_of_iff _ _ along_call.symm
        (@instDecidableAnd _ _ inferInstance
          (match system.proceed command (fates.headD .granted) state with
          | none => inferInstanceAs (Decidable True)
          | some (reply, after) =>
              Along.decidable (next reply) fates.tail after))

instance
    (script : Script Command Reply Value)
    (fates : List Fate)
    (state : State) :
    Decidable (system.Along fine script fates state) :=
  Along.decidable script fates state

end Decidability

/-- A safe script meets its postcondition in every environment within the
condition. -/
theorem Safe.sound
    {post : Option Value → State → Prop}
    (safe : system.Safe fine script post state)
    {fates : List Fate}
    (along : system.Along fine script fates state) :
    post (system.interrupted script fates state).1
      (system.interrupted script fates state).2.1 := by
  induction script generalizing fates state with
  | done value => exact safe
  | call command next inductionHypothesis =>
      obtain ⟨isFine, rest⟩ := along_call.mp along
      have step := safe _ isFine
      unfold interrupted
      match proceeds :
        system.proceed command (fates.headD .granted) state
      with
      | none =>
          rw [proceeds] at step
          exact step
      | some (reply, after) =>
          rw [proceeds] at step rest
          exact inductionHypothesis reply step rest

/-- A postcondition may be weakened. -/
theorem Safe.mono
    {post wider : Option Value → State → Prop}
    (safe : system.Safe fine script post state)
    (implies : ∀ value state, post value state → wider value state) :
    system.Safe fine script wider state := by
  induction script generalizing state with
  | done value => exact implies _ _ safe
  | call command next inductionHypothesis =>
      intro fate isFine
      have step := safe fate isFine
      match proceeds : system.proceed command fate state with
      | none =>
          rw [proceeds] at step
          exact implies none state step
      | some (reply, after) =>
          rw [proceeds] at step
          exact inductionHypothesis reply step

/-- A sequence is safe when its first part leads to a state in which the rest
is, or stops as the whole may stop. -/
theorem Safe.bind
    {next : Value → Script Command Reply Result}
    {post : Option Result → State → Prop}
    (safe :
      system.Safe fine script
        (fun value after =>
          match value with
          | some value => system.Safe fine (next value) post after
          | none => post none after)
        state) :
    system.Safe fine (script >>= next) post state := by
  change system.Safe fine (script.bind next) post state
  induction script generalizing state with
  | done value => exact safe
  | call command inner inductionHypothesis =>
      intro fate isFine
      have step := safe fate isFine
      match proceeds : system.proceed command fate state with
      | none =>
          rw [proceeds] at step
          exact step
      | some (reply, after) =>
          rw [proceeds] at step
          exact inductionHypothesis reply step

/-- One command for its reply, and the rest. -/
theorem safe_ask
    {command : Command}
    {next : Option Reply → Script Command Reply Result}
    {post : Option Result → State → Prop}
    {state : State}
    (whenStopped : fine command .stopped state → post none state)
    (whenFailed :
      fine command .refused state ∨ system.exec command state = none →
        system.Safe fine (next none) post state)
    (whenDone :
      ∀ reply after,
        fine command .granted state →
        system.exec command state = some (reply, after) →
        system.Safe fine (next (some reply)) post after) :
    system.Safe fine (ask command >>= next) post state := by
  intro fate isFine
  cases fate with
  | stopped => exact whenStopped isFine
  | refused => exact whenFailed (Or.inl isFine)
  | granted =>
      simp only [proceed]
      cases executed : system.exec command state with
      | none => exact whenFailed (Or.inr executed)
      | some done => exact whenDone done.1 done.2 isFine executed

theorem safe_issue
    {command : Command}
    {next : Bool → Script Command Reply Result}
    {post : Option Result → State → Prop}
    (whenStopped : fine command .stopped state → post none state)
    (whenFailed :
      fine command .refused state ∨ system.exec command state = none →
        system.Safe fine (next false) post state)
    (whenDone :
      ∀ reply after,
        fine command .granted state →
        system.exec command state = some (reply, after) →
        system.Safe fine (next true) post after) :
    system.Safe fine (issue command >>= next) post state :=
  @safe_ask _ _ _ _ system fine command
    (fun reply => next reply.isSome) post state whenStopped whenFailed
    whenDone

end Interpreter

end WgMesh.CommandScripts
