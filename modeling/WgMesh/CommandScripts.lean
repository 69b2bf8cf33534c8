import Mathlib.Logic.Basic

namespace WgMesh.CommandScripts

/-!
# Scripts of external commands

A program that changes a system only through commands, each of which succeeds
with a reply or fails without effect.  The environment may refuse any command
and may stop the program after any command, so there are two readings of a
script: the run in which nothing is refused, and the set of all states in which
the system may be found.
-/

/-- A program that issues commands; `none` is the reply of a failed one. -/
inductive Script (Command Reply Value : Type) where
  | done (value : Value)
  | call (command : Command)
      (next : Option Reply → Script Command Reply Value)

/-- What commands do to the system. -/
structure Interpreter (Command Reply State : Type) where
  exec : Command → State → Option (Reply × State)

variable {Command Reply State Value Result : Type}

/-- Continue with the value of a script. -/
def Script.bind : Script Command Reply Value →
    (Value → Script Command Reply Result) → Script Command Reply Result
  | .done value, next => next value
  | .call command first, next =>
      .call command (fun reply => (first reply).bind next)

instance : Monad (Script Command Reply) where
  pure := .done
  bind := .bind

instance : LawfulMonad (Script Command Reply) :=
  LawfulMonad.mk' _
    (by
      intro Value script
      change script.bind .done = script
      induction script with
      | done value => rfl
      | call command inner inductionHypothesis =>
          simp only [Script.bind, inductionHypothesis])
    (fun _ _ => rfl)
    (by
      intro First Second Third script next last
      change (script.bind next).bind last =
        script.bind (fun value => (next value).bind last)
      induction script with
      | done value => rfl
      | call command inner inductionHypothesis =>
          simp only [Script.bind, inductionHypothesis])

/-- Issue one command and see whether it succeeds. -/
def issue (command : Command) : Script Command Reply Bool :=
  .call command (fun reply => .done reply.isSome)

/-- Issue one command for its reply. -/
def ask (command : Command) : Script Command Reply (Option Reply) :=
  .call command .done

namespace Interpreter

/-- The run in which the environment refuses nothing. -/
def run (system : Interpreter Command Reply State) :
    Script Command Reply Value → State → Value × State
  | .done value, state => (value, state)
  | .call command next, state =>
      match system.exec command state with
      | some (reply, after) => system.run (next (some reply)) after
      | none => system.run (next none) state

variable {system : Interpreter Command Reply State}

/-- A run of a sequence continues where the first part ended. -/
theorem run_bind
    (system : Interpreter Command Reply State)
    (script : Script Command Reply Value)
    (next : Value → Script Command Reply Result)
    (before : State) :
    system.run (script >>= next) before =
      system.run (next (system.run script before).1)
        (system.run script before).2 := by
  change system.run (script.bind next) before = _
  induction script generalizing before with
  | done value => rfl
  | call command inner inductionHypothesis =>
      simp only [Script.bind, run]
      cases system.exec command before with
      | none => exact inductionHypothesis none before
      | some done => exact inductionHypothesis (some done.1) done.2

theorem run_issue
    {command : Command}
    {before after : State}
    {reply : Reply}
    (executed : system.exec command before = some (reply, after)) :
    system.run (issue command) before = (true, after) := by
  unfold issue run
  rw [executed]
  rfl

theorem run_issue_failed
    {command : Command}
    {before : State}
    (failed : system.exec command before = none) :
    system.run (issue command) before = (false, before) := by
  unfold issue run
  rw [failed]
  rfl

end Interpreter

end WgMesh.CommandScripts
