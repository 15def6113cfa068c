/-
PackageOrder.Proofs.Run — what the steps of a run come to, one after the other.

A step that starts in a session comes to a value or a failure and leaves a
session (`Run.runFrom`). The lemmas say it of each way in which steps are put
together, so that a run is taken apart from its front.
-/
import PackageOrder.Task.Single

namespace PackageOrder.Run

variable {α β : Type}

/-- What a step comes to in a session, and the session after it. -/
def runFrom (step : Run α) (session : Session) : Except Failure α × Session :=
  step.run.run session

theorem runFrom_pure (value : α) (session : Session) :
    runFrom (pure value) session = (.ok value, session) := rfl

theorem runFrom_bind (first : Run α) (next : α → Run β) (session : Session) :
    (first >>= next).runFrom session
      = match first.runFrom session with
        | (.ok value, middle) => (next value).runFrom middle
        | (.error failure, middle) => (.error failure, middle) := by
  unfold runFrom
  rw [ExceptT.run_bind, StateT.run_bind]
  rcases first.run.run session with ⟨result, middle⟩
  cases result <;> rfl

/-- Steps that succeed one after the other do so each. -/
theorem runFrom_bind_eq_ok {first : Run α} {next : α → Run β} {session after : Session} {value : β} :
    (first >>= next).runFrom session = (.ok value, after)
      ↔ ∃ one middle, first.runFrom session = (.ok one, middle)
        ∧ (next one).runFrom middle = (.ok value, after) := by
  rw [runFrom_bind]
  constructor
  · rcases first.runFrom session with ⟨failure | one, middle⟩
    · exact fun h => nomatch congrArg Prod.fst h
    · exact fun h => ⟨one, middle, rfl, h⟩
  · rintro ⟨one, middle, hfirst, hnext⟩
    rw [hfirst]
    exact hnext

/-- A failure is handled in the session that it leaves. -/
theorem runFrom_tryCatch (step : Run α) (handle : Failure → Run α) (session : Session) :
    (tryCatch step handle).runFrom session
      = match step.runFrom session with
        | (.ok value, middle) => (.ok value, middle)
        | (.error failure, middle) => (handle failure).runFrom middle := by
  unfold runFrom
  rw [ExceptT.run_tryCatch, StateT.run_bind]
  rcases step.run.run session with ⟨result, middle⟩
  cases result <;> rfl

/-- A step that cannot fail. -/
theorem runFrom_liftM (step : StateM Session α) (session : Session) :
    runFrom (liftM step) session = (.ok (step.run session).1, (step.run session).2) := rfl

theorem runFrom_say (level : LogLevel) (message : String) (session : Session) :
    (say level message).runFrom session
      = (.ok (), { session with log := session.log ++ [(level, message)] }) := rfl

theorem runFrom_sayAll (log : Log) (session : Session) :
    (sayAll log).runFrom session = (.ok (), { session with log := session.log ++ log }) := rfl

theorem runFrom_settle (strict : Bool) (progress : Progress) (task : Task) (outcome : Outcome)
    (session : Session) :
    (settle strict progress task outcome).runFrom session
      = match progress.settle strict task outcome with
        | .ok (after, log) => (.ok after, { session with log := session.log ++ log })
        | .error failure => (.error failure, session) := by
  unfold settle
  rcases progress.settle strict task outcome with failure | ⟨after, log⟩ <;> rfl

end PackageOrder.Run
