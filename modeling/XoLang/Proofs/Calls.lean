/-!
# Calls of a session

A session performs steps one after another, each in the state that the one before has left. A call
keeps the states on both sides of a step. What every step keeps holds before every call, so a
statement about all sessions needs only one about single steps.
-/

namespace XoLang

variable {State Step Answer : Type}

/-- A step as it was performed in a session. -/
structure Call (State Step Answer : Type) where
  before : State
  step : Step
  answer : Answer
  after : State

/-- The call of a step in a state. -/
def Call.of (perform : State → Step → Answer × State) (state : State) (step : Step) :
    Call State Step Answer :=
  ⟨state, step, (perform state step).1, (perform state step).2⟩

/-- The calls of a session that starts in a state. -/
def calls (perform : State → Step → Answer × State) (state : State) :
    List Step → List (Call State Step Answer)
  | [] => []
  | step :: steps => .of perform state step :: calls perform (perform state step).2 steps

section Sessions

variable {perform : State → Step → Answer × State}

/-- What `each` says of a step in any state with an invariant holds of every call of a session. -/
theorem forall_mem_calls {Holds : State → Prop} {each : Call State Step Answer → Prop}
    (keeps : ∀ state step, Holds state → Holds (perform state step).2)
    (holds : ∀ state step, Holds state → each (.of perform state step))
    {state : State} (start : Holds state) (steps : List Step) :
    ∀ call ∈ calls perform state steps, each call := by
  induction steps generalizing state with
  | nil =>
    intro call mem
    cases mem
  | cons step steps ih =>
    intro call mem
    rcases List.mem_cons.mp mem with rfl | later
    · exact holds state step start
    · exact ih (keeps state step start) call later

/-- Answers and states behind the steps are those of a function that only keeps these. -/
theorem map_calls {run : State → List Step → List (Answer × State)}
    (nil : ∀ state, run state [] = [])
    (cons : ∀ state step steps,
      run state (step :: steps) = perform state step :: run (perform state step).2 steps)
    (state : State) (steps : List Step) :
    (calls perform state steps).map (fun call => (call.answer, call.after)) = run state steps := by
  induction steps generalizing state with
  | nil => rw [nil, calls, List.map_nil]
  | cons step steps ih => rw [cons, calls, List.map_cons, ih, Call.of]

end Sessions

end XoLang
