import DistributedNas.Library.Transition
import Mathlib.Logic.Function.Basic

namespace DistributedNas.Library

/-- The threads see these events of an object that they share. -/
inductive Interaction (Thread Request Answer : Type*) where
  | call (thread : Thread) (request : Request)
  | answer (thread : Thread) (answer : Answer)
  deriving DecidableEq, Repr

/-- A thread is outside the object, or its request has not taken effect yet, or it holds the answer. -/
inductive Standing (Request Answer : Type*) where
  | outside
  | called (request : Request)
  | answered (answer : Answer)
  deriving DecidableEq, Repr

/-- An atomic object has a content and the standing of each thread. -/
structure AtomicObject (Thread Content Request Answer : Type*) where
  content : Content
  standing : Thread → Standing Request Answer

/-- No thread has called the object yet. -/
def AtomicObject.initial {Thread Content Request Answer : Type*} (content : Content) :
    AtomicObject Thread Content Request Answer := ⟨content, fun _ => .outside⟩

/-- The events of a run are those that its steps show. -/
def history {State Input Event : Type*} (step : State → Input → Option State) (shows : State → Input → List Event) :
    State → List Input → List Event
  | _, [] => []
  | state, input :: rest =>
      shows state input ++
        match step state input with
        | none => []
        | some next => history step shows next rest

section
variable {Thread Content Request Answer : Type*} [DecidableEq Thread]

/-- This function moves one thread. -/
def AtomicObject.stand (object : AtomicObject Thread Content Request Answer) (thread : Thread)
    (standing : Standing Request Answer) : AtomicObject Thread Content Request Answer :=
  { object with standing := Function.update object.standing thread standing }

variable (allows : Content → Request → Answer → Content → Prop)

/-- Each request of these events takes effect at one moment between its call and its answer. -/
inductive Atomically : AtomicObject Thread Content Request Answer → List (Interaction Thread Request Answer) →
    AtomicObject Thread Content Request Answer → Prop
  | stop (object : AtomicObject Thread Content Request Answer) : Atomically object [] object
  | call {object final : AtomicObject Thread Content Request Answer}
      {later : List (Interaction Thread Request Answer)} (thread : Thread) (request : Request)
      (stands : object.standing thread = .outside)
      (continues : Atomically (object.stand thread (.called request)) later final) :
      Atomically object (.call thread request :: later) final
  | effect {object final : AtomicObject Thread Content Request Answer}
      {later : List (Interaction Thread Request Answer)} (thread : Thread) (request : Request) (answer : Answer)
      (content : Content) (stands : object.standing thread = .called request)
      (allowed : allows object.content request answer content)
      (continues : Atomically { object.stand thread (.answered answer) with content := content } later final) :
      Atomically object later final
  | answer {object final : AtomicObject Thread Content Request Answer}
      {later : List (Interaction Thread Request Answer)} (thread : Thread) (answer : Answer)
      (stands : object.standing thread = .answered answer)
      (continues : Atomically (object.stand thread .outside) later final) :
      Atomically object (.answer thread answer :: later) final

variable {allows} {object middle final : AtomicObject Thread Content Request Answer}

/-- The events after an atomic object's own events continue them. -/
theorem Atomically.append {first second : List (Interaction Thread Request Answer)}
    (begins : Atomically allows object first middle) (ends : Atomically allows middle second final) :
    Atomically allows object (first ++ second) final := by
  induction begins with
  | stop object => exact ends
  | call thread request stands continues ih => exact .call thread request stands (ih ends)
  | effect thread request answer content stands allowed continues ih =>
      exact .effect thread request answer content stands allowed (ih ends)
  | answer thread answer stands continues ih => exact .answer thread answer stands (ih ends)

/-- A machine whose steps an atomic object follows shows the events of the object in each run. -/
theorem atomically_of_run {State Input : Type*} {step : State → Input → Option State}
    {shows : State → Input → List (Interaction Thread Request Answer)}
    {Related : State → AtomicObject Thread Content Request Answer → Prop}
    (follows : ∀ state object input next, Related state object → step state input = some next →
      ∃ after, Atomically allows object (shows state input) after ∧ Related next after)
    {state last : State} {inputs : List Input} (start : Related state object)
    (reached : run step state inputs = some last) :
    ∃ final, Atomically allows object (history step shows state inputs) final ∧ Related last final := by
  induction inputs generalizing state object with
  | nil =>
      obtain rfl := Option.some.inj reached
      exact ⟨object, .stop object, start⟩
  | cons input rest ih =>
      obtain ⟨next, stepped, continued⟩ := run_cons_eq_some.mp reached
      obtain ⟨after, here, related⟩ := follows state object input next start stepped
      obtain ⟨final, later, ends⟩ := ih related continued
      refine ⟨final, ?_, ends⟩
      rw [history, stepped]
      exact here.append later

end

end DistributedNas.Library
