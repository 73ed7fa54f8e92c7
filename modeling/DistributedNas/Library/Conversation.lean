import Mathlib.Data.List.Basic
import Mathlib.Tactic

namespace DistributedNas.Library

/-- A responder answers each request with symbols and moves its state. -/
structure Responder (State Request Symbol : Type*) where
  answer : State → Request → List Symbol
  next : State → Request → State

namespace Responder
variable {State Request Symbol : Type*} (responder : Responder State Request Symbol)

/-- This is the state after some requests. -/
def states (start : State) (requests : List Request) : State := requests.foldl responder.next start

/-- The transcript of some requests is the sequence of their answers. -/
def transcript (start : State) : List Request → List Symbol
  | [] => []
  | request :: rest => responder.answer start request ++ transcript (responder.next start request) rest

@[simp] theorem states_nil (start : State) : responder.states start [] = start := rfl

@[simp] theorem transcript_nil (start : State) : responder.transcript start [] = [] := rfl

theorem states_append (start : State) (first second : List Request) :
    responder.states start (first ++ second) = responder.states (responder.states start first) second :=
  List.foldl_append

/-- The transcript of two lists is the one of the first list and then the one of the second. -/
theorem transcript_append (start : State) (first second : List Request) :
    responder.transcript start (first ++ second) =
      responder.transcript start first ++ responder.transcript (responder.states start first) second := by
  induction first generalizing start with
  | nil => rfl
  | cons request rest ih =>
      rw [List.cons_append, transcript, ih, transcript, List.append_assoc]
      rfl

/-- Each request of a list has a property in the state that the requests before it leave. -/
def Along (Holds : State → Request → Prop) (start : State) : List Request → Prop
  | [] => True
  | request :: rest => Holds start request ∧ Along Holds (responder.next start request) rest

theorem along_append (Holds : State → Request → Prop) (start : State) (first second : List Request) :
    responder.Along Holds start (first ++ second) ↔
      responder.Along Holds start first ∧ responder.Along Holds (responder.states start first) second := by
  induction first generalizing start with
  | nil => exact (iff_of_eq (true_and _)).symm
  | cons request rest ih =>
      rw [List.cons_append, Along, ih, Along, and_assoc]
      rfl

/-- The sent and the unsent symbols are the answers to the requests done, and the state is the one after them. -/
structure Answered (start : State) (done : List Request) (sent unsent : List Symbol) (state : State) : Prop where
  symbols : sent ++ unsent = responder.transcript start done
  state : state = responder.states start done

variable {responder} {start state : State} {done : List Request} {sent unsent : List Symbol}

/-- The next request adds its answer to the unsent symbols. -/
theorem Answered.answer (answered : responder.Answered start done sent unsent state) (request : Request) :
    responder.Answered start (done ++ [request]) sent (unsent ++ responder.answer state request)
      (responder.next state request) where
  symbols := by
    rw [transcript_append, ← answered.symbols, ← answered.state, transcript, transcript_nil, List.append_nil,
      List.append_assoc]
  state := by
    rw [states_append, ← answered.state]
    rfl

/-- A chunk of the unsent symbols is sent. -/
theorem Answered.send {chunk : List Symbol} (answered : responder.Answered start done sent (chunk ++ unsent) state) :
    responder.Answered start done (sent ++ chunk) unsent state where
  symbols := by rw [List.append_assoc, answered.symbols]
  state := answered.state

/-- The sent symbols begin the transcript of each list that begins with the requests done. -/
theorem Answered.isPrefix (answered : responder.Answered start done sent unsent state) (later : List Request) :
    sent <+: responder.transcript start (done ++ later) := by
  rw [transcript_append, ← answered.symbols, List.append_assoc]
  exact List.prefix_append _ _

end Responder

end DistributedNas.Library
