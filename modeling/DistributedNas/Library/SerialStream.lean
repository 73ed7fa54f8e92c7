import Mathlib.Data.List.Nodup
import Mathlib.Data.List.Perm.Lattice
import Mathlib.Tactic

namespace DistributedNas.Library

/-- A serial stream grows only by the chunks of the one writer that holds it. -/
structure SerialStream (Writer Symbol : Type*) where
  stream : List Symbol
  holder : Option (Writer × List Symbol)
  finished : List Writer

namespace SerialStream
variable {Writer Symbol : Type*} {message : Writer → List Symbol}

/-- A stream starts empty with no holder. -/
def initial : SerialStream Writer Symbol := ⟨[], none, []⟩

/-- A writer takes the stream once, emits its message in chunks, and gives the stream back. -/
inductive Step (message : Writer → List Symbol) :
    SerialStream Writer Symbol → SerialStream Writer Symbol → Prop where
  | acquire {stream : List Symbol} {finished : List Writer} (writer : Writer)
      (fresh : writer ∉ finished) :
      Step message ⟨stream, none, finished⟩ ⟨stream, some (writer, message writer), finished⟩
  | emit {stream : List Symbol} {finished : List Writer} (writer : Writer) (chunk rest : List Symbol) :
      Step message ⟨stream, some (writer, chunk ++ rest), finished⟩
        ⟨stream ++ chunk, some (writer, rest), finished⟩
  | release {stream : List Symbol} {finished : List Writer} (writer : Writer) :
      Step message ⟨stream, some (writer, []), finished⟩ ⟨stream, none, finished ++ [writer]⟩

/-- The writers that took the stream, in the order in which they took it. -/
def order (state : SerialStream Writer Symbol) : List Writer :=
  state.finished ++ (state.holder.map Prod.fst).toList

/-- The symbols that the holder still has to emit. -/
def pending (state : SerialStream Writer Symbol) : List Symbol :=
  (state.holder.map Prod.snd).getD []

/-- The stream and the pending symbols are the whole messages of the writers in order. -/
structure Whole (message : Writer → List Symbol) (state : SerialStream Writer Symbol) : Prop where
  distinct : state.order.Nodup
  messages : state.stream ++ state.pending = state.order.flatMap message

theorem whole_initial : Whole message (initial : SerialStream Writer Symbol) :=
  ⟨List.nodup_nil, rfl⟩

/-- Each step keeps the messages whole. -/
theorem Whole.step {before after : SerialStream Writer Symbol} (whole : Whole message before)
    (stepped : Step message before after) : Whole message after := by
  obtain ⟨distinct, messages⟩ := whole
  cases stepped with
  | acquire writer fresh =>
      simp only [order, pending, Option.map_none, Option.toList_none, List.append_nil,
        Option.getD_none] at distinct messages
      constructor
      · simpa [order, List.nodup_append] using ⟨distinct, fun other member same => fresh (same ▸ member)⟩
      · simp [order, pending, messages]
  | emit writer chunk rest =>
      refine ⟨distinct, ?_⟩
      simpa [order, pending] using messages
  | release writer => exact ⟨by simpa [order] using distinct, by simpa [order, pending] using messages⟩

/-- The stream is a prefix of the whole messages of any list that starts with the order so far. -/
theorem Whole.isPrefix {state : SerialStream Writer Symbol} (whole : Whole message state)
    (later : List Writer) : state.stream <+: (state.order ++ later).flatMap message := by
  rw [List.flatMap_append, ← whole.messages, List.append_assoc]
  exact List.prefix_append _ _

end SerialStream

end DistributedNas.Library
