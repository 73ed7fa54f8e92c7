import DistributedNas.Buse.Refinement

/-
This file proves that the loops of `serve_nbd` stay inside their blocks on each stream of bytes.
-/

namespace DistributedNas.Buse
open Library Posix Proxy

/-- What a loop still transfers starts inside the block and reaches exactly to its end. -/
structure EndsAt (size : Nat) (window : Window) : Prop where
  start : 0 ≤ window.buf
  stop : window.buf + window.count = size

/-- Each loop of the server stands inside the block that it was given. -/
def ServePc.Contained (platform : Platform) : ServePc → Prop
  | .payload header _ window => EndsAt (ntohl platform.host header.len).toNat window
  | .send part later => ∀ other ∈ part :: later, EndsAt other.size other.window ∧ other.size < 2 ^ 32
  | _ => True

/-- A whole block is a contained part. -/
theorem endsAt_whole (size : Nat) : EndsAt size (.whole size) := ⟨Int.le_refl 0, Int.zero_add _⟩

section
variable {size : Nat} {window rest : Window} {result : Int}

/-- A loop that goes on stays inside its block, and the call moved no more than the window held. -/
theorem EndsAt.advance (ends : EndsAt size window) (bounded : size < 2 ^ 32) (lower : -1 ≤ result)
    (within : result ≤ window.count) (advanced : assertedAdvance window result = some rest) : EndsAt size rest := by
  obtain ⟨start, stop⟩ := ends
  obtain ⟨count, rfl, -, -, rfl⟩ := (assertedAdvance_eq_some (by omega) lower within).mp advanced
  constructor
  · show 0 ≤ window.buf + count
    omega
  · show window.buf + count + ((window.count - count : Nat) : Int) = size
    omega

end

section
variable {Device : Type*} {platform : Platform} {aop : BuseOperations Device} {fresh : Buffer}
  {server next : Server Device} {call : ServeCall} {request : NbdRequest} {chunk : Buffer}

/-- A payload that is still to be read is contained. -/
theorem contained_inPayload {window : Window} (ends : EndsAt (ntohl platform.host request.len).toNat window) :
    (ServePc.inPayload request chunk window).Contained platform := by
  unfold ServePc.inPayload
  split
  · trivial
  · exact ends

/-- Parts that are still to be written are contained. -/
theorem contained_sending {parts : List Part}
    (ends : ∀ part ∈ parts, EndsAt part.size part.window ∧ part.size < 2 ^ 32) :
    (ServePc.sending parts).Contained platform := by
  induction parts with
  | nil => trivial
  | cons part later ih =>
      unfold ServePc.sending
      split
      · exact ih fun other member => ends other (List.mem_cons_of_mem part member)
      · exact ends

/-- A header leads to a contained place. -/
theorem contained_received (memory : Buffer) (result : Int) :
    (ServePc.received platform fresh memory result).Contained platform := by
  unfold ServePc.received
  split
  · trivial
  · split
    · trivial
    · split
      · trivial
      · dsimp only
        split
        · trivial
        · split
          · exact contained_inPayload (endsAt_whole _)
          · trivial

/-- An operation ends the server, or it is answered with its reply and at most one block of the asked length. -/
theorem operate_cases {results : List Int}
    (operated : server.operate platform aop request chunk results = some next) :
    next.pc = .exit 0 ∨ next.pc = .aborted ∨ next.pc = .undefined ∨
      ∃ error parts, next.pc = .sending
          (.whole (.ofBytes (nbdReply platform.host error request.handle)) sizeofNbdReply :: parts) ∧
        ∀ part ∈ parts, ∃ filled, part = .whole filled (ntohl platform.host request.len).toNat := by
  have plain (error : UInt32) (device : Device) : (server.answer platform.host request error device []).pc =
      .sending [.whole (.ofBytes (nbdReply platform.host error request.handle)) sizeofNbdReply] := rfl
  cases operates_of_operate operated with
  | read results completion type called =>
      cases completion with
      | returned value device =>
          refine .inr (.inr (.inr ⟨_, _, rfl, fun part member => ?_⟩))
          exact ⟨value.2, List.mem_singleton.mp member⟩
      | aborted device => exact .inr (.inl rfl)
      | undefined => exact .inr (.inr (.inl rfl))
  | write results completion type called =>
      cases completion with
      | returned value device => exact .inr (.inr (.inr ⟨_, [], plain .., by simp⟩))
      | aborted device => exact .inr (.inl rfl)
      | undefined => exact .inr (.inr (.inl rfl))
  | disc type => exact .inl rfl
  | ignored type => exact .inr (.inr (.inr ⟨_, [], plain .., by simp⟩))
  | flush flush type given => exact .inr (.inr (.inr ⟨_, [], plain .., by simp⟩))
  | trim trim type given => exact .inr (.inr (.inr ⟨_, [], plain .., by simp⟩))
  | unknown other => exact .inr (.inl rfl)

/-- Each step of the server keeps its loops inside their blocks. -/
theorem contained_step (contained : server.pc.Contained platform) (moves : Moves platform aop fresh server call next) :
    next.pc.Contained platform := by
  cases moves with
  | request result atRequest outcome => exact contained_received _ result
  | payload request chunk window result atPayload remains outcome =>
      rw [atPayload] at contained
      obtain ⟨lower, within, -⟩ := readResult_bounds outcome
      show ServePc.Contained platform (Option.elim _ _ _)
      cases advanced : assertedAdvance window result with
      | none => trivial
      | some rest =>
          have ends : EndsAt (ntohl platform.host request.len).toNat window := contained
          exact contained_inPayload (ends.advance (ntohl platform.host request.len).toNat_lt lower within advanced)
  | operate request chunk results after atOperate operated =>
      rcases operate_cases operated with pc | pc | pc | ⟨error, parts, pc, blocks⟩
      · exact pc ▸ trivial
      · exact pc ▸ trivial
      · exact pc ▸ trivial
      · rw [pc]
        apply contained_sending
        intro part member
        rcases List.mem_cons.mp member with rfl | later
        · exact ⟨endsAt_whole _, (by decide : sizeofNbdReply < 2 ^ 32)⟩
        · obtain ⟨filled, rfl⟩ := blocks part later
          exact ⟨endsAt_whole _, (ntohl platform.host request.len).toNat_lt⟩
  | send part later result atSend remains outcome =>
      rw [atSend] at contained
      obtain ⟨lower, within⟩ := writeResult_bounds outcome
      obtain ⟨ends, bounded⟩ := contained part (List.mem_cons_self ..)
      show ServePc.Contained platform (Option.elim _ _ _)
      cases advanced : assertedAdvance part.window result with
      | none => trivial
      | some rest =>
          apply contained_sending
          intro other member
          rcases List.mem_cons.mp member with rfl | later
          · exact ⟨ends.advance bounded lower within advanced, bounded⟩
          · exact contained other (List.mem_cons_of_mem part later)

/-- On each stream of bytes the loops of the server stay inside the blocks that they were given. -/
theorem serve_contained {device : Device} {bytes : List UInt8} {calls : List ServeCall}
    (reached : run (serveStep platform aop fresh) (.initial device bytes) calls = some server) :
    server.pc.Contained platform :=
  run_invariant (fun state => state.pc.Contained platform)
    (fun _ _ _ contained stepped => contained_step contained (moves_of_serveStep stepped)) trivial reached

theorem serve_contained_smallSession : ∃ server,
    run (serveStep ⟨.littleEndian, false⟩ xmpOperations fun _ => 7)
      (.initial [1, 2, 3, 4] (smallSession.flatMap DeviceRequest.bytes)) (smallSessionCalls.take 2) = some server ∧
      server.pc.Contained ⟨.littleEndian, false⟩ := by
  obtain ⟨server, reached⟩ : ∃ server, run (serveStep ⟨.littleEndian, false⟩ xmpOperations fun _ => 7)
      (.initial [1, 2, 3, 4] (smallSession.flatMap DeviceRequest.bytes)) (smallSessionCalls.take 2) = some server :=
    Option.isSome_iff_exists.mp (by decide +kernel)
  exact ⟨server, reached, serve_contained reached⟩

end

end DistributedNas.Buse
