import DistributedNas.Buse.Progress

/-
This file proves that no client learns what stood in the memory that `malloc` gives to `serve_nbd`.
-/

namespace DistributedNas.Buse
open Library Posix Proxy

/-- Two buffers agree on the first bytes of their blocks. -/
def SameBelow (count : Nat) (first second : Buffer) : Prop :=
  ∀ place : Int, 0 ≤ place → place < count → first place = second place

section
variable {count : Nat} {first second : Buffer}

/-- A load from the agreed bytes gives the same bytes. -/
theorem SameBelow.load (same : SameBelow count first second) {address : Int} {length : Nat} (inside : 0 ≤ address)
    (within : address + length ≤ count) : first.load address length = second.load address length := by
  apply List.map_congr_left
  intro index member
  have before := List.mem_range.mp member
  exact same _ (by omega) (by omega)

/-- A store that starts at the end of the agreed bytes makes more bytes agree. -/
theorem SameBelow.store (same : SameBelow count first second) {address : Int} (bytes : List UInt8)
    (inside : 0 ≤ address) (joins : address ≤ count) :
    SameBelow (address.toNat + bytes.length) (first.store address bytes) (second.store address bytes) := by
  intro place above before
  by_cases late : address ≤ place
  · obtain ⟨index, rfl⟩ := Int.le.dest late
    have fits : index < bytes.length := by omega
    rw [Buffer.store_apply_inside first address bytes index fits,
      Buffer.store_apply_inside second address bytes index fits]
  · rw [Buffer.store_apply_outside first address bytes place (Or.inl (by omega)),
      Buffer.store_apply_outside second address bytes place (Or.inl (by omega))]
    exact same place above (by omega)

/-- A header is read from its bytes alone. -/
theorem SameBelow.ofMemory (host : Endian) (same : SameBelow sizeofNbdRequest first second) :
    NbdRequest.ofMemory host first = NbdRequest.ofMemory host second := by
  have word (address : Nat) (length : Nat) (inside : address + length ≤ sizeofNbdRequest) :
      first.load address length = second.load address length :=
    same.load (by omega) (by omega)
  have handle : (fun index : Fin 8 => first (8 + index.val)) = fun index : Fin 8 => second (8 + index.val) := by
    funext index
    exact same _ (by omega) (by simp only [sizeofNbdRequest]; omega)
  unfold NbdRequest.ofMemory
  rw [handle]
  congr 2
  · exact congrArg host.fromMemory (word 0 4 (by decide))
  · exact congrArg host.fromMemory (word 4 4 (by decide))
  · exact congrArg host.fromMemory (word 16 8 (by decide))
  · exact congrArg host.fromMemory (word 24 4 (by decide))

end

/-- Two calls of an operation end in one way, and the blocks that they filled agree. -/
inductive Completion.Alike {Device : Type*} (len : Nat) :
    Completion (Int32 × Buffer) Device → Completion (Int32 × Buffer) Device → Prop
  | returned (code : Int32) (first second : Buffer) (device : Device) (same : SameBelow len first second) :
      Alike len (.returned (code, first) device) (.returned (code, second) device)
  | aborted (device : Device) : Alike len (.aborted device) (.aborted device)
  | undefined : Alike len .undefined .undefined

/-- A read fills its whole block, and a write looks at no byte outside its block. -/
structure BuseOperations.Hides {Device : Type*} (aop : BuseOperations Device) : Prop where
  read : ∀ device first second len offset results completion,
    aop.read device first len offset results = some completion →
      ∃ other, aop.read device second len offset results = some other ∧ completion.Alike len.toNat other
  write : ∀ device first second len offset results, SameBelow len.toNat first second →
    aop.write device first len offset results = aop.write device second len offset results

/-- The operations of `busexmp` copy whole blocks. -/
theorem xmp_hides : xmpOperations.Hides where
  read := by
    intro data first second len offset results completion called
    change xmpRead data first len offset results = some completion at called
    show ∃ other, xmpRead data second len offset results = some other ∧ _
    unfold xmpRead at called ⊢
    split at called
    · cases called
    · next nothing =>
        rw [if_neg nothing]
        split at called
        · next inside =>
            obtain rfl := Option.some.inj called
            have filled : SameBelow 0 first second := fun place above below => absurd above (by omega)
            have same := filled.store (slice data offset.toNat len.toNat) (Int.le_refl 0) (Int.le_refl 0)
            rw [length_slice_of_le inside, Int.toNat_zero, Nat.zero_add] at same
            exact ⟨_, if_pos inside, .returned 0 _ _ data same⟩
        · next outside =>
            obtain rfl := Option.some.inj called
            exact ⟨_, if_neg outside, .undefined⟩
  write := by
    intro data first second len offset results same
    show xmpWrite data first len offset results = xmpWrite data second len offset results
    unfold xmpWrite
    rw [same.load (Int.le_refl 0) (by omega)]

section
variable {file : OpenFile} {first second : Buffer} {window : Window} {size : Nat} {results : List Int}

/-- The loop of `loopback_read` fills the rest of its block. -/
theorem loopbackReadLoop_alike (ends : EndsAt size window) (bounded : size < 2 ^ 32)
    (same : SameBelow window.buf.toNat first second) {completion : Completion (Int32 × Buffer) OpenFile}
    (looped : loopbackReadLoop file first window results = some completion) :
    ∃ other, loopbackReadLoop file second window results = some other ∧ completion.Alike size other := by
  induction results generalizing file first second window with
  | nil =>
      unfold loopbackReadLoop at looped ⊢
      split at looped
      · next empty =>
          obtain rfl := Option.some.inj looped
          obtain ⟨start, stop⟩ := ends
          have all : window.buf.toNat = size := by omega
          exact ⟨_, if_pos empty, .returned 0 _ _ file (all ▸ same)⟩
      · cases looped
  | cons result later ih =>
      unfold loopbackReadLoop at looped ⊢
      split at looped
      · next enabled =>
          obtain ⟨remains, outcome⟩ := enabled
          obtain ⟨lower, within, available⟩ := readResult_bounds outcome
          rw [if_pos ⟨remains, outcome⟩]
          dsimp only at looped ⊢
          cases advanced : assertedAdvance window result with
          | none =>
              simp only [advanced] at looped ⊢
              split at looped
              · next last =>
                  obtain rfl := Option.some.inj looped
                  exact ⟨_, if_pos last, .aborted file⟩
              · cases looped
          | some rest =>
              simp only [advanced] at looped ⊢
              have after := ends.advance bounded lower within advanced
              obtain ⟨start, stop⟩ := ends
              obtain ⟨count, rfl, positive, -, rfl⟩ :=
                (assertedAdvance_eq_some (by omega) lower within).mp advanced
              have joins : window.buf ≤ (window.buf.toNat : Int) := by omega
              have more := same.store (file.readBytes count).1 start joins
              have width : (file.readBytes count).1.length = count :=
                length_slice_of_le (by omega)
              have place : (window.buf + (count : Int)).toNat = window.buf.toNat + count := by omega
              rw [width, ← place] at more
              exact ih after more looped
      · cases looped

/-- The loop of `loopback_write` looks at no byte outside its block. -/
theorem loopbackWriteLoop_alike (ends : EndsAt size window) (bounded : size < 2 ^ 32)
    (same : SameBelow size first second) :
    loopbackWriteLoop file first window results = loopbackWriteLoop file second window results := by
  induction results generalizing file window with
  | nil => rfl
  | cons result later ih =>
      unfold loopbackWriteLoop
      split
      · next enabled =>
          obtain ⟨lower, within⟩ := writeResult_bounds enabled.2.1
          have piece : first.load window.buf result.toNat = second.load window.buf result.toNat := by
            apply same.load ends.start
            have stop := ends.stop
            omega
          dsimp only
          rw [piece]
          cases advanced : assertedAdvance window result with
          | none => rfl
          | some rest => exact ih (ends.advance bounded lower within advanced)
      · rfl

end

/-- The operations of `loopback` move whole blocks. -/
theorem loopback_hides : loopbackOperations.Hides where
  read := by
    intro file first second len offset results completion called
    have nothing : SameBelow 0 first second := fun place above below => absurd above (by omega)
    exact loopbackReadLoop_alike (endsAt_whole _) len.toNat_lt nothing called
  write := by
    intro file first second len offset results same
    exact loopbackWriteLoop_alike (endsAt_whole _) len.toNat_lt same

/-- Two parts differ at most outside their blocks. -/
structure SamePart (part other : Part) : Prop where
  size : other.size = part.size
  window : other.window = part.window
  memory : SameBelow part.size part.memory other.memory

/-- Two servers stand at one place, and their blocks agree where they are filled. -/
inductive Twins (platform : Platform) : ServePc → ServePc → Prop
  | request : Twins platform .request .request
  | payload (header : NbdRequest) (first second : Buffer) (window : Window)
      (same : SameBelow window.buf.toNat first second) :
      Twins platform (.payload header first window) (.payload header second window)
  | operate (header : NbdRequest) (first second : Buffer)
      (same : ntohl platform.host header.type = nbdCmdWrite →
        SameBelow (ntohl platform.host header.len).toNat first second) :
      Twins platform (.operate header first) (.operate header second)
  | send (part other : Part) (later others : List Part)
      (same : List.Forall₂ SamePart (part :: later) (other :: others)) :
      Twins platform (.send part later) (.send other others)
  | exit (status : Nat) : Twins platform (.exit status) (.exit status)
  | aborted : Twins platform .aborted .aborted
  | undefined : Twins platform .undefined .undefined

/-- Two servers have the same traffic and the same device, and they are at the same place. -/
structure Alike {Device : Type*} (platform : Platform) (server twin : Server Device) : Prop where
  pending : twin.pending = server.pending
  sent : twin.sent = server.sent
  device : twin.device = server.device
  pc : Twins platform server.pc twin.pc
  contained : server.pc.Contained platform

section
variable {Device : Type*} {platform : Platform} {aop : BuseOperations Device} {fresh other : Buffer}
  {server next twin : Server Device} {call : ServeCall}

/-- The loops that read a payload end together. -/
theorem twins_inPayload {header : NbdRequest} {first second : Buffer} {window : Window}
    (ends : EndsAt (ntohl platform.host header.len).toNat window) (same : SameBelow window.buf.toNat first second) :
    Twins platform (.inPayload header first window) (.inPayload header second window) := by
  unfold ServePc.inPayload
  split
  · next empty =>
      obtain ⟨start, stop⟩ := ends
      have all : window.buf.toNat = (ntohl platform.host header.len).toNat := by omega
      exact .operate header first second fun _ => all ▸ same
  · exact .payload header first second window same

/-- The loops that write answers end together. -/
theorem twins_sending {parts others : List Part} (same : List.Forall₂ SamePart parts others) :
    Twins platform (.sending parts) (.sending others) := by
  induction same with
  | nil => exact .request
  | @cons part other later others first rest ih =>
      unfold ServePc.sending
      rw [first.window]
      split
      · exact ih
      · exact .send part other later others (.cons first rest)

/-- One header leads both servers to one place. -/
theorem twins_received {bytes : List UInt8} {result : Int}
    (whole : result = sizeofNbdRequest → bytes.length = sizeofNbdRequest) :
    Twins platform (.received platform fresh (fresh.store 0 bytes) result)
      (.received platform other (other.store 0 bytes) result) := by
  have nothing : SameBelow 0 fresh other := fun place above below => absurd above (by omega)
  unfold ServePc.received
  split
  · exact .exit 1
  · split
    · exact .exit 0
    · split
      · exact .aborted
      · next complete =>
          have same := nothing.store bytes (Int.le_refl 0) (Int.le_refl 0)
          rw [whole (not_not.mp complete), Int.toNat_zero, Nat.zero_add] at same
          rw [same.ofMemory]
          dsimp only
          split
          · exact .aborted
          · split
            · exact twins_inPayload (endsAt_whole _) nothing
            · next notWrite => exact .operate _ _ _ fun writes => absurd writes notWrite

/-- Both servers answer a request with parts that agree. -/
theorem alike_answer (alike : Alike platform server twin) (header : NbdRequest) (error : UInt32) (device : Device)
    {parts others : List Part} (same : List.Forall₂ SamePart parts others)
    (ends : ∀ part ∈ parts, EndsAt part.size part.window ∧ part.size < 2 ^ 32) :
    Alike platform (server.answer platform.host header error device parts)
      (twin.answer platform.host header error device others) where
  pending := alike.pending
  sent := alike.sent
  device := rfl
  pc := twins_sending (.cons ⟨rfl, rfl, fun _ _ _ => rfl⟩ same)
  contained := by
    apply contained_sending
    intro part member
    rcases List.mem_cons.mp member with rfl | later
    · exact ⟨endsAt_whole _, (by decide : sizeofNbdReply < 2 ^ 32)⟩
    · exact ends part later

/-- The operation of a request keeps two servers alike. -/
theorem alike_operate (hides : aop.Hides) (alike : Alike platform server twin) {header : NbdRequest}
    {first second : Buffer}
    (same : ntohl platform.host header.type = nbdCmdWrite →
      SameBelow (ntohl platform.host header.len).toNat first second) {results : List Int}
    (operated : server.operate platform aop header first results = some next) :
    ∃ after, twin.operate platform aop header second results = some after ∧ Alike platform next after := by
  have plain (error : UInt32) (device : Device) :=
    alike_answer alike header error device List.Forall₂.nil (by simp)
  have pending := alike.pending
  have sent := alike.sent
  have device := alike.device
  cases operates_of_operate operated with
  | read results completion type called =>
      rw [← device] at called
      obtain ⟨another, calls, same⟩ := hides.read _ _ second _ _ _ _ called
      refine ⟨_, (Operates.read results another type calls).operate, ?_⟩
      cases same with
      | returned code block filled reached same =>
          apply alike_answer alike
          · exact .cons ⟨rfl, rfl, same⟩ .nil
          · intro part member
            obtain rfl := List.mem_singleton.mp member
            exact ⟨endsAt_whole _, (ntohl platform.host header.len).toNat_lt⟩
      | aborted reached => exact ⟨pending, sent, rfl, .aborted, trivial⟩
      | undefined => exact ⟨pending, sent, device, .undefined, trivial⟩
  | write results completion type called =>
      rw [← device, hides.write _ first second _ _ _ (same type)] at called
      refine ⟨_, (Operates.write results completion type called).operate, ?_⟩
      cases completion with
      | returned code reached => exact plain _ reached
      | aborted reached => exact ⟨pending, sent, rfl, .aborted, trivial⟩
      | undefined => exact ⟨pending, sent, device, .undefined, trivial⟩
  | disc type =>
      refine ⟨_, (Operates.disc type).operate, pending, sent, ?_, .exit 0, trivial⟩
      show aop.disc.elim twin.device _ = aop.disc.elim server.device _
      rw [device]
  | ignored type =>
      refine ⟨_, (Operates.ignored type).operate, ?_⟩
      rw [device]
      exact plain _ _
  | flush flush type given =>
      refine ⟨_, (Operates.flush flush type given).operate, ?_⟩
      rw [device]
      exact plain _ _
  | trim trim type given =>
      refine ⟨_, (Operates.trim trim type given).operate, ?_⟩
      rw [device]
      exact plain _ _
  | unknown other => exact ⟨_, (Operates.unknown other).operate, pending, sent, device, .aborted, trivial⟩

/-- The second server can follow each step of the first one. -/
theorem alike_step (hides : aop.Hides) (alike : Alike platform server twin)
    (stepped : serveStep platform aop fresh server call = some next) :
    ∃ after, serveStep platform aop other twin call = some after ∧ Alike platform next after := by
  have moves := moves_of_serveStep stepped
  have inside := contained_step alike.contained moves
  obtain ⟨pending, sent, device, pc, contained⟩ := alike
  cases moves with
  | request result atRequest outcome =>
      rw [atRequest] at pc
      generalize place : twin.pc = following at pc
      cases pc with
      | request =>
          refine ⟨_, (Moves.request result place (pending ▸ outcome)).serveStep, ?_⟩
          refine ⟨by rw [pending], sent, device, ?_, inside⟩
          rw [pending]
          apply twins_received
          rintro rfl
          have available := (readResult_bounds outcome).2.2
          rw [List.length_take, Int.toNat_natCast]
          omega
  | payload header chunk window result atPayload remains outcome =>
      rw [atPayload] at pc contained
      generalize place : twin.pc = following at pc
      cases pc with
      | payload _ _ second _ same =>
          refine ⟨_, (Moves.payload header second window result place remains (pending ▸ outcome)).serveStep, ?_⟩
          refine ⟨by rw [pending], sent, device, ?_, inside⟩
          rw [pending]
          obtain ⟨lower, within, available⟩ := readResult_bounds outcome
          have ends : EndsAt (ntohl platform.host header.len).toNat window := contained
          show Twins platform (Option.elim _ _ _) (Option.elim _ _ _)
          cases advanced : assertedAdvance window result with
          | none => exact .aborted
          | some rest =>
              have bounded := (ntohl platform.host header.len).toNat_lt
              have after := ends.advance bounded lower within advanced
              obtain ⟨start, stop⟩ := ends
              obtain ⟨count, rfl, positive, -, rfl⟩ := (assertedAdvance_eq_some (by omega) lower within).mp advanced
              have more := same.store (server.pending.take count) start (by omega)
              have width : (server.pending.take count).length = count := by
                rw [List.length_take]
                omega
              have grown : (window.buf + (count : Int)).toNat = window.buf.toNat + count := by omega
              rw [width, ← grown] at more
              exact twins_inPayload after more
  | operate header chunk results after atOperate operated =>
      rw [atOperate] at pc
      generalize place : twin.pc = following at pc
      cases pc with
      | operate _ _ second same =>
          obtain ⟨reached, operates, alike⟩ := alike_operate hides
            ⟨pending, sent, device, by rw [atOperate, place]; exact .operate header chunk second same, contained⟩ same
            operated
          exact ⟨reached, (Moves.operate header second results reached place operates).serveStep, alike⟩
  | send part later result atSend remains outcome =>
      rw [atSend] at pc contained
      generalize place : twin.pc = following at pc
      cases pc with
      | send _ copy _ copies same =>
          obtain ⟨first, rest⟩ := List.forall₂_cons.mp same
          obtain ⟨lower, within⟩ := writeResult_bounds outcome
          obtain ⟨ends, bounded⟩ := contained part (List.mem_cons_self ..)
          have moved : part.memory.load part.window.buf result.toNat =
              copy.memory.load part.window.buf result.toNat := by
            apply first.memory.load ends.start
            have stop := ends.stop
            omega
          have same := first.window
          refine ⟨_, (Moves.send copy copies result place (by rwa [same]) (by rwa [same])).serveStep, ?_⟩
          refine ⟨pending, by rw [sent, moved, first.window], device, ?_, inside⟩
          rw [first.window]
          show Twins platform (Option.elim _ _ _) (Option.elim _ _ _)
          cases advanced : assertedAdvance part.window result with
          | none => exact .aborted
          | some window => exact twins_sending (.cons ⟨first.size, rfl, first.memory⟩ rest)

end

/-- A server makes its calls, and memory that it allocates in a call has the contents given with this call. -/
def allocatingStep {Device : Type*} (platform : Platform) (aop : BuseOperations Device) (server : Server Device)
    (step : Buffer × ServeCall) : Option (Server Device) :=
  serveStep platform aop step.1 server step.2

/-- The read or the write at hand lies inside a device of this size. -/
def InMemory {Device : Type*} (platform : Platform) (size : Nat) (server : Server Device) : Prop :=
  ∀ request chunk, server.pc = .operate request chunk →
    ntohl platform.host request.type = nbdCmdRead ∨ ntohl platform.host request.type = nbdCmdWrite →
      (platform.ntohll request.fromOffset).toNat + (ntohl platform.host request.len).toNat ≤ size

instance {Device : Type*} (platform : Platform) (size : Nat) (server : Server Device) :
    Decidable (InMemory platform size server) :=
  match place : server.pc with
  | .operate request _ =>
      decidable_of_iff (ntohl platform.host request.type = nbdCmdRead ∨ ntohl platform.host request.type = nbdCmdWrite →
        (platform.ntohll request.fromOffset).toNat + (ntohl platform.host request.len).toNat ≤ size)
        (by simp [InMemory, place])
  | .request | .payload .. | .send .. | .exit _ | .aborted | .undefined => isTrue (by simp [InMemory, place])

/-- Each run of a server whose accesses stay inside can be repeated with all other contents of the fresh memory. -/
def Hidden {Device : Type*} (platform : Platform) (aop : BuseOperations Device) (device : Device)
    (Inside : Server Device → Prop) : Prop :=
  ∀ (bytes : List UInt8) (steps others : List (Buffer × ServeCall)) (server : Server Device),
    run (allocatingStep platform aop) (.initial device bytes) steps = some server →
    Meets (allocatingStep platform aop) (fun state _ => Inside state) (.initial device bytes) steps →
    others.map Prod.snd = steps.map Prod.snd →
      ∃ twin, run (allocatingStep platform aop) (.initial device bytes) others = some twin ∧
        twin.sent = server.sent ∧ twin.device = server.device ∧ twin.pending = server.pending ∧
        twin.pc ≠ .undefined

section
variable {Device : Type*} {platform : Platform} {aop : BuseOperations Device} {fresh : Buffer}
  {server next : Server Device} {call : ServeCall} {request : NbdRequest} {chunk : Buffer}

/-- Two servers at one place are both undefined or both defined. -/
theorem Twins.ne_undefined {first second : ServePc} (twins : Twins platform first second) (defined : first ≠ .undefined) :
    second ≠ .undefined := by
  cases twins with
  | undefined => exact absurd rfl defined
  | _ => nofun

theorem sending_ne_undefined (parts : List Part) : ServePc.sending parts ≠ .undefined :=
  (ServePc.ne_of_live (ServePc.sending_live parts).1).2

/-- The loops of the server are defined, whatever their calls return. -/
theorem ne_undefined_of_moves (moves : Moves platform aop fresh server call next)
    (operates : ∀ request chunk results, server.pc = .operate request chunk →
      server.operate platform aop request chunk results = some next → next.pc ≠ .undefined) :
    next.pc ≠ .undefined := by
  have payload (request : NbdRequest) (chunk : Buffer) (window : Window) :
      ServePc.inPayload request chunk window ≠ .undefined :=
    (ServePc.ne_of_live (ServePc.inPayload_live request chunk window)).2
  cases moves with
  | request result atRequest outcome =>
      show ServePc.received _ _ _ _ ≠ _
      unfold ServePc.received
      split
      · nofun
      · split
        · nofun
        · split
          · nofun
          · dsimp only
            split
            · nofun
            · split
              · exact payload _ _ _
              · nofun
  | payload request chunk window result atPayload remains outcome =>
      show Option.elim _ _ _ ≠ ServePc.undefined
      cases assertedAdvance window result with
      | none => nofun
      | some rest => exact payload _ _ _
  | operate request chunk results after atOperate operated => exact operates request chunk results atOperate operated
  | send part later result atSend remains outcome =>
      show Option.elim _ _ _ ≠ ServePc.undefined
      cases assertedAdvance part.window result with
      | none => nofun
      | some rest => exact sending_ne_undefined _

/-- An operation is defined if its read and its write are. -/
theorem operate_ne_undefined {results : List Int}
    (read : ntohl platform.host request.type = nbdCmdRead → aop.read server.device chunk (ntohl platform.host request.len)
      (platform.ntohll request.fromOffset) results ≠ some .undefined)
    (write : ntohl platform.host request.type = nbdCmdWrite →
      aop.write server.device chunk (ntohl platform.host request.len) (platform.ntohll request.fromOffset) results ≠
        some .undefined)
    (operated : server.operate platform aop request chunk results = some next) : next.pc ≠ .undefined := by
  cases operates_of_operate operated with
  | read results completion type called =>
      cases completion with
      | returned value device => exact sending_ne_undefined _
      | aborted device => nofun
      | undefined => exact absurd called (read type)
  | write results completion type called =>
      cases completion with
      | returned value device => exact sending_ne_undefined _
      | aborted device => nofun
      | undefined => exact absurd called (write type)
  | disc type => nofun
  | ignored type => exact sending_ne_undefined _
  | flush flush type given => exact sending_ne_undefined _
  | trim trim type given => exact sending_ne_undefined _
  | unknown other => nofun

/-- Operations that fill and keep to their blocks hide the fresh memory. -/
theorem BuseOperations.Hides.hidden (hides : aop.Hides) {device : Device} {Inside : Server Device → Prop}
    (defined : ∀ (bytes : List UInt8) (steps : List (Buffer × ServeCall)) (server : Server Device),
      run (allocatingStep platform aop) (.initial device bytes) steps = some server →
      Meets (allocatingStep platform aop) (fun state _ => Inside state) (.initial device bytes) steps →
        server.pc ≠ .undefined) : Hidden platform aop device Inside := by
  intro bytes steps others server reached inside same
  have start : Alike platform (Server.initial device bytes) (Server.initial device bytes) :=
    ⟨rfl, rfl, rfl, .request, trivial⟩
  have matched : List.Forall₂ (fun step other : Buffer × ServeCall => step.2 = other.2) steps others := by
    rw [← List.forall₂_map_right_iff, ← List.forall₂_map_left_iff, List.forall₂_eq_eq_eq]
    exact same.symm
  have follows (state twin : Server Device) (step other : Buffer × ServeCall) (next : Server Device)
      (alike : Alike platform state twin) (call : step.2 = other.2)
      (stepped : allocatingStep platform aop state step = some next) :
      ∃ after, allocatingStep platform aop twin other = some after ∧ Alike platform next after := by
    unfold allocatingStep at stepped ⊢
    rw [← call]
    exact alike_step hides alike stepped
  obtain ⟨twin, ran, alike⟩ := exists_run_of_matching follows matched start reached
  exact ⟨twin, ran, alike.sent, alike.device, alike.pending,
    alike.pc.ne_undefined (defined bytes steps server reached inside)⟩

end

section
variable {platform : Platform}

/-- An operation of `busexmp` keeps the size of its block. -/
theorem length_of_operate {server next : Server Xmp} {request : NbdRequest} {chunk : Buffer} {results : List Int}
    (operated : server.operate platform xmpOperations request chunk results = some next) :
    List.length next.device = List.length server.device := by
  cases operates_of_operate operated with
  | read results completion type called =>
      change xmpRead _ _ _ _ _ = _ at called
      unfold xmpRead at called
      split at called
      · cases called
      · split at called
        · obtain rfl := Option.some.inj called
          rfl
        · obtain rfl := Option.some.inj called
          rfl
  | write results completion type called =>
      change xmpWrite _ _ _ _ _ = _ at called
      unfold xmpWrite at called
      split at called
      · cases called
      · split at called
        · next inside =>
            obtain rfl := Option.some.inj called
            exact length_overwrite_of_le 0 (by rwa [Buffer.length_load])
        · obtain rfl := Option.some.inj called
          rfl
  | disc type => rfl
  | ignored type => rfl
  | flush flush type given =>
      obtain rfl := Option.some.inj given
      rfl
  | trim trim type given =>
      obtain rfl := Option.some.inj given
      rfl
  | unknown other => rfl

/-- A run of `busexmp` whose accesses stay inside its block is defined. -/
theorem xmp_defined {data : Xmp} {bytes : List UInt8} {steps : List (Buffer × ServeCall)} {server : Server Xmp}
    (reached : run (allocatingStep platform xmpOperations) (.initial data bytes) steps = some server)
    (inside : Meets (allocatingStep platform xmpOperations)
      (fun state _ => InMemory platform data.length state) (.initial data bytes) steps) :
    server.pc ≠ .undefined := by
  let Holds (state : Server Xmp) : Prop := state.pc ≠ .undefined ∧ List.length state.device = data.length
  have start : Holds (.initial data bytes) := ⟨nofun, rfl⟩
  refine (run_invariant_of_meets Holds ?_ start inside reached).1
  rintro state ⟨contents, call⟩ next holds here stepped
  have moves := moves_of_serveStep stepped
  constructor
  · refine ne_undefined_of_moves moves fun request chunk results place operated => ?_
    have range := here request chunk place
    rw [← holds.2] at range
    refine operate_ne_undefined (fun type called => ?_) (fun type called => ?_) operated
    · change xmpRead _ _ _ _ _ = _ at called
      unfold xmpRead at called
      split at called
      · cases called
      · rw [if_pos (range (.inl type))] at called
        cases called
    · change xmpWrite _ _ _ _ _ = _ at called
      unfold xmpWrite at called
      split at called
      · cases called
      · rw [if_pos (range (.inr type))] at called
        cases called
  · rw [← holds.2]
    cases moves with
    | operate request chunk results after place operated => exact length_of_operate operated
    | _ => rfl

/-- The loops of `loopback` are defined on each range. -/
theorem loopback_defined {file : OpenFile} {bytes : List UInt8} {steps : List (Buffer × ServeCall)}
    {server : Server OpenFile}
    (reached : run (allocatingStep platform loopbackOperations) (.initial file bytes) steps = some server) :
    server.pc ≠ .undefined := by
  refine run_invariant (fun state : Server OpenFile => state.pc ≠ .undefined) ?_ (by simp [Server.initial]) reached
  intro state step next _ stepped
  refine ne_undefined_of_moves (moves_of_serveStep stepped) fun request chunk results place operated => ?_
  refine operate_ne_undefined (fun _ called => ?_) (fun _ called => ?_) operated
  · exact loopbackReadLoop_ends (ntohl platform.host request.len).toNat_lt called
  · exact loopbackWriteLoop_ends (ntohl platform.host request.len).toNat_lt called

end

end DistributedNas.Buse
