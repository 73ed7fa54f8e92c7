import DistributedNas.Storage.Honesty

/-
This file shows when the loops `read_all` and `write_all` stay inside their buffer.
-/

namespace DistributedNas.Storage
open Library Posix Proxy

/-- Both loops keep the result of a call in an `int`. -/
def bytesMoved (result : Int) : Int := (Int32.ofInt result).toInt

/-- This is the total of the results as the loop adds them up. -/
def moved (results : List Int) : Int := (results.map bytesMoved).sum

/-- An iteration passes its window to the system call, which fails or moves at least one byte. -/
def transferStep (window : Window) (result : Int) : Option Window :=
  if window.count ≠ 0 ∧ WriteResult window.count result then some (window.advance result) else none

/-- A window that is passed to a call lies inside the buffer. -/
def Inside (count : Nat) (window : Window) : Prop :=
  window.count ≠ 0 → 0 ≤ window.buf ∧ window.buf + window.count ≤ count

/-- Each window lies inside the buffer, and a loop that ends has moved each byte once and in order. -/
structure StaysInside (count : Nat) (results : List Int) : Prop where
  inside : Throughout transferStep (Inside count) (.whole count) results
  complete : ∀ final, run transferStep (.whole count) results = some final → final.count = 0 →
    addresses (.whole count) results = (List.range count).map fun index : Nat => (index : Int)

/-- No total of the first results is negative, and only small successes make up the whole count. -/
structure Careful (count : Nat) (results : List Int) : Prop where
  enough : ∀ length ≤ results.length, 0 ≤ moved (results.take length)
  whole : moved results = count → ∀ result ∈ results, 1 ≤ result ∧ result < 2 ^ 31

instance (count : Nat) (results : List Int) : Decidable (Careful count results) :=
  decidable_of_iff
    ((∀ length ≤ results.length, 0 ≤ moved (results.take length)) ∧
      (moved results = count → ∀ result ∈ results, 1 ≤ result ∧ result < 2 ^ 31))
    ⟨fun parts => ⟨parts.1, parts.2⟩, fun careful => ⟨careful.enough, careful.whole⟩⟩

/-- The result does not move the pointer before the start of the buffer. -/
def Forward (window : Window) (result : Int) : Prop := 0 ≤ window.buf + bytesMoved result

/-- The loop has moved some bytes from the start of the buffer and goes on with the others. -/
def Partway (count : Nat) (window : Window) : Prop :=
  ∃ done ≤ count, window = ⟨(done : Nat), count - done⟩

section
variable {count : Nat} {window next final : Window} {result : Int} {results : List Int}

@[simp] theorem moved_nil : moved [] = 0 := rfl

@[simp] theorem moved_cons (result : Int) (results : List Int) :
    moved (result :: results) = bytesMoved result + moved results := rfl

theorem bytesMoved_eq (result : Int) : bytesMoved result = result.bmod (2 ^ 32) := Int32.toInt_ofInt

/-- An `int` never exceeds the bytes that were moved, and equals them only for a small success. -/
theorem bytesMoved_spec (outcome : result = -1 ∨ 1 ≤ result) :
    bytesMoved result ≤ result.toNat ∧ -2 ^ 31 ≤ bytesMoved result ∧
      (bytesMoved result = result.toNat ↔ 1 ≤ result ∧ result < 2 ^ 31) := by
  rw [bytesMoved_eq, Int.bmod_def]
  split <;> omega

/-- Each step is a failed call or one that moves bytes of the window. -/
theorem transferStep_eq_some (stepped : transferStep window result = some next) :
    WriteResult window.count result ∧ next = window.advance result := by
  unfold transferStep at stepped
  split at stepped
  · next enabled => exact ⟨enabled.2, (Option.some.inj stepped).symm⟩
  · cases stepped

/-- An iteration of `write_all` moves the window this way. -/
theorem map_writeIteration (file : OpenFile) (memory : Buffer) (window : Window) (result : Int) :
    (writeIteration file memory window result).map Prod.snd = transferStep window result := by
  unfold writeIteration transferStep
  split <;> rfl

/-- An iteration of `write_all` on a socket moves the window this way. -/
theorem map_sendIteration (stream : List UInt8) (memory : Buffer) (window : Window) (result : Int) :
    (sendIteration stream memory window result).map Prod.snd = transferStep window result := by
  unfold sendIteration transferStep
  split <;> rfl

/-- An iteration of `read_all` moves the window this way before the end of the file. -/
theorem transferStep_of_readIteration {file later : OpenFile} {memory stored : Buffer} (more : result ≠ 0)
    (stepped : readIteration file memory window result = some (later, stored, next)) :
    transferStep window result = some next := by
  unfold readIteration at stepped
  split at stepped
  · next enabled =>
      obtain ⟨remains, outcome⟩ := enabled
      have possible : WriteResult window.count result := by
        rcases outcome with failed | ⟨positive, within, -⟩ | ⟨ended, -⟩
        · exact Or.inl failed
        · exact Or.inr ⟨positive, within⟩
        · exact absurd ended more
      simp only [Option.some.injEq, Prod.mk.injEq] at stepped
      rw [transferStep, if_pos ⟨remains, possible⟩, stepped.2.2]
  · cases stepped

/-- The loop of an operation on the memory file moves its window this way. -/
theorem run_transferStep_of_accessRun {access : Access} {state last : AccessState} (atLoop : state.pc = .loop window)
    (more : ∀ result ∈ results, result ≠ 0)
    (reached : run (accessStep access) state (results.map .transfer) = some last) :
    ∃ rest, last.pc = .loop rest ∧ run transferStep window results = some rest := by
  induction results generalizing state window with
  | nil => exact ⟨window, (Option.some.inj reached) ▸ atLoop, rfl⟩
  | cons result rest ih =>
      obtain ⟨middle, stepped, continued⟩ := run_cons_eq_some.mp reached
      obtain ⟨here, others⟩ := List.forall_mem_cons.mp more
      have ⟨moved, place, transferred⟩ :
          ∃ moved, middle.pc = .loop moved ∧ transferStep window result = some moved := by
        simp only [accessStep, atLoop] at stepped
        cases access with
        | read =>
            obtain ⟨⟨file, memory, moved⟩, iterated, rfl⟩ := Option.map_eq_some_iff.mp stepped
            exact ⟨moved, rfl, transferStep_of_readIteration here iterated⟩
        | write =>
            obtain ⟨⟨file, moved⟩, iterated, rfl⟩ := Option.map_eq_some_iff.mp stepped
            exact ⟨moved, rfl, by rw [← map_writeIteration, iterated]; rfl⟩
      obtain ⟨last, ended, later⟩ := ih place others continued
      exact ⟨last, ended, run_cons_eq_some.mpr ⟨moved, transferred, later⟩⟩

/-- The result of a step from partway becomes the count without a wrap-around. -/
theorem advance_partway (object : count < 2 ^ 63) {done : Nat} (within : done ≤ count)
    (outcome : WriteResult (count - done) result) :
    (⟨(done : Nat), count - done⟩ : Window).advance result =
        ⟨done + bytesMoved result, (count - (done + bytesMoved result)).toNat⟩ ∧
      done + bytesMoved result ≤ count := by
  obtain ⟨most, least, -⟩ := bytesMoved_spec (outcome.imp_right And.left)
  have fits : bytesMoved result ≤ count - done := by
    rcases outcome with failed | ⟨positive, bounded⟩ <;> omega
  refine ⟨?_, by omega⟩
  show (⟨_, toSizeT ((count - done : Nat) - bytesMoved result)⟩ : Window) = _
  rw [Window.mk.injEq, toSizeT_of_fits (by omega) (by omega)]
  refine ⟨rfl, ?_⟩
  omega

/-- A forward step leaves the loop partway. -/
theorem Partway.step (object : count < 2 ^ 63) (partway : Partway count window) (forward : Forward window result)
    (stepped : transferStep window result = some next) : Partway count next := by
  obtain ⟨done, within, rfl⟩ := partway
  obtain ⟨outcome, rfl⟩ := transferStep_eq_some stepped
  obtain ⟨rest, bounded⟩ := advance_partway object within outcome
  have ahead : (0 : Int) ≤ done + bytesMoved result := forward
  rw [rest]
  refine ⟨(done + bytesMoved result).toNat, by omega, ?_⟩
  rw [Window.mk.injEq]
  omega

theorem Partway.inside (partway : Partway count window) : Inside count window := by
  obtain ⟨done, within, rfl⟩ := partway
  intro _
  simp only
  omega

/-- A window inside the buffer does not start before it. -/
theorem Partway.forward (object : count < 2 ^ 63) (partway : Partway count window) (inside : Inside count next)
    (stepped : transferStep window result = some next) : Forward window result := by
  obtain ⟨done, within, rfl⟩ := partway
  obtain ⟨outcome, rfl⟩ := transferStep_eq_some stepped
  obtain ⟨rest, bounded⟩ := advance_partway object within outcome
  rw [rest] at inside
  by_contra backward
  have behind : (done + bytesMoved result : Int) < 0 := not_le.mp backward
  have start := (inside (by simp only; omega)).1
  exact absurd start (not_le.mpr behind)

theorem partway_whole (count : Nat) : Partway count (.whole count) := ⟨0, Nat.zero_le _, rfl⟩

theorem transferStep_buf (stepped : transferStep window result = some next) :
    next.buf = window.buf + bytesMoved result := by
  obtain ⟨-, rfl⟩ := transferStep_eq_some stepped
  rfl

/-- A run moves the pointer by the total of its results. -/
theorem run_buf (reached : run transferStep window results = some final) :
    final.buf = window.buf + moved results := by
  induction results generalizing window with
  | nil =>
      obtain rfl := Option.some.inj reached
      simp
  | cons result rest ih =>
      obtain ⟨next, stepped, continued⟩ := run_cons_eq_some.mp reached
      rw [ih continued, transferStep_buf stepped, moved_cons, add_assoc]

/-- Each result of a run is a failure or a number of bytes. -/
theorem run_results (reached : run transferStep window results = some final) :
    ∀ result ∈ results, result = -1 ∨ 1 ≤ result := by
  induction results generalizing window with
  | nil => simp
  | cons result rest ih =>
      obtain ⟨next, stepped, continued⟩ := run_cons_eq_some.mp reached
      have outcome := (transferStep_eq_some stepped).1
      exact List.forall_mem_cons.mpr ⟨outcome.imp_right And.left, ih continued⟩

/-- Each step is forward exactly when no total of the first results takes the pointer before the start. -/
theorem meets_forward_iff (start : 0 ≤ window.buf) (reached : run transferStep window results = some final) :
    Meets transferStep Forward window results ↔
      ∀ length ≤ results.length, 0 ≤ window.buf + moved (results.take length) := by
  induction results generalizing window with
  | nil =>
      refine iff_of_true trivial fun length _ => ?_
      simpa using start
  | cons result rest ih =>
      obtain ⟨next, stepped, continued⟩ := run_cons_eq_some.mp reached
      have buf := transferStep_buf stepped
      have shifted (length : Nat) : window.buf + moved ((result :: rest).take (length + 1)) =
          next.buf + moved (rest.take length) := by
        rw [List.take_succ_cons, moved_cons, buf, add_assoc]
      simp only [Meets, stepped, Option.some.injEq, forall_eq', Forward, ← buf]
      constructor
      · rintro ⟨forward, later⟩ length bounded
        cases length with
        | zero => simpa using start
        | succ length =>
            rw [shifted]
            exact (ih forward continued).mp later length (Nat.le_of_succ_le_succ bounded)
      · intro all
        have forward : 0 ≤ next.buf := by
          have first := all 1 (Nat.succ_le_succ (Nat.zero_le _))
          rw [shifted] at first
          simpa using first
        refine ⟨forward, (ih forward continued).mpr fun length bounded => ?_⟩
        rw [← shifted]
        exact all (length + 1) (Nat.succ_le_succ bounded)

/-- The windows stay inside the buffer exactly when each step is forward. -/
theorem throughout_inside_iff (object : count < 2 ^ 63)
    (reached : run transferStep (.whole count) results = some final) :
    Throughout transferStep (Inside count) (.whole count) results ↔
      Meets transferStep Forward (.whole count) results := by
  refine throughout_iff_meets ?_ ?_ (partway_whole count) reached
  · intro window result next partway stepped
    exact ⟨fun inside => partway.forward object inside stepped, fun forward =>
      (partway.step object forward stepped).inside⟩
  · intro window result next partway inside stepped
    exact partway.step object (partway.forward object inside stepped) stepped

/-- A run of forward steps ends partway through the buffer. -/
theorem partway_of_forward (object : count < 2 ^ 63)
    (forward : Meets transferStep Forward (.whole count) results)
    (reached : run transferStep (.whole count) results = some final) : Partway count final :=
  run_invariant_of_meets (Partway count)
    (fun _ _ _ partway forward stepped => Partway.step object partway forward stepped)
    (partway_whole count) forward reached

/-- A loop that ends partway has moved its whole count. -/
theorem Partway.count_eq_zero_iff (partway : Partway count final)
    (reached : run transferStep (.whole count) results = some final) : final.count = 0 ↔ moved results = count := by
  have buf := run_buf reached
  obtain ⟨done, within, rfl⟩ := partway
  simp only [Window.whole, zero_add] at buf ⊢
  omega

theorem length_addresses (window : Window) (results : List Int) :
    (addresses window results).length = (results.map Int.toNat).sum := by
  induction results generalizing window with
  | nil => rfl
  | cons result rest ih => simp [addresses, ih]

/-- The total as an `int` reaches the number of moved bytes only when each result is a small success. -/
theorem moved_spec (outcomes : ∀ result ∈ results, result = -1 ∨ 1 ≤ result) :
    moved results ≤ (results.map Int.toNat).sum ∧
      (moved results = (results.map Int.toNat).sum ↔ ∀ result ∈ results, 1 ≤ result ∧ result < 2 ^ 31) := by
  induction results with
  | nil => simp
  | cons result rest ih =>
      obtain ⟨outcome, others⟩ := List.forall_mem_cons.mp outcomes
      obtain ⟨most, -, exact⟩ := bytesMoved_spec outcome
      obtain ⟨later, all⟩ := ih others
      rw [moved_cons, List.map_cons, List.sum_cons, Nat.cast_add, List.forall_mem_cons, ← exact, ← all]
      omega

/-- Small successes move consecutive bytes from the start of the window. -/
theorem addresses_of_small (window : Window) (small : ∀ result ∈ results, 1 ≤ result ∧ result < 2 ^ 31) :
    addresses window results =
      (List.range (results.map Int.toNat).sum).map fun index : Nat => window.buf + index := by
  induction results generalizing window with
  | nil => rfl
  | cons result rest ih =>
      obtain ⟨here, others⟩ := List.forall_mem_cons.mp small
      obtain ⟨-, -, exact⟩ := bytesMoved_spec (Or.inr here.1)
      have buf : (window.advance result).buf = window.buf + result.toNat :=
        congrArg (window.buf + ·) (exact.mpr here)
      rw [addresses, ih _ others, buf, List.map_cons, List.sum_cons, List.range_add, List.map_append, List.map_map]
      congr 1
      apply List.map_congr_left
      intro index _
      simp only [Function.comp_apply, Nat.cast_add, add_assoc]

/-- A loop that moved its whole count has moved each byte once and in order exactly when no result went wrong. -/
theorem addresses_eq_range_iff (outcomes : ∀ result ∈ results, result = -1 ∨ 1 ≤ result)
    (total : moved results = count) :
    (addresses (.whole count) results = (List.range count).map fun index : Nat => (index : Int)) ↔
      ∀ result ∈ results, 1 ≤ result ∧ result < 2 ^ 31 := by
  obtain ⟨-, exact⟩ := moved_spec outcomes
  constructor
  · intro ordered
    have length := congrArg List.length ordered
    rw [length_addresses, List.length_map, List.length_range] at length
    apply exact.mp
    rw [total, length]
  · intro small
    have sum := exact.mpr small
    rw [total, Nat.cast_inj] at sum
    rw [addresses_of_small _ small, ← sum]
    simp [Window.whole]

/-- The loop stays inside its buffer and moves each byte once exactly when its results are careful. -/
theorem staysInside_iff_careful (object : count < 2 ^ 63)
    (reached : run transferStep (.whole count) results = some final) :
    StaysInside count results ↔ Careful count results := by
  have outcomes := run_results reached
  have inside := throughout_inside_iff object reached
  have prefixes := meets_forward_iff (show 0 ≤ (Window.whole count).buf from le_rfl) reached
  simp only [Window.whole, zero_add] at prefixes
  have ended (forward : Meets transferStep Forward (.whole count) results) :
      final.count = 0 ↔ moved results = count :=
    (partway_of_forward object forward reached).count_eq_zero_iff reached
  constructor
  · intro stays
    have forward := inside.mp stays.inside
    refine ⟨prefixes.mp forward, fun total => ?_⟩
    exact (addresses_eq_range_iff outcomes total).mp (stays.complete final reached ((ended forward).mpr total))
  · intro careful
    have forward := prefixes.mpr careful.enough
    refine ⟨inside.mpr forward, fun last same empty => ?_⟩
    obtain rfl := Option.some.inj (reached.symm.trans same)
    have total := (ended forward).mp empty
    exact (addresses_eq_range_iff outcomes total).mpr (careful.whole total)

/-- Results that are small successes are careful. -/
theorem careful_of_small (small : ∀ result ∈ results, 1 ≤ result ∧ result < 2 ^ 31) : Careful count results where
  enough := by
    intro length _
    have part : ∀ result ∈ results.take length, 1 ≤ result ∧ result < 2 ^ 31 :=
      fun result member => small result (List.mem_of_mem_take member)
    obtain ⟨-, exact⟩ := moved_spec fun result member => Or.inr (part result member).1
    rw [exact.mpr part]
    exact Int.natCast_nonneg _
  whole := fun _ => small

/-- A loop that ends after a failed call has left its buffer or has not moved each byte once. -/
theorem not_staysInside_of_failed (object : count < 2 ^ 63)
    (reached : run transferStep (.whole count) results = some final) (ended : final.count = 0)
    (failed : -1 ∈ results) : ¬ StaysInside count results := by
  intro stays
  have careful := (staysInside_iff_careful object reached).mp stays
  have forward := (throughout_inside_iff object reached).mp stays.inside
  have total := ((partway_of_forward object forward reached).count_eq_zero_iff reached).mp ended
  have positive := (careful.whole total (-1) failed).1
  omega

end

/-- Three bytes are moved by two calls. -/
def twoCalls : List Int := [1, 2]

theorem twoCalls_staysInside : StaysInside 3 twoCalls := by
  have reached : run transferStep (.whole 3) twoCalls = some ⟨3, 0⟩ := by decide
  exact (staysInside_iff_careful (by decide) reached).mpr (by decide)

/-- The first call fails, and the next one moves three bytes. -/
def failedCall : List Int := [-1, 3]

/-- The second window starts before the buffer of two bytes, and the loop ends with a byte from there. -/
theorem failedCall_leaves : run transferStep (.whole 2) [-1] = some ⟨-1, 3⟩ ∧
    run transferStep (.whole 2) failedCall = some ⟨2, 0⟩ ∧ addresses (.whole 2) failedCall = [-1, 0, 1] ∧
    ¬ StaysInside 2 failedCall := by
  refine ⟨by decide, by decide, by decide, fun stays => ?_⟩
  have inside := (stays.inside ⟨-1, 3⟩ (by decide)).1 (by decide)
  revert inside
  decide

end DistributedNas.Storage
