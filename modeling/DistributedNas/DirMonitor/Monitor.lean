import DistributedNas.Library.Transition
import DistributedNas.Proxy.Request

/-
This file models the thread of `DirMonitor` and proves when it notifies once for each directory event.
-/

namespace DistributedNas.DirMonitor
open Library Posix
open Proxy (Endian load_eq_slice)

/-- An event has a header of four numbers and a name that NUL bytes terminate and pad. -/
structure InotifyEvent where
  wd : Int32
  mask : UInt32
  cookie : UInt32
  name : List UInt8
  padding : Nat
  plain : 0 ∉ name
  terminated : name ≠ [] → 0 < padding
  fits : name.length + padding < 2 ^ 32
  deriving DecidableEq

/-- The field `len` counts the bytes after the header. -/
def InotifyEvent.len (event : InotifyEvent) : Nat := event.name.length + event.padding

/-- These are the bytes of an event in the order of the kernel. -/
def InotifyEvent.bytes (host : Endian) (event : InotifyEvent) : List UInt8 :=
  host.toMemory 4 event.wd.toUInt32.toNat ++ host.toMemory 4 event.mask.toNat ++
    host.toMemory 4 event.cookie.toNat ++ host.toMemory 4 event.len ++ event.name ++
      List.replicate event.padding 0

/-- These are the names of the events that have one. -/
def names (events : List InotifyEvent) : List (List UInt8) :=
  (events.filter fun event => event.len ≠ 0).map InotifyEvent.name

/-- This is `sizeof (struct inotify_event)`. -/
def eventSize : Nat := 16

/-- This is the size of the buffer of the loop. -/
def bufLen : Nat := 1024 * (eventSize + 16)

/-- This function reads a string up to its first NUL byte, which must lie among the next bytes. -/
def cString (memory : Buffer) : Nat → Int → Option (List UInt8)
  | 0, _ => none
  | left + 1, address =>
      if memory address = 0 then some []
      else (cString memory left (address + 1)).map (memory address :: ·)

/-- This is `event->len` of the event at the start of the buffer. -/
def lenOf (host : Endian) (buffer : Buffer) : Nat := host.fromMemory (buffer.load 12 4)

/-- This is `event->name` of the event at the start of the buffer. -/
def nameOf (buffer : Buffer) : Option (List UInt8) := cString buffer (bufLen - eventSize) eventSize

/-- The loop reads on, it has returned, or it ran into undefined behaviour. -/
inductive Loop where
  | reading
  | returned
  | undefined
  deriving DecidableEq, Repr

/-- The fields of the monitor and of its loop come first, and then the names passed on and the names due. -/
structure Monitor where
  mMonitoring : Bool
  buffer : Buffer
  loop : Loop
  notified : List (List UInt8)
  due : List (List UInt8)

/-- `Monitor` starts the loop with an uninitialised buffer. -/
def Monitor.started (fresh : Buffer) : Monitor := ⟨true, fresh, .reading, [], []⟩

/-- A `read` fails or delivers events, and `StopMonitoring` is called. -/
inductive Happening where
  | read (result : Option (List InotifyEvent))
  | stopMonitoring
  deriving DecidableEq

namespace Monitor
variable (host : Endian) (monitor : Monitor)

/-- A successful `read` fills the buffer from its start, and each named event is due until `StopMonitoring`. -/
def receive (events : List InotifyEvent) : Monitor :=
  { monitor with
    buffer := monitor.buffer.store 0 (events.flatMap (InotifyEvent.bytes host))
    due := if monitor.mMonitoring then monitor.due ++ names events else monitor.due }

/-- The body of the loop looks at the event at the start of the buffer. -/
def body : Monitor :=
  match nameOf monitor.buffer with
  | none => { monitor with loop := .undefined }
  | some name =>
      if lenOf host monitor.buffer ≠ 0 then { monitor with notified := monitor.notified ++ [name] } else monitor

/-- The loop ends only when `read` returns zero; the result -1 counts as true. -/
def iterate : Option (List InotifyEvent) → Monitor
  | none => monitor.body host
  | some [] => { monitor with loop := .returned }
  | some (event :: rest) => (monitor.receive host (event :: rest)).body host

end Monitor

/-- This function takes one step; the loop does not look at `m_monitoring`. -/
def monitorStep (host : Endian) (monitor : Monitor) : Happening → Option Monitor
  | .stopMonitoring => some { monitor with mMonitoring := false }
  | .read result =>
      if monitor.loop = .reading ∧ ((result.getD []).flatMap (InotifyEvent.bytes host)).length ≤ bufLen then
        some (monitor.iterate host result)
      else none

/-- The names passed to `NotifyAll` are the names due, and no behaviour was undefined. -/
def Monitor.Exact (monitor : Monitor) : Prop := monitor.loop ≠ .undefined ∧ monitor.notified = monitor.due

/-- A `read` delivers at most one named event, as its first one, and it neither repeats one nor is too late with it. -/
def Monitor.Delivers (host : Endian) (monitor : Monitor) : Happening → Prop
  | .stopMonitoring | .read (some []) => True
  | .read none => (nameOf monitor.buffer).isSome ∧ lenOf host monitor.buffer = 0
  | .read (some (event :: rest)) =>
      (event.len = 0 → (nameOf (monitor.receive host (event :: rest)).buffer).isSome) ∧
        if monitor.mMonitoring then ∀ other ∈ rest, other.len = 0 else event.len = 0

section
variable {host : Endian} {monitor next : Monitor} {memory : Buffer} {event : InotifyEvent}
  {rest : List InotifyEvent}

@[simp] theorem length_toMemory (width value : Nat) : (host.toMemory width value).length = width := by
  cases host <;> simp [Endian.toMemory]

theorem fromMemory_toMemory {width value : Nat} (fits : value < 256 ^ width) :
    host.fromMemory (host.toMemory width value) = value := by
  cases host <;> simp [Endian.toMemory, Endian.fromMemory, fromBigEndian_bigEndian fits]

theorem load_succ (address : Int) (count : Nat) :
    memory.load address (count + 1) = memory address :: memory.load (address + 1) count := by
  rw [add_comm, Buffer.load_add]
  simp [Buffer.load]

/-- The scan stops at the first NUL byte. -/
theorem cString_of_load {name : List UInt8} (plain : 0 ∉ name) {left : Nat} (enough : name.length < left)
    {address : Int} (held : memory.load address (name.length + 1) = name ++ [0]) :
    cString memory left address = some name := by
  induction name generalizing left address with
  | nil =>
      cases left with
      | zero => cases enough
      | succ left =>
          rw [load_succ] at held
          rw [cString, if_pos (List.head_eq_of_cons_eq held)]
  | cons byte name ih =>
      cases left with
      | zero => cases enough
      | succ left =>
          rw [List.length_cons, load_succ, List.cons_append] at held
          obtain ⟨same, tail⟩ := List.cons_eq_cons.mp held
          rw [List.mem_cons, not_or] at plain
          rw [cString, same, if_neg (Ne.symm plain.1), ih plain.2 (Nat.lt_of_succ_lt_succ enough) tail]
          rfl

/-- The fields of the first event of a buffer read back what the kernel wrote. -/
theorem fields_of_receive (monitor : Monitor) (event : InotifyEvent) (rest : List InotifyEvent)
    (size : ((event :: rest).flatMap (InotifyEvent.bytes host)).length ≤ bufLen) :
    lenOf host (monitor.receive host (event :: rest)).buffer = event.len ∧
      (event.len ≠ 0 → nameOf (monitor.receive host (event :: rest)).buffer = some event.name) := by
  have stored := Buffer.load_store monitor.buffer 0 ((event :: rest).flatMap (InotifyEvent.bytes host))
  have shape : (event :: rest).flatMap (InotifyEvent.bytes host) =
      host.toMemory 4 event.wd.toUInt32.toNat ++ host.toMemory 4 event.mask.toNat ++
        host.toMemory 4 event.cookie.toNat ++ host.toMemory 4 event.len ++
          (event.name ++ (List.replicate event.padding 0 ++ rest.flatMap (InotifyEvent.bytes host))) := by
    simp [InotifyEvent.bytes]
  have fits : event.len < 256 ^ 4 := event.fits
  have total := congrArg List.length shape
  simp only [List.length_append, length_toMemory, List.length_replicate] at total
  constructor
  · have middle := slice_middle
      (host.toMemory 4 event.wd.toUInt32.toNat ++ host.toMemory 4 event.mask.toNat ++
        host.toMemory 4 event.cookie.toNat) (host.toMemory 4 event.len)
      (event.name ++ (List.replicate event.padding 0 ++ rest.flatMap (InotifyEvent.bytes host)))
    simp only [List.length_append, length_toMemory, Nat.reduceAdd, ← shape] at middle
    rw [lenOf]
    show host.fromMemory (Buffer.load _ ((12 : Nat) : Int) 4) = _
    rw [Monitor.receive, load_eq_slice stored 12 4 (by omega), middle, fromMemory_toMemory fits]
  · intro named
    obtain ⟨padding, more⟩ : ∃ padding, event.padding = padding + 1 := by
      apply Nat.exists_eq_succ_of_ne_zero
      intro none
      have terminated := event.terminated
      simp only [InotifyEvent.len, none, add_zero, ne_eq, List.length_eq_zero_iff] at named terminated
      exact (terminated named).ne rfl
    have middle := slice_middle
      (host.toMemory 4 event.wd.toUInt32.toNat ++ host.toMemory 4 event.mask.toNat ++
        host.toMemory 4 event.cookie.toNat ++ host.toMemory 4 event.len) (event.name ++ [0])
      (List.replicate padding 0 ++ rest.flatMap (InotifyEvent.bytes host))
    have whole : (event :: rest).flatMap (InotifyEvent.bytes host) =
        host.toMemory 4 event.wd.toUInt32.toNat ++ host.toMemory 4 event.mask.toNat ++
          host.toMemory 4 event.cookie.toNat ++ host.toMemory 4 event.len ++ (event.name ++ [0]) ++
            (List.replicate padding 0 ++ rest.flatMap (InotifyEvent.bytes host)) := by
      rw [shape, more, List.replicate_succ]
      simp only [List.append_assoc, List.cons_append, List.nil_append]
    simp only [List.length_append, length_toMemory, Nat.reduceAdd, List.length_singleton, ← whole] at middle
    have enough : event.name.length < bufLen - eventSize := by
      have header : eventSize = 16 := rfl
      omega
    have held := load_eq_slice stored 16 (event.name.length + 1) (by omega)
    rw [middle] at held
    exact cString_of_load event.plain enough held

theorem names_cons (event : InotifyEvent) (rest : List InotifyEvent) :
    names (event :: rest) = (if event.len ≠ 0 then [event.name] else []) ++ names rest := by
  by_cases named : event.len = 0 <;> simp [names, named]

theorem names_eq_nil {events : List InotifyEvent} : names events = [] ↔ ∀ event ∈ events, event.len = 0 := by
  simp [names, List.filter_eq_nil_iff]

namespace Monitor

/-- The body of the loop keeps the names right when it passes on just the names that became due. -/
theorem exact_body_iff {before due : List (List UInt8)} (reads : monitor.loop = .reading)
    (notified : monitor.notified = before) (more : monitor.due = before ++ due) :
    (monitor.body host).Exact ↔
      ∃ name, nameOf monitor.buffer = some name ∧ due = if lenOf host monitor.buffer ≠ 0 then [name] else [] := by
  unfold body
  cases found : nameOf monitor.buffer with
  | none => simp [Exact]
  | some name =>
      by_cases named : lenOf host monitor.buffer = 0
      · simp [Exact, named, reads, notified, more]
      · simp [Exact, named, reads, notified, more, eq_comm]

/-- A failed `read` keeps the names right exactly when the buffer starts with an event without a name. -/
theorem exact_failed_iff (reads : monitor.loop = .reading) (exact : monitor.Exact) :
    (monitor.iterate host none).Exact ↔ monitor.Delivers host (.read none) := by
  show (monitor.body host).Exact ↔ _
  rw [exact_body_iff reads exact.2 (List.append_nil monitor.due).symm, Delivers, Option.isSome_iff_exists]
  by_cases named : lenOf host monitor.buffer = 0
  · simp [named]
  · simp [named]

/-- A successful `read` keeps the names right exactly when the events after the first one have no name. -/
theorem exact_received_iff (reads : monitor.loop = .reading) (exact : monitor.Exact)
    (size : ((event :: rest).flatMap (InotifyEvent.bytes host)).length ≤ bufLen) :
    (monitor.iterate host (some (event :: rest))).Exact ↔ monitor.Delivers host (.read (some (event :: rest))) := by
  obtain ⟨len, name⟩ := fields_of_receive monitor event rest size
  show ((monitor.receive host (event :: rest)).body host).Exact ↔ _
  have due : (monitor.receive host (event :: rest)).due =
      monitor.due ++ if monitor.mMonitoring then names (event :: rest) else [] := by
    cases monitoring : monitor.mMonitoring <;> simp [receive, monitoring]
  have received : ((monitor.receive host (event :: rest)).body host).Exact ↔ _ := exact_body_iff reads exact.2 due
  rw [received, len, Delivers, Option.isSome_iff_exists]
  by_cases unnamed : event.len = 0
  · cases monitor.mMonitoring <;> simp [unnamed, names_cons, names_eq_nil]
  · cases monitor.mMonitoring <;> simp [unnamed, name unnamed, names_cons, names_eq_nil]

theorem exact_iff_delivers {happening : Happening} (exact : monitor.Exact)
    (stepped : monitorStep host monitor happening = some next) :
    next.Exact ↔ monitor.Delivers host happening := by
  cases happening with
  | stopMonitoring =>
      obtain rfl := Option.some.inj stepped
      exact iff_of_true exact trivial
  | read result =>
      simp only [monitorStep] at stepped
      split at stepped
      · next enabled =>
          obtain rfl := Option.some.inj stepped
          cases result with
          | none => exact exact_failed_iff enabled.1 exact
          | some events =>
              cases events with
              | nil => exact iff_of_true ⟨by simp [iterate], exact.2⟩ trivial
              | cons event rest => exact exact_received_iff enabled.1 exact enabled.2
      · cases stepped

end Monitor
end

/-- In each run the names passed on are the names due at each moment exactly when each `read` delivers one event. -/
theorem exact_iff_each_delivers (host : Endian) (fresh : Buffer) {happenings : List Happening} {final : Monitor}
    (reached : run (monitorStep host) (.started fresh) happenings = some final) :
    Throughout (monitorStep host) Monitor.Exact (.started fresh) happenings ↔
      Meets (monitorStep host) (Monitor.Delivers host) (.started fresh) happenings := by
  have start : (Monitor.started fresh).Exact := ⟨by simp [Monitor.started], rfl⟩
  apply throughout_iff_meets _ _ start reached
  · exact fun monitor happening next exact stepped => Monitor.exact_iff_delivers exact stepped
  · exact fun monitor happening next _ after _ => after

instance decidableExact (monitor : Monitor) : Decidable monitor.Exact :=
  inferInstanceAs (Decidable (monitor.loop ≠ .undefined ∧ monitor.notified = monitor.due))

instance decidableDelivers (host : Endian) (monitor : Monitor) : (happening : Happening) →
    Decidable (monitor.Delivers host happening)
  | .stopMonitoring | .read (some []) => isTrue trivial
  | .read none => inferInstanceAs (Decidable ((nameOf monitor.buffer).isSome ∧ lenOf host monitor.buffer = 0))
  | .read (some (event :: rest)) => inferInstanceAs (Decidable
      ((event.len = 0 → (nameOf (monitor.receive host (event :: rest)).buffer).isSome) ∧
        if monitor.mMonitoring then ∀ other ∈ rest, other.len = 0 else event.len = 0))

/-- This event is about a file whose name has one letter. -/
def letterEvent (letter : UInt8) (real : 0 ≠ letter) : InotifyEvent where
  wd := 1
  mask := 128
  cookie := 0
  name := [letter]
  padding := 15
  plain := by simpa using real
  terminated := by simp
  fits := by simp

/-- Each of two files arrives in a buffer of its own. -/
def separateReads : List Happening :=
  [.read (some [letterEvent 97 (by decide)]), .read (some [letterEvent 98 (by decide)]), .stopMonitoring]

/-- Both names are passed on in this run. -/
theorem separateReads_exact : ∃ final,
    run (monitorStep .littleEndian) (.started fun _ => 0) separateReads = some final ∧
    (Throughout (monitorStep .littleEndian) Monitor.Exact (.started fun _ => 0) separateReads ↔
      Meets (monitorStep .littleEndian) (Monitor.Delivers .littleEndian) (.started fun _ => 0) separateReads) ∧
    final.notified = [[97], [98]] := by
  obtain ⟨final, reached, names⟩ : ∃ final,
      run (monitorStep .littleEndian) (.started fun _ => 0) separateReads = some final ∧
        final.notified = [[97], [98]] := by decide
  exact ⟨final, reached, exact_iff_each_delivers .littleEndian _ reached, names⟩

/-- Two files arrive in one buffer, a `read` fails, and a file arrives after `StopMonitoring`. -/
def crowdedReads : List Happening :=
  [.read (some [letterEvent 97 (by decide), letterEvent 98 (by decide)]), .read none, .stopMonitoring,
    .read (some [letterEvent 99 (by decide)])]

/-- The second file is never passed on, the first one is passed on again, and so is the one after `StopMonitoring`. -/
theorem crowdedReads_inexact : ∃ final,
    run (monitorStep .littleEndian) (.started fun _ => 0) crowdedReads = some final ∧
    final.due = [[97], [98]] ∧ final.notified = [[97], [97], [99]] ∧ ¬ final.Exact := by
  decide

end DistributedNas.DirMonitor
