import Privachain.Foundation.Runs
import Mathlib.Data.List.FinRange
import Mathlib.Logic.Function.Basic

/-!
# Interleaved calls that read, modify and write

Each of finitely many calls reads a part of a store and later writes what it has
made of it.  Between the two accesses other calls may run.  When every call
writes while the part that it has read is unchanged, the store is the one after
the same calls in the order of their writes.
-/

namespace Foundation

universe u v w

/-- What the calls read, and what they write for what they have read. -/
structure Mutator (Store : Type u) (Snapshot : Type v) (Call : Type w) where
  read : Call -> Store -> Snapshot
  write : Call -> Snapshot -> Store -> Store

namespace Mutator

variable {Store : Type u} {Snapshot : Type v} {Call : Type w}

/-- How far a call has come. -/
inductive Phase (Snapshot : Type v)
  | issued
  | holding (snapshot : Snapshot)
  | written

/-- The store, and how far each of the calls has come. -/
structure Progress (Store : Type u) (Snapshot : Type v) (n : Nat) where
  store : Store
  phase : Fin n -> Phase Snapshot

/-- An access of one of the calls to the store. -/
inductive Access (n : Nat)
  | read (index : Fin n)
  | write (index : Fin n)

/-- All calls are issued. -/
def Progress.start (store : Store) (n : Nat) : Progress Store Snapshot n where
  store := store
  phase _ := .issued

section Interleaving

variable (mutator : Mutator Store Snapshot Call)

/-- A call that is not interrupted. -/
def execute (store : Store) (call : Call) : Store :=
  mutator.write call (mutator.read call store) store

variable (calls : List Call)

/-- The effect of an access.  A call reads once, and writes once after that. -/
def access
    (progress : Progress Store Snapshot calls.length) :
    Access calls.length -> Progress Store Snapshot calls.length
  | .read index =>
      match progress.phase index with
      | .issued =>
          { progress with
            phase := Function.update progress.phase index
              (.holding (mutator.read (calls.get index) progress.store)) }
      | .holding _ => progress
      | .written => progress
  | .write index =>
      match progress.phase index with
      | .issued => progress
      | .holding snapshot =>
          { store := mutator.write (calls.get index) snapshot progress.store
            phase := Function.update progress.phase index .written }
      | .written => progress

/-- The call that an access completes. -/
def completed
    (progress : Progress Store Snapshot calls.length) :
    Access calls.length -> List (Fin calls.length)
  | .read _ => []
  | .write index =>
      match progress.phase index with
      | .issued => []
      | .holding _ => [index]
      | .written => []

/-- A write of a call finds what the call has read. -/
def Fresh
    (progress : Progress Store Snapshot calls.length) :
    Access calls.length -> Prop
  | .read _ => True
  | .write index =>
      ∀ snapshot, progress.phase index = .holding snapshot ->
        mutator.read (calls.get index) progress.store = snapshot

/-- The calls in the order in which they write. -/
def writeOrder
    (progress : Progress Store Snapshot calls.length)
    (accesses : List (Access calls.length)) : List (Fin calls.length) :=
  history (mutator.access calls) (completed calls) progress accesses

/-- The store is the one after the calls that have written, one after the
other. -/
structure Serial
    (initial : Store)
    (progress : Progress Store Snapshot calls.length)
    (order : List (Fin calls.length)) : Prop where
  store_eq : progress.store =
    run mutator.execute initial (order.map calls.get)
  nodup : order.Nodup
  mem_iff : ∀ index, index ∈ order ↔ progress.phase index = .written

variable {mutator calls}

/-- At the start no call has written. -/
theorem serial_start (initial : Store) :
    Serial mutator calls initial (Progress.start initial calls.length) [] where
  store_eq := rfl
  nodup := .nil
  mem_iff index := by simp [Progress.start]

/-- A fresh access keeps the store serial. -/
theorem Serial.access
    {initial : Store}
    {progress : Progress Store Snapshot calls.length}
    {order : List (Fin calls.length)}
    (serial : Serial mutator calls initial progress order)
    {next : Access calls.length}
    (fresh : Fresh mutator calls progress next) :
    Serial mutator calls initial (mutator.access calls progress next)
      (order ++ completed calls progress next) := by
  cases next with
  | read index =>
      rw [completed, List.append_nil, Mutator.access]
      cases phase : progress.phase index with
      | issued =>
          refine ⟨serial.store_eq, serial.nodup, fun other => ?_⟩
          rw [serial.mem_iff]
          by_cases same : other = index
          · subst same
            simp [phase]
          · simp [same]
      | holding snapshot => exact serial
      | written => exact serial
  | write index =>
      rw [completed, Mutator.access]
      cases phase : progress.phase index with
      | issued => simpa using serial
      | written => simpa using serial
      | holding snapshot =>
          have notWritten : index ∉ order := by
            rw [serial.mem_iff, phase]
            exact nofun
          refine ⟨?_, ?_, fun other => ?_⟩
          · -- the call writes for what it would read now
            rw [List.map_append, run_append, ← serial.store_eq,
              ← fresh snapshot phase]
            rfl
          · rw [← List.concat_eq_append]
            exact List.Nodup.concat notWritten serial.nodup
          · rw [List.mem_append, serial.mem_iff, List.mem_singleton]
            by_cases same : other = index
            · simp [same]
            · simp [same]

/-- **Serial writes.**  In an interleaving whose writes are all fresh the store
is always the one after the calls that have written, in the order of their
writes. -/
theorem serial_run
    {initial : Store}
    {accesses : List (Access calls.length)}
    (fresh : Allowed (mutator.access calls) (Fresh mutator calls)
      (Progress.start initial calls.length) accesses) :
    Serial mutator calls initial
      (run (mutator.access calls) (Progress.start initial calls.length) accesses)
      (writeOrder mutator calls (Progress.start initial calls.length)
        accesses) :=
  run_history_invariant (Serial mutator calls initial)
    (fun _ _ _ nextFresh serial => serial.access nextFresh)
    (serial_start initial) fresh

/-- A call that writes right after its read is fresh. -/
theorem fresh_read_write
    {progress : Progress Store Snapshot calls.length}
    {index : Fin calls.length}
    (issued : progress.phase index = .issued) :
    Allowed (mutator.access calls) (Fresh mutator calls) progress
      [.read index, .write index] := by
  refine ⟨trivial, ?_, trivial⟩
  rw [Mutator.access, issued]
  intro snapshot held
  dsimp only at held
  rw [Function.update_self] at held
  exact Phase.holding.inj held

/-- When all calls have written, the order of the writes is one of all calls. -/
theorem Serial.perm
    {initial : Store}
    {progress : Progress Store Snapshot calls.length}
    {order : List (Fin calls.length)}
    (serial : Serial mutator calls initial progress order)
    (complete : ∀ index, progress.phase index = .written) :
    (order.map calls.get).Perm calls := by
  have all : order.Perm (List.finRange calls.length) :=
    (List.perm_ext_iff_of_nodup serial.nodup (List.nodup_finRange _)).mpr
      fun index => by simp [serial.mem_iff, complete]
  have mapped := all.map calls.get
  rwa [List.map_get_finRange] at mapped

end Interleaving

end Mutator
end Foundation
