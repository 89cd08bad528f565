import Mathlib.Data.List.Nodup
import Mathlib.Logic.Function.Basic

/-!
# Registries

A map that is only written at new keys, next to the log of its writes.  Every
key is logged once, and the entries of the map are those of the log.
-/

namespace Foundation

universe u v

variable {Key : Type u} {Value : Type v}

/-- The map has one entry for each entry of the log, and no key is logged
twice. -/
structure Registers
    (map : Key -> Option Value)
    (log : List (Key × Value)) : Prop where
  distinct : (log.map Prod.fst).Nodup
  entries : ∀ key value, map key = some value ↔ (key, value) ∈ log

namespace Registers

variable {map : Key -> Option Value} {log : List (Key × Value)}

/-- The empty map registers the empty log. -/
theorem empty : Registers (fun _ : Key => (none : Option Value)) [] where
  distinct := List.nodup_nil
  entries := by simp

/-- A key without an entry was never logged. -/
theorem not_logged
    (registers : Registers map log)
    {key : Key}
    (fresh : map key = none) :
    key ∉ log.map Prod.fst := by
  intro logged
  obtain ⟨⟨key, value⟩, member, rfl⟩ := List.mem_map.mp logged
  have entry := (registers.entries key value).mpr member
  rw [fresh] at entry
  cases entry

variable [DecidableEq Key]

/-- Writing a new key appends its entry to the log. -/
theorem insert
    (registers : Registers map log)
    {key : Key}
    (fresh : map key = none)
    (value : Value) :
    Registers (Function.update map key (some value))
      (log ++ [(key, value)]) where
  distinct := by
    rw [List.map_append, List.nodup_append]
    refine ⟨registers.distinct, List.nodup_singleton _, ?_⟩
    rintro logged isLogged other isOther rfl
    rw [List.map_singleton, List.mem_singleton] at isOther
    rw [isOther] at isLogged
    exact registers.not_logged fresh isLogged
  entries := by
    intro other otherValue
    rw [List.mem_append, List.mem_singleton, Prod.mk.injEq,
      ← registers.entries]
    by_cases same : other = key
    · subst same
      rw [Function.update_self, fresh, Option.some.injEq]
      simp [eq_comm]
    · rw [Function.update_of_ne same]
      simp [same]

end Registers

/-- Writing a new key keeps every entry. -/
theorem update_eq_some_of_fresh
    [DecidableEq Key]
    {map : Key -> Option Value}
    {key written : Key}
    {value writtenValue : Value}
    (fresh : map written = none)
    (entry : map key = some value) :
    Function.update map written (some writtenValue) key = some value := by
  have different : key ≠ written := by
    intro same
    rw [same, fresh] at entry
    cases entry
  rw [Function.update_of_ne different]
  exact entry

end Foundation
