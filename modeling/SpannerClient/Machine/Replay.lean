import Mathlib.Data.List.Nodup

/-!
# Numbered commands

Commands that arrive late, twice or in another order than they were sent carry
numbers.  A log executes a command if its number is greater than those of all
commands before, answers without executing it again if the number has been handled,
and refuses it otherwise.

Whatever arrives, the numbers of the log increase (`execute_increasing`), and if equal
commands carry equal numbers then no command is executed twice
(`Increasing.nodup_of_numbered`).
-/

namespace SpannerClient
namespace Machine
namespace Replay

universe u

variable {α : Type u}

/-- A command with the number has been executed. -/
def handled
    (log : List (Nat × α)) (n : Nat) : Bool :=
  log.any fun x => x.1 == n

/-- A command arrives; `none` if it is refused. -/
def execute
    (log : List (Nat × α)) (n : Nat) (command : α) : Option (List (Nat × α)) :=
  if handled log n then
    some log
  else if log.all fun x => decide (x.1 < n) then
    some (log ++ [(n, command)])
  else
    none

/-- The commands have been executed in the order of their numbers. -/
def Increasing
    (log : List (Nat × α)) : Prop :=
  log.Pairwise fun x y => x.1 < y.1

variable {log log' : List (Nat × α)} {n : Nat} {command : α}

theorem handled_iff :
    handled log n = true ↔ ∃ x, (n, x) ∈ log := by
  rw [handled, List.any_eq_true]
  constructor
  · rintro ⟨⟨m, x⟩, hx, hm⟩
    obtain rfl : m = n := by simpa using hm
    exact ⟨x, hx⟩
  · rintro ⟨x, hx⟩
    exact ⟨(n, x), hx, by simp⟩

/-- The command is a replay, or new. -/
theorem execute_cases
    (h : execute log n command = some log') :
    (log' = log ∧ ∃ x, (n, x) ∈ log) ∨
      (log' = log ++ [(n, command)] ∧ ∀ x ∈ log, x.1 < n) := by
  unfold execute at h
  split at h
  · rename_i hhandled
    exact Or.inl ⟨(Option.some.inj h).symm, handled_iff.mp hhandled⟩
  · split at h
    · rename_i hall
      refine Or.inr ⟨(Option.some.inj h).symm, fun x hx => ?_⟩
      simpa using List.all_eq_true.mp hall x hx
    · cases h

/-- Nothing is forgotten. -/
theorem mem_execute
    (h : execute log n command = some log')
    {x : Nat × α}
    (hx : x ∈ log) :
    x ∈ log' := by
  rcases execute_cases h with ⟨rfl, -⟩ | ⟨rfl, -⟩
  · exact hx
  · exact List.mem_append_left _ hx

/-- Only the command is executed. -/
theorem mem_of_mem_execute
    (h : execute log n command = some log')
    {x : Nat × α}
    (hx : x ∈ log') :
    x ∈ log ∨ x = (n, command) := by
  rcases execute_cases h with ⟨rfl, -⟩ | ⟨rfl, -⟩
  · exact Or.inl hx
  · exact (List.mem_append.mp hx).imp_right List.mem_singleton.mp

/-- What is answered has been executed, under its number. -/
theorem exists_of_execute
    (h : execute log n command = some log') :
    ∃ x, (n, x) ∈ log' := by
  rcases execute_cases h with ⟨rfl, hx⟩ | ⟨rfl, -⟩
  · exact hx
  · exact ⟨command, List.mem_append_right _ (List.mem_singleton_self _)⟩

theorem execute_increasing
    (hlog : Increasing log)
    (h : execute log n command = some log') :
    Increasing log' := by
  rcases execute_cases h with ⟨rfl, -⟩ | ⟨rfl, hlt⟩
  · exact hlog
  · refine List.pairwise_append.mpr ⟨hlog, List.pairwise_singleton _ _, ?_⟩
    intro x hx y hy
    obtain rfl := List.mem_singleton.mp hy
    exact hlt x hx

/-- If equal commands carry equal numbers, each of them is executed once. -/
theorem Increasing.nodup_of_numbered
    (hlog : Increasing log)
    (hnumbered : ∀ x ∈ log, ∀ y ∈ log, x.2 = y.2 → x.1 = y.1) :
    (log.map Prod.snd).Nodup := by
  refine List.pairwise_map.mpr ?_
  refine List.Pairwise.imp_of_mem (fun {x y} hx hy hlt heq => ?_) hlog
  exact Nat.ne_of_lt hlt (hnumbered x hx y hy heq)

end Replay
end Machine
end SpannerClient
