import Mathlib.Data.List.Basic
import Mathlib.Tactic.Cases

/-!
# What came since the last mark

A store that starts anew at every marked entry, takes the entries behind it, and gives up when they
become more than `limit`.

* `push limit`: the store takes an entry.
* `Since log entries`: what came since the last marked entry of a log, with that entry.
* `Holds limit log`: the store has what came since the last mark, if it is no more than `limit`.
* `Holds.push`: taking an entry keeps this.
-/

namespace Lib.SinceMark

variable {α : Type*} {limit : ℕ} {log : List (α × Bool)} {entries : List α} {x : α}

def push (limit : ℕ) (store : Option (List α)) (x : α) (mark : Bool) : Option (List α) :=
  if mark then some [x]
  else match store with
  | none => none
  | some entries => if limit ≤ entries.length then none else some (entries ++ [x])

/-- The entries since the last marked one. -/
def Since (log : List (α × Bool)) (entries : List α) : Prop :=
  ∃ pre key rest, log = pre ++ (key, true) :: rest ∧ (∀ e ∈ rest, e.2 = false) ∧
    entries = key :: rest.map Prod.fst

theorem not_since_nil : ¬ Since [] entries := by
  rintro ⟨pre, key, rest, h, -⟩
  exact absurd h (by simp)

/-- A marked entry. -/
theorem since_mark : Since (log ++ [(x, true)]) entries ↔ entries = [x] := by
  constructor
  · rintro ⟨pre, key, rest, hlog, hrest, rfl⟩
    rcases List.eq_nil_or_concat rest with rfl | ⟨rest, last, rfl⟩
    · obtain ⟨-, heq⟩ := List.append_inj' hlog rfl
      simp_all
    · rw [List.concat_eq_append, ← List.cons_append, ← List.append_assoc] at hlog
      obtain ⟨-, heq⟩ := List.append_inj' hlog rfl
      have hlast := hrest last (by simp)
      rw [← List.singleton_inj.1 heq] at hlast
      exact absurd hlast (by simp)
  · rintro rfl
    exact ⟨log, x, [], rfl, by simp, rfl⟩

/-- An entry without a mark. -/
theorem since_entry : Since (log ++ [(x, false)]) entries ↔
    ∃ before, Since log before ∧ entries = before ++ [x] := by
  constructor
  · rintro ⟨pre, key, rest, hlog, hrest, rfl⟩
    rcases List.eq_nil_or_concat rest with rfl | ⟨rest, last, rfl⟩
    · obtain ⟨-, heq⟩ := List.append_inj' hlog rfl
      simp at heq
    · rw [List.concat_eq_append, ← List.cons_append, ← List.append_assoc] at hlog
      obtain ⟨rfl, heq⟩ := List.append_inj' hlog rfl
      obtain rfl := List.singleton_inj.1 heq
      exact ⟨_, ⟨pre, key, rest, rfl, fun e he => hrest e (by simp [he]), rfl⟩, by simp⟩
  · rintro ⟨before, ⟨pre, key, rest, rfl, hrest, rfl⟩, rfl⟩
    refine ⟨pre, key, rest ++ [(x, false)], by simp, fun e he => ?_, by simp⟩
    rcases List.mem_append.1 he with he | he
    · exact hrest e he
    · rw [List.mem_singleton.1 he]

/-- The store has what came since the last mark, if there is room for it. -/
def Holds (limit : ℕ) (log : List (α × Bool)) (store : Option (List α)) : Prop :=
  ∀ entries, store = some entries ↔ Since log entries ∧ entries.length ≤ limit

theorem Holds.nil : Holds limit ([] : List (α × Bool)) none :=
  fun _ => ⟨fun h => absurd h (by simp), fun h => absurd h.1 not_since_nil⟩

theorem Holds.push {store : Option (List α)} (h : Holds limit log store)
    (hlimit : 1 ≤ limit) (x : α)
    (mark : Bool) : Holds limit (log ++ [(x, mark)]) (push limit store x mark) := by
  intro entries
  cases mark with
  | true =>
    unfold SinceMark.push
    rw [since_mark, if_pos rfl, Option.some.injEq]
    exact ⟨fun heq => ⟨heq.symm, heq ▸ hlimit⟩, fun heq => heq.1.symm⟩
  | false =>
    unfold SinceMark.push
    rw [since_entry, if_neg (by simp)]
    cases store with
    | none =>
      refine ⟨fun heq => absurd heq (by simp), ?_⟩
      rintro ⟨⟨before, hbefore, rfl⟩, hlen⟩
      rw [List.length_append, List.length_singleton] at hlen
      exact absurd ((h before).2 ⟨hbefore, by omega⟩) (by simp)
    | some stored =>
      obtain ⟨hstored, hfits⟩ := (h stored).1 rfl
      have hunique {before : List α} (hbefore : Since log before) (hlen : before.length ≤ limit) :
          stored = before := Option.some.inj ((h before).2 ⟨hbefore, hlen⟩)
      by_cases hfull : limit ≤ stored.length
      · dsimp only
        rw [if_pos hfull]
        refine ⟨fun heq => absurd heq (by simp), ?_⟩
        rintro ⟨⟨before, hbefore, rfl⟩, hlen⟩
        rw [List.length_append, List.length_singleton] at hlen
        rw [hunique hbefore (by omega)] at hfull
        omega
      · dsimp only
        rw [if_neg hfull, Option.some.injEq]
        constructor
        · rintro rfl
          refine ⟨⟨stored, hstored, rfl⟩, ?_⟩
          rw [List.length_append, List.length_singleton]
          omega
        · rintro ⟨⟨before, hbefore, rfl⟩, hlen⟩
          rw [List.length_append, List.length_singleton] at hlen
          rw [hunique hbefore (by omega)]

/-- What is stored starts with a mark. -/
theorem Holds.ne_nil {store : Option (List α)} (h : Holds limit log store)
    (hstore : store = some entries) : entries ≠ [] := by
  obtain ⟨⟨pre, key, rest, -, -, rfl⟩, -⟩ := (h entries).1 hstore
  exact List.cons_ne_nil _ _

end Lib.SinceMark
