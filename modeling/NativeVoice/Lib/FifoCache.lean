import Mathlib.Algebra.Order.Group.Nat
import Mathlib.Data.List.DropRight
import Mathlib.Data.List.Nodup
import Mathlib.Logic.Function.Basic

/-!
# A bounded cache with a queue of its keys

A table, and a queue of the keys in the order in which they were entered. An entry is added at the
end of the queue, and then the oldest keys are taken off until no more than `cap` are left.

* `evict_eq`: what the eviction loop leaves of a table and a queue.
* `Holds cap log`: table and queue hold exactly the last `cap` entries of `log`.
* `Holds.push`: adding an entry whose key is not in the queue keeps this.
-/

namespace Lib.FifoCache

section Operations

variable {κ α : Type*} [DecidableEq κ]

/-- The eviction loop: as long as there are more than `cap` keys, the oldest one is taken off the
queue and out of the table. -/
def evict (cap : ℕ) (table : κ → Option α) : List κ → (κ → Option α) × List κ
  | [] => (table, [])
  | expired :: order =>
    if cap < (expired :: order).length then evict cap (Function.update table expired none) order
    else (table, expired :: order)

/-- Adding an entry. -/
def push (cap : ℕ) (table : κ → Option α) (order : List κ) (key : κ) (value : α) :
    (κ → Option α) × List κ :=
  evict cap (Function.update table key (some value)) (order ++ [key])

theorem evict_eq (cap : ℕ) (table : κ → Option α) (order : List κ) : evict cap table order =
    (fun k => if k ∈ order.take (order.length - cap) then none else table k, order.rtake cap) := by
  induction order generalizing table with
  | nil => simp [evict]
  | cons expired order ih =>
    rw [evict]
    by_cases h : cap < (expired :: order).length
    · have hlen : (expired :: order).length - cap = order.length - cap + 1 := by
        rw [List.length_cons] at h ⊢
        omega
      rw [if_pos h, ih, hlen, List.take_succ_cons]
      rw [show (expired :: order).rtake cap = order.rtake cap by
        rw [List.rtake, hlen, List.drop_succ_cons, List.rtake]]
      refine Prod.ext (funext fun k => ?_) rfl
      by_cases hk : k = expired
      · simp [hk]
      · simp [hk]
    · have hlen : (expired :: order).length - cap = 0 := by omega
      rw [if_neg h, List.rtake, hlen]
      simp

end Operations

variable {κ α : Type*}

/-- The table and the queue hold exactly the last `cap` entries of `log`, oldest first. -/
structure Holds (cap : ℕ) (log : List (κ × α)) (table : κ → Option α) (order : List κ) : Prop where
  order_eq : order = (log.rtake cap).map Prod.fst
  nodup : order.Nodup
  table_eq_some : ∀ k v, table k = some v ↔ (k, v) ∈ log.rtake cap

theorem Holds.nil (cap : ℕ) : Holds cap ([] : List (κ × α)) (fun _ => none) [] where
  order_eq := by simp [List.rtake]
  nodup := List.nodup_nil
  table_eq_some := by simp [List.rtake]

theorem Holds.mem_order {cap : ℕ} {log : List (κ × α)} {table : κ → Option α} {order : List κ}
    (h : Holds cap log table order) (k : κ) : k ∈ order ↔ ∃ v, table k = some v := by
  simp [h.order_eq, h.table_eq_some]

/-- The last `n` of a list and one more element. -/
theorem rtake_concat {β : Type*} {n : ℕ} (hn : 0 < n) (l : List β) (x : β) :
    (l ++ [x]).rtake n = (l.rtake n ++ [x]).rtake n := by
  unfold List.rtake
  rw [List.length_append, List.length_append, List.length_drop,
    List.drop_append_of_le_length (by simp; omega), List.drop_append_of_le_length (by simp; omega),
    List.drop_drop]
  congr 2
  simp only [List.length_cons, List.length_nil]
  omega

theorem rtake_map {β γ : Type*} (f : β → γ) (l : List β) (n : ℕ) :
    (l.map f).rtake n = (l.rtake n).map f := by
  simp [List.rtake, List.map_drop]

/-- **An entry with a new key** takes the place of the oldest one if the cache is full. -/
theorem Holds.push [DecidableEq κ] {cap : ℕ} (hcap : 0 < cap) {log : List (κ × α)}
    {table : κ → Option α} {order : List κ} (h : Holds cap log table order) {key : κ}
    (hkey : key ∉ order) (value : α) :
    Holds cap (log ++ [(key, value)]) (push cap table order key value).1
      (push cap table order key value).2 := by
  obtain ⟨horder, hnodup, htable⟩ := h
  set kept := log.rtake cap with hkept
  have hnodup' : (order ++ [key]).Nodup := by
    rw [List.nodup_append]
    refine ⟨hnodup, List.nodup_singleton _, fun a ha b hb => ?_⟩
    rintro rfl
    exact hkey (List.mem_singleton.1 hb ▸ ha)
  have hkeys : order ++ [key] = (kept ++ [(key, value)]).map Prod.fst := by simp [horder]
  have hpush : FifoCache.push cap table order key value =
      (fun k => if k ∈ (order ++ [key]).take ((order ++ [key]).length - cap) then none
        else Function.update table key (some value) k, (order ++ [key]).rtake cap) := evict_eq ..
  have hlog : (log ++ [(key, value)]).rtake cap = (kept ++ [(key, value)]).rtake cap := by
    rw [rtake_concat hcap, ← hkept]
  rw [hpush]
  refine ⟨?_, ?_, fun k v => ?_⟩
  · rw [hlog, hkeys, rtake_map]
  · exact hnodup'.sublist (List.drop_sublist _ _)
  · have hmem : Function.update table key (some value) k = some v ↔
        (k, v) ∈ kept ++ [(key, value)] := by
      by_cases hk : k = key
      · subst hk
        have hnot : (k, v) ∉ kept := fun hmem =>
          hkey (horder ▸ List.mem_map_of_mem (f := Prod.fst) hmem)
        simp [hnot, eq_comm]
      · simp [hk, htable]
    rw [hlog]
    -- an entry is evicted if and only if its key is among the oldest ones
    have hsplit := List.take_append_drop ((kept ++ [(key, value)]).length - cap)
      (kept ++ [(key, value)])
    have hlen : (order ++ [key]).length = (kept ++ [(key, value)]).length := by
      rw [hkeys, List.length_map]
    rw [hlen, hkeys, ← List.map_take]
    dsimp only
    have hdisjoint := hnodup'
    rw [hkeys, ← hsplit, List.map_append, List.nodup_append] at hdisjoint
    by_cases hold : k ∈ ((kept ++ [(key, value)]).take
        ((kept ++ [(key, value)]).length - cap)).map Prod.fst
    · rw [if_pos hold]
      simp only [reduceCtorEq, false_iff]
      intro hnew
      exact hdisjoint.2.2 k hold k (List.mem_map_of_mem (f := Prod.fst) hnew) rfl
    · rw [if_neg hold, hmem]
      constructor
      · intro hin
        rw [← hsplit, List.mem_append] at hin
        exact hin.resolve_left fun htake => hold (List.mem_map_of_mem (f := Prod.fst) htake)
      · exact fun hin => List.mem_of_mem_drop hin

end Lib.FifoCache
