import Mathlib.Data.List.AList
import Mathlib.Data.List.MinMax

/-!
# Dictionaries

Dictionaries as association lists with unique keys, the newest key first, and the operations on them
that Mathlib's `AList` does not have.

* `setdefault` inserts a key that is not there.
* `set` gives a key a value; a key that is there keeps its place.
* `modify` changes the value of a key that is there.
* `minKey` is the least key.
* `items` are the keys with their values, in the order of their insertion.
-/

abbrev Lib.Dict (κ α : Type*) := AList fun _ : κ => α

namespace AList

open Lib

variable {κ α : Type*} [DecidableEq κ] {d : Dict κ α} {k k' : κ} {v : α}

def size (d : Dict κ α) : ℕ := d.entries.length

omit [DecidableEq κ] in
@[simp] theorem length_keys (d : Dict κ α) : d.keys.length = d.size := by
  simp [size, AList.keys, List.keys]

omit [DecidableEq κ] in
@[simp] theorem size_empty : (∅ : Dict κ α).size = 0 := rfl

theorem size_insert_of_notMem (h : k ∉ d) : (d.insert k v).size = d.size + 1 := by
  rw [size, AList.entries_insert_of_notMem h]
  rfl

theorem size_erase (h : k ∈ d) : (d.erase k).size + 1 = d.size := by
  rw [← length_keys, ← length_keys, AList.keys_erase]
  exact List.length_erase_add_one (AList.mem_keys.1 h)

theorem mem_of_lookup (h : d.lookup k = some v) : k ∈ d :=
  AList.lookup_isSome.1 (by rw [h]; rfl)

theorem exists_lookup (h : k ∈ d) : ∃ v, d.lookup k = some v :=
  Option.isSome_iff_exists.1 (AList.lookup_isSome.2 h)

theorem lookup_erase_eq_ite (d : Dict κ α) (k k' : κ) :
    (d.erase k).lookup k' = if k' = k then none else d.lookup k' := by
  split
  · rename_i h
    rw [h, AList.lookup_erase]
  · rename_i h
    exact AList.lookup_erase_ne h

theorem lookup_insert_eq_ite (d : Dict κ α) (k k' : κ) (v : α) :
    (d.insert k v).lookup k' = if k' = k then some v else d.lookup k' := by
  split
  · rename_i h
    rw [h, AList.lookup_insert]
  · rename_i h
    exact AList.lookup_insert_ne h

/-! ## Insertion of missing keys -/

def setdefault (d : Dict κ α) (k : κ) (v : α) : Dict κ α := if k ∈ d then d else d.insert k v

theorem setdefault_of_mem (h : k ∈ d) : d.setdefault k v = d := if_pos h

theorem setdefault_of_notMem (h : k ∉ d) : d.setdefault k v = d.insert k v := if_neg h

theorem mem_setdefault : k' ∈ d.setdefault k v ↔ k' = k ∨ k' ∈ d := by
  by_cases h : k ∈ d
  · rw [setdefault_of_mem h]
    exact ⟨.inr, fun hk => hk.elim (fun heq => heq ▸ h) id⟩
  · rw [setdefault_of_notMem h]
    exact mem_insert d

theorem mem_setdefault_self (d : Dict κ α) (k : κ) (v : α) : k ∈ d.setdefault k v :=
  mem_setdefault.2 (.inl rfl)

theorem lookup_setdefault_ne (h : k' ≠ k) : (d.setdefault k v).lookup k' = d.lookup k' := by
  by_cases hk : k ∈ d
  · rw [setdefault_of_mem hk]
  · rw [setdefault_of_notMem hk, AList.lookup_insert_ne h]

theorem lookup_setdefault_of_notMem (h : k ∉ d) : (d.setdefault k v).lookup k = some v := by
  rw [setdefault_of_notMem h, AList.lookup_insert]

/-- What is found was there, or is the new value. -/
theorem lookup_of_lookup_setdefault {v' : α} (h : (d.setdefault k v).lookup k' = some v') :
    v' = v ∨ d.lookup k' = some v' := by
  by_cases hk : k ∈ d
  · rw [setdefault_of_mem hk] at h
    exact .inr h
  · rw [setdefault_of_notMem hk, lookup_insert_eq_ite] at h
    split at h
    · exact .inl (Option.some.inj h).symm
    · exact .inr h

theorem size_setdefault_le (d : Dict κ α) (k : κ) (v : α) :
    (d.setdefault k v).size ≤ d.size + 1 := by
  by_cases h : k ∈ d
  · rw [setdefault_of_mem h]
    omega
  · rw [setdefault_of_notMem h, size_insert_of_notMem h]

/-! ## Values -/

/-- The keys and their values, the oldest key first. -/
def items (d : Dict κ α) : List (κ × α) := d.entries.reverse.map fun e => (e.1, e.2)

theorem mem_items : (k, v) ∈ d.items ↔ d.lookup k = some v := by
  rw [← Option.mem_def, mem_lookup_iff, items, List.mem_map]
  constructor
  · rintro ⟨⟨k', v'⟩, hmem, heq⟩
    obtain ⟨rfl, rfl⟩ := Prod.mk.inj heq
    exact List.mem_reverse.1 hmem
  · exact fun h => ⟨⟨k, v⟩, List.mem_reverse.2 h, rfl⟩

omit [DecidableEq κ] in
theorem map_fst_items (d : Dict κ α) : d.items.map Prod.fst = d.keys.reverse := by
  simp [items, keys, List.keys]

omit [DecidableEq κ] in
theorem nodup_map_fst_items (d : Dict κ α) : (d.items.map Prod.fst).Nodup := by
  rw [map_fst_items]
  exact List.nodup_reverse.2 d.keys_nodup

omit [DecidableEq κ] in
theorem mem_map_fst_items : k ∈ d.items.map Prod.fst ↔ k ∈ d := by
  rw [map_fst_items, List.mem_reverse, mem_keys]

theorem lookup_replace (d : Dict κ α) (k k' : κ) (v : α) (h : k ∈ d) :
    (d.replace k v).lookup k' = if k' = k then some v else d.lookup k' := by
  obtain ⟨l, hl⟩ := d
  show (l.kreplace k v).dlookup k' = if k' = k then some v else l.dlookup k'
  rw [mem_mk] at h
  clear hl
  induction l with
  | nil => simp at h
  | cons e l ih =>
    obtain ⟨a, b⟩ := e
    rcases eq_or_ne k a with rfl | hne
    · have hreplace : (⟨k, b⟩ :: l : List (Sigma fun _ : κ => α)).kreplace k v = ⟨k, v⟩ :: l := by
        simp [List.kreplace]
      rw [hreplace]
      split
      · rename_i heq
        rw [heq, List.dlookup_cons_eq]
      · rename_i hne
        rw [List.dlookup_cons_ne _ _ hne, List.dlookup_cons_ne _ _ hne]
    · have hreplace : (⟨a, b⟩ :: l : List (Sigma fun _ : κ => α)).kreplace k v =
          ⟨a, b⟩ :: l.kreplace k v := by
        simp [List.kreplace, hne]
      rw [hreplace]
      have hmem : k ∈ l.keys := by simpa [hne] using h
      rcases eq_or_ne k' a with rfl | hne'
      · rw [if_neg hne.symm, List.dlookup_cons_eq, List.dlookup_cons_eq]
      · rw [List.dlookup_cons_ne _ _ hne', List.dlookup_cons_ne _ _ hne', ih hmem]

def set (d : Dict κ α) (k : κ) (v : α) : Dict κ α :=
  if k ∈ d then d.replace k v else d.insert k v

theorem lookup_set (d : Dict κ α) (k k' : κ) (v : α) :
    (d.set k v).lookup k' = if k' = k then some v else d.lookup k' := by
  unfold set
  split
  · rename_i hmem
    exact lookup_replace d k k' v hmem
  · exact lookup_insert_eq_ite d k k' v

theorem mem_set : k' ∈ d.set k v ↔ k' = k ∨ k' ∈ d := by
  rw [← lookup_isSome, lookup_set, ← lookup_isSome]
  split <;> simp [*]

theorem size_set_of_mem (h : k ∈ d) : (d.set k v).size = d.size := by
  rw [set, if_pos h, ← length_keys, keys_replace, length_keys]

theorem size_set_of_notMem (h : k ∉ d) : (d.set k v).size = d.size + 1 := by
  rw [set, if_neg h, size_insert_of_notMem h]

/-- New keys, all with one value. -/
theorem lookup_foldl_set (l : List κ) (d : Dict κ α) (v : α) (k : κ) :
    (l.foldl (fun d k => d.set k v) d).lookup k = if k ∈ l then some v else d.lookup k := by
  induction l generalizing d with
  | nil => simp
  | cons a l ih =>
    rw [List.foldl_cons, ih, lookup_set]
    by_cases hl : k ∈ l
    · simp [hl]
    · by_cases ha : k = a <;> simp [hl, ha]

theorem size_foldl_set {l : List κ} (hl : l.Nodup) (hd : ∀ k ∈ l, k ∉ d) :
    (l.foldl (fun d k => d.set k v) d).size = d.size + l.length := by
  induction l generalizing d with
  | nil => simp
  | cons a l ih =>
    obtain ⟨ha, hl⟩ := List.nodup_cons.1 hl
    rw [List.foldl_cons, ih hl fun k hk => ?_, size_set_of_notMem (hd a (by simp)),
      List.length_cons]
    · omega
    · rw [mem_set, not_or]
      exact ⟨fun h => ha (h ▸ hk), hd k (List.mem_cons_of_mem a hk)⟩

theorem lookup_foldl_erase (l : List κ) (d : Dict κ α) (k : κ) :
    (l.foldl (fun d k => d.erase k) d).lookup k = if k ∈ l then none else d.lookup k := by
  induction l generalizing d with
  | nil => simp
  | cons a l ih =>
    rw [List.foldl_cons, ih, lookup_erase_eq_ite]
    by_cases hl : k ∈ l
    · simp [hl]
    · by_cases ha : k = a <;> simp [hl, ha]

theorem size_erase_le (d : Dict κ α) (k : κ) : (d.erase k).size ≤ d.size := by
  rw [← length_keys, ← length_keys, keys_erase]
  exact List.length_erase_le

theorem size_foldl_erase_le (l : List κ) (d : Dict κ α) :
    (l.foldl (fun d k => d.erase k) d).size ≤ d.size := by
  induction l generalizing d with
  | nil => simp
  | cons a l ih => exact (ih (d.erase a)).trans (size_erase_le d a)

def modify (d : Dict κ α) (k : κ) (f : α → α) : Dict κ α :=
  match d.lookup k with
  | none => d
  | some v => d.set k (f v)

theorem lookup_modify (d : Dict κ α) (k k' : κ) (f : α → α) :
    (d.modify k f).lookup k' = if k' = k then (d.lookup k).map f else d.lookup k' := by
  cases h : d.lookup k with
  | none =>
    simp only [modify, h]
    split
    · rename_i heq
      rw [heq, h]
      rfl
    · rfl
  | some v =>
    simp only [modify, h]
    exact lookup_set ..

theorem size_modify (d : Dict κ α) (k : κ) (f : α → α) : (d.modify k f).size = d.size := by
  unfold modify
  cases h : d.lookup k with
  | none => rfl
  | some v => exact size_set_of_mem (mem_of_lookup h)

theorem lookup_foldl_modify {l : List κ} (hl : l.Nodup) (d : Dict κ α) (f : α → α) (k : κ) :
    (l.foldl (fun d k => d.modify k f) d).lookup k =
      if k ∈ l then (d.lookup k).map f else d.lookup k := by
  induction l generalizing d with
  | nil => simp
  | cons a l ih =>
    obtain ⟨ha, hl⟩ := List.nodup_cons.1 hl
    rw [List.foldl_cons, ih hl, lookup_modify]
    rcases eq_or_ne k a with rfl | hne
    · simp [ha]
    · simp [hne]

theorem size_foldl_modify (l : List κ) (d : Dict κ α) (f : α → α) :
    (l.foldl (fun d k => d.modify k f) d).size = d.size := by
  induction l generalizing d with
  | nil => rfl
  | cons a l ih => rw [List.foldl_cons, ih, size_modify]

theorem size_eq_zero : d.size = 0 ↔ ∀ k, d.lookup k = none := by
  rw [← length_keys, List.length_eq_zero_iff, List.eq_nil_iff_forall_not_mem]
  exact forall_congr' fun k => lookup_eq_none.symm

/-! ## The least key -/

section minKey

variable {ι : Type*} [LinearOrder ι] {d : Dict ι α} {k : ι}

def minKey (d : Dict ι α) : Option ι := d.keys.min?

theorem minKey_eq_some : d.minKey = some k ↔ k ∈ d ∧ ∀ k' ∈ d, k ≤ k' :=
  List.min?_eq_some_iff

theorem exists_minKey (h : k ∈ d) : ∃ k', d.minKey = some k' :=
  Option.isSome_iff_exists.1 (List.isSome_min?_of_mem (AList.mem_keys.1 h))

end minKey

end AList
