import Mathlib.Algebra.Order.BigOperators.Group.List
import Mathlib.Algebra.Ring.Int.Defs
import Mathlib.Data.List.Induction
import Mathlib.Data.List.Perm.Basic

/-!
# Sums with saturation

Adding terms one after the other, with every sum clamped between two bounds, against clamping the
sum of all terms.

* `sum_eq_clamp_iff`: both agree all along, if and only if no term turns back a sum that is beyond a
  bound.
* `clamp_sum_of_wider`: the same terms added with wider bounds are then clamped to the same.
* `forall_perm_not_turns_iff`: no order of the terms behind the first one turns back, if and only if
  the terms of one sign do not lead beyond a bound, unless all have that sign.
-/

namespace Lib.Saturation

section Sums

variable (lo hi : ℤ)

def clamp (x : ℤ) : ℤ := max lo (min hi x)

def add (x y : ℤ) : ℤ := clamp lo hi (x + y)

/-- Terms that are added one after the other. -/
def sum (xs : List ℤ) : ℤ := xs.foldl (add lo hi) 0

/-- A term leads back from a sum that is beyond a bound. -/
def Turns (total x : ℤ) : Prop := hi < total ∧ x < 0 ∨ total < lo ∧ 0 < x

variable {lo hi}

theorem sum_concat (xs : List ℤ) (x : ℤ) : sum lo hi (xs ++ [x]) = add lo hi (sum lo hi xs) x := by
  rw [sum, List.foldl_append]
  rfl

theorem sum_bounds (hlo : lo ≤ 0) (hhi : 0 ≤ hi) (xs : List ℤ) :
    lo ≤ sum lo hi xs ∧ sum lo hi xs ≤ hi := by
  induction xs using List.reverseRecOn with
  | nil => exact ⟨hlo, hhi⟩
  | append_singleton xs x ih =>
    rw [sum_concat, add, clamp]
    omega

theorem add_clamp_eq_iff {total x : ℤ} (hlo : lo ≤ 0) (hhi : 0 ≤ hi) (hx : lo ≤ x ∧ x ≤ hi) :
    add lo hi (clamp lo hi total) x = clamp lo hi (total + x) ↔ ¬Turns lo hi total x := by
  simp only [add, clamp, Turns]
  omega

theorem add_zero_of_bounds {x : ℤ} (hx : lo ≤ x ∧ x ≤ hi) : add lo hi x 0 = x := by
  rw [add, clamp]
  omega

theorem sum_replicate_zero (hlo : lo ≤ 0) (hhi : 0 ≤ hi) (n : ℕ) :
    sum lo hi (List.replicate n 0) = 0 := by
  induction n with
  | zero => rfl
  | succ n ih =>
    rw [List.replicate_succ', sum_concat, ih]
    exact add_zero_of_bounds ⟨hlo, hhi⟩

/-- Terms that are left out make no difference if they are zero. -/
theorem sum_filterMap {β γ : Type*} (hlo : lo ≤ 0) (hhi : 0 ≤ hi) {g : β → Option γ} {f : β → ℤ}
    {h : γ → ℤ} (hnone : ∀ b, g b = none → f b = 0) (hsome : ∀ b c, g b = some c → h c = f b)
    (l : List β) : sum lo hi ((l.filterMap g).map h) = sum lo hi (l.map f) := by
  induction l using List.reverseRecOn with
  | nil => rfl
  | append_singleton l b ih =>
    rw [List.filterMap_append, List.map_append, List.map_append, List.map_singleton, sum_concat]
    cases hb : g b with
    | none =>
      rw [hnone b hb, add_zero_of_bounds (sum_bounds hlo hhi _), ← ih]
      simp [hb]
    | some c =>
      rw [← ih, ← hsome b c hb, ← sum_concat]
      simp [hb]

/-- **The sums agree all along** if and only if no term turns back. -/
theorem sum_eq_clamp_iff {xs : List ℤ} (hlo : lo ≤ 0) (hhi : 0 ≤ hi)
    (hxs : ∀ x ∈ xs, lo ≤ x ∧ x ≤ hi) :
    (∀ pre post, xs = pre ++ post → sum lo hi pre = clamp lo hi pre.sum) ↔
      ∀ pre x post, xs = pre ++ x :: post → ¬Turns lo hi pre.sum x := by
  constructor
  · intro h pre x post heq
    have hbefore := h pre (x :: post) heq
    have hafter := h (pre ++ [x]) post (by rw [heq, List.append_assoc]; rfl)
    rw [sum_concat, hbefore, List.sum_append, List.sum_singleton] at hafter
    exact (add_clamp_eq_iff hlo hhi (hxs x (by simp [heq]))).1 hafter
  · intro h pre
    induction pre using List.reverseRecOn with
    | nil =>
      intro post _
      simp only [sum, clamp, List.foldl_nil, List.sum_nil]
      omega
    | append_singleton pre x ih =>
      intro post heq
      rw [List.append_assoc] at heq
      rw [sum_concat, ih _ heq, List.sum_append, List.sum_singleton]
      exact (add_clamp_eq_iff hlo hhi (hxs x (by simp [heq]))).2 (h pre x post heq)

/-- **Wider bounds** that two terms cannot reach make no difference behind a clamp, if no term turns
back. -/
theorem clamp_sum_of_wider {lo' hi' : ℤ} {xs : List ℤ} (hlo : lo ≤ 0) (hhi : 0 ≤ hi)
    (hlo' : lo' < 2 * lo) (hhi' : 2 * hi < hi') (hxs : ∀ x ∈ xs, lo ≤ x ∧ x ≤ hi)
    (h : ∀ pre x post, xs = pre ++ x :: post → ¬Turns lo hi pre.sum x) :
    clamp lo hi (sum lo' hi' xs) = clamp lo hi xs.sum := by
  have hside : ∀ pre post, xs = pre ++ post →
      (lo ≤ pre.sum ∧ pre.sum ≤ hi ∧ sum lo' hi' pre = pre.sum) ∨
        (hi < pre.sum ∧ hi < sum lo' hi' pre) ∨ (pre.sum < lo ∧ sum lo' hi' pre < lo) := by
    intro pre
    induction pre using List.reverseRecOn with
    | nil => exact fun _ _ => .inl ⟨hlo, hhi, rfl⟩
    | append_singleton pre x ih =>
      intro post heq
      rw [List.append_assoc] at heq
      have hx := hxs x (by simp [heq])
      have hturn := h pre x post heq
      have hbefore := ih _ heq
      rw [sum_concat, List.sum_append, List.sum_singleton]
      simp only [add, clamp, Turns] at hturn ⊢
      omega
  have hall := hside xs [] (List.append_nil xs).symm
  simp only [clamp]
  omega

end Sums

/-! ## All orders -/

section Orders

variable {β : Type*}

/-- What the terms that are positive add. -/
def rises (f : β → ℤ) (l : List β) : ℤ := (l.map fun b => max 0 (f b)).sum

theorem rises_append (f : β → ℤ) (l l' : List β) : rises f (l ++ l') = rises f l + rises f l' := by
  rw [rises, List.map_append, List.sum_append]
  rfl

theorem rises_nonneg (f : β → ℤ) (l : List β) : 0 ≤ rises f l := by
  refine List.sum_nonneg fun x hx => ?_
  obtain ⟨b, -, rfl⟩ := List.mem_map.1 hx
  exact le_max_left _ _

theorem sum_le_rises (f : β → ℤ) (l : List β) : (l.map f).sum ≤ rises f l :=
  List.sum_le_sum fun _ _ => le_max_right _ _

theorem rises_perm (f : β → ℤ) {l l' : List β} (h : l.Perm l') : rises f l = rises f l' :=
  (h.map _).sum_eq

theorem sum_filter_nonneg (f : β → ℤ) (l : List β) :
    ((l.filter fun b => decide (0 ≤ f b)).map f).sum = rises f l := by
  induction l with
  | nil => rfl
  | cons b l ih =>
    have hcons : rises f (b :: l) = max 0 (f b) + rises f l := List.sum_cons
    rw [hcons]
    by_cases hb : 0 ≤ f b
    · rw [List.filter_cons_of_pos (by simpa using hb), List.map_cons, List.sum_cons, ih,
        max_eq_right hb]
    · rw [List.filter_cons_of_neg (by simpa using hb), ih, max_eq_left (by omega), zero_add]

/-- No order has a negative term behind a sum above the bound, if and only if the positive terms
stay below it, or none is negative. -/
theorem forall_perm_le_iff (hi : ℤ) (f : β → ℤ) (first : ℤ) (rest : List β) :
    (∀ rest', rest.Perm rest' → ∀ pre b post, rest' = pre ++ b :: post →
      ¬(hi < first + (pre.map f).sum ∧ f b < 0)) ↔
    ((∃ b ∈ rest, f b < 0) → first + rises f rest ≤ hi) := by
  constructor
  · rintro h ⟨b, hb, hneg⟩
    -- all positive terms first
    have hperm := List.filter_append_perm (fun b => decide (0 ≤ f b)) rest
    have hmem : b ∈ rest.filter fun b => !decide (0 ≤ f b) :=
      List.mem_filter.2 ⟨hb, by simpa using hneg⟩
    obtain ⟨c, post, hc⟩ := List.exists_cons_of_ne_nil (List.ne_nil_of_mem hmem)
    have hcneg : f c < 0 := by
      have hcmem : c ∈ rest.filter fun b => !decide (0 ≤ f b) := by
        rw [hc]
        exact List.mem_cons_self
      simpa using (List.mem_filter.1 hcmem).2
    have hturn := h _ hperm.symm _ c post (by rw [hc])
    rw [sum_filter_nonneg] at hturn
    omega
  · rintro h rest' hperm pre b post rfl ⟨hover, hneg⟩
    have hle := h ⟨b, hperm.mem_iff.2 (by simp), hneg⟩
    rw [rises_perm f hperm, rises_append] at hle
    have hpre := sum_le_rises f pre
    have hpost := rises_nonneg f (b :: post)
    omega

/-- The terms of one sign behind the first one do not lead beyond a bound, or all have that sign. -/
def OneWay (lo hi : ℤ) (f : β → ℤ) (first : ℤ) (rest : List β) : Prop :=
  ((∃ b ∈ rest, f b < 0) → first + rises f rest ≤ hi) ∧
    ((∃ b ∈ rest, 0 < f b) → lo ≤ first - rises (fun b => -f b) rest)

theorem sum_map_neg (f : β → ℤ) (l : List β) : (l.map fun b => -f b).sum = -(l.map f).sum := by
  induction l with
  | nil => rfl
  | cons b l ih =>
    rw [List.map_cons, List.map_cons, List.sum_cons, List.sum_cons, ih]
    omega

/-- **No order of the terms turns back**, if and only if they lead one way. -/
theorem forall_perm_not_turns_iff (lo hi : ℤ) (f : β → ℤ) (first : ℤ) (rest : List β) :
    (∀ rest', rest.Perm rest' → ∀ pre b post, rest' = pre ++ b :: post →
      ¬Turns lo hi (first + (pre.map f).sum) (f b)) ↔ OneWay lo hi f first rest := by
  have hup := forall_perm_le_iff hi f first rest
  have hdown := forall_perm_le_iff (-lo) (fun b => -f b) (-first) rest
  have hneg : ((∃ b ∈ rest, -f b < 0) → -first + rises (fun b => -f b) rest ≤ -lo) ↔
      ((∃ b ∈ rest, 0 < f b) → lo ≤ first - rises (fun b => -f b) rest) := by
    have hsome : (∃ b ∈ rest, -f b < 0) ↔ ∃ b ∈ rest, 0 < f b :=
      exists_congr fun b => and_congr_right fun _ => by omega
    rw [hsome]
    exact imp_congr_right fun _ => by omega
  rw [OneWay, ← hup, ← hneg, ← hdown]
  constructor
  · intro h
    refine ⟨fun rest' hperm pre b post heq hturn => ?_, fun rest' hperm pre b post heq hturn => ?_⟩
    · exact h rest' hperm pre b post heq (.inl hturn)
    · rw [sum_map_neg] at hturn
      exact h rest' hperm pre b post heq (.inr ⟨by omega, by omega⟩)
  · rintro ⟨habove, hbelow⟩ rest' hperm pre b post heq (hturn | hturn)
    · exact habove rest' hperm pre b post heq hturn
    · refine hbelow rest' hperm pre b post heq ?_
      rw [sum_map_neg]
      omega

end Orders

end Lib.Saturation
