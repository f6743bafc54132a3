import Mathlib.Data.List.Basic

/-!
# Runs of a deterministic transducer

A component that is called over and over is a step function `σ → ι → ω × σ`: from a state and an
input, an output and the next state. A run feeds it a list of inputs.

* `outputs` and `final` are what a run returns and where it ends; both split along `++`. `visits`
  are the steps of a run.
* `Invariant.final` carries a property kept by one step over a whole run.
* `forall_mem_outputs_iff` turns a property of all outputs into one of every step.
* `outputs_eq_of_simulation`: from related states, two machines whose steps agree and keep the
  relation give equal outputs.
-/

namespace Lib.Transducer

variable {σ τ ι ω : Type*} (step : σ → ι → ω × σ)

/-- The outputs of a run, one for each input. -/
def outputs : σ → List ι → List ω
  | _, [] => []
  | s, i :: is => (step s i).1 :: outputs (step s i).2 is

/-- The state a run ends in. -/
def final : σ → List ι → σ
  | s, [] => s
  | s, i :: is => final (step s i).2 is

/-- The steps of a run, each with the state that it is made in. -/
def visits : σ → List ι → List (σ × ι)
  | _, [] => []
  | s, i :: is => (s, i) :: visits (step s i).2 is

@[simp] theorem outputs_nil (s : σ) : outputs step s [] = [] := rfl

@[simp] theorem final_nil (s : σ) : final step s [] = s := rfl

theorem outputs_cons (s : σ) (i : ι) (is : List ι) :
    outputs step s (i :: is) = (step s i).1 :: outputs step (step s i).2 is := rfl

theorem final_cons (s : σ) (i : ι) (is : List ι) :
    final step s (i :: is) = final step (step s i).2 is := rfl

@[simp] theorem length_outputs (s : σ) (is : List ι) : (outputs step s is).length = is.length := by
  induction is generalizing s with
  | nil => rfl
  | cons i is ih => simp [outputs_cons, ih]

theorem final_append (s : σ) (is js : List ι) :
    final step s (is ++ js) = final step (final step s is) js := by
  induction is generalizing s with
  | nil => rfl
  | cons i is ih => simp [final_cons, ih]

theorem outputs_append (s : σ) (is js : List ι) :
    outputs step s (is ++ js) = outputs step s is ++ outputs step (final step s is) js := by
  induction is generalizing s with
  | nil => rfl
  | cons i is ih => simp [outputs_cons, final_cons, ih]

/-- A run through a machine behind translations of its inputs and outputs. -/
theorem outputs_comap {ι' ω' : Type*} (f : ι' → ι) (g : ω → ω') (s : σ) (is : List ι') :
    outputs (fun s i => (g (step s (f i)).1, (step s (f i)).2)) s is =
      (outputs step s (is.map f)).map g := by
  induction is generalizing s with
  | nil => rfl
  | cons i is ih => simp [outputs_cons, ih]

/-- `P` is kept by every step on an input that satisfies `A`. -/
def Invariant (A : ι → Prop) (P : σ → Prop) : Prop := ∀ s i, P s → A i → P (step s i).2

variable {step}

/-- **The run rule**: what every step keeps, every run keeps. -/
theorem Invariant.final {A : ι → Prop} {P : σ → Prop} (h : Invariant step A P) {s : σ} (hs : P s)
    {is : List ι} (his : ∀ i ∈ is, A i) : P (final step s is) := by
  induction is generalizing s with
  | nil => exact hs
  | cons i is ih =>
    exact ih (h s i hs (his i (by simp))) fun j hj => his j (by simp [hj])

/-- **The simulation rule**: if related states answer every admitted input alike and their
successors are related again, then runs from related states have the same outputs. -/
theorem outputs_eq_of_simulation {step' : τ → ι → ω × τ} {A : ι → Prop} {R : σ → τ → Prop}
    (hR : ∀ s t i, R s t → A i → (step s i).1 = (step' t i).1 ∧ R (step s i).2 (step' t i).2)
    {s : σ} {t : τ} (h : R s t) {is : List ι} (his : ∀ i ∈ is, A i) :
    outputs step s is = outputs step' t is := by
  induction is generalizing s t with
  | nil => rfl
  | cons i is ih =>
    obtain ⟨ho, hs⟩ := hR s t i h (his i (by simp))
    rw [outputs_cons, outputs_cons, ho, ih hs fun j hj => his j (by simp [hj])]

/-- **The relation rule**: if every step from a state with `P` on an input with `A` keeps `P` and
relates the input to its output by `Q`, so does every run. -/
theorem forall₂_outputs {A : ι → Prop} {P : σ → Prop} {Q : ι → ω → Prop}
    (h : ∀ s i, P s → A i → Q i (step s i).1 ∧ P (step s i).2) {s : σ} (hs : P s) {is : List ι}
    (his : ∀ i ∈ is, A i) : List.Forall₂ Q is (outputs step s is) := by
  induction is generalizing s with
  | nil => exact .nil
  | cons i is ih =>
    obtain ⟨hq, hp⟩ := h s i hs (his i (by simp))
    exact .cons hq (ih hp fun j hj => his j (by simp [hj]))

/-- **The prefix rule**: all outputs of a run have `Q` if and only if each step from where the
inputs before it lead has. -/
theorem forall_mem_outputs_iff {Q : ω → Prop} {s : σ} {is : List ι} :
    (∀ o ∈ outputs step s is, Q o) ↔
      ∀ pre i post, is = pre ++ i :: post → Q (step (final step s pre) i).1 := by
  induction is generalizing s with
  | nil => simp
  | cons j is ih =>
    rw [outputs_cons, List.forall_mem_cons, ih]
    constructor
    · rintro ⟨hj, his⟩ pre i post heq
      cases pre with
      | nil =>
        obtain ⟨rfl, -⟩ := List.cons.inj heq
        exact hj
      | cons k pre =>
        obtain ⟨rfl, hrest⟩ := List.cons.inj heq
        exact his pre i post hrest
    · intro h
      exact ⟨h [] j is rfl, fun pre i post heq => h (j :: pre) i post (by rw [heq]; rfl)⟩

/-! ## Conditions on every step

A condition on the steps of a run is one on each way to split its inputs at an input. -/

section Splits

variable {P : List ι → ι → Prop} {is js : List ι} {i : ι}

theorem forall_split_nil : ∀ pre i post, ([] : List ι) = pre ++ i :: post → P pre i :=
  fun pre i post h => absurd h (by simp)

theorem forall_split_left (h : ∀ pre i post, is ++ js = pre ++ i :: post → P pre i) :
    ∀ pre i post, is = pre ++ i :: post → P pre i :=
  fun pre i post his => h pre i (post ++ js) (by rw [his]; simp)

theorem forall_split_concat (h : ∀ pre i post, is = pre ++ i :: post → P pre i) (hi : P is i) :
    ∀ pre j post, is ++ [i] = pre ++ j :: post → P pre j := by
  intro pre j post heq
  rcases List.eq_nil_or_concat' post with rfl | ⟨post, last, rfl⟩
  · obtain ⟨rfl, hij⟩ := List.append_inj' heq rfl
    exact List.singleton_inj.1 hij ▸ hi
  · rw [← List.cons_append, ← List.append_assoc] at heq
    exact h pre j post (List.append_inj' heq rfl).1

end Splits

/-- **The guarded run rule**: what every step keeps that meets `C` in its state, every run keeps
whose steps all meet it. -/
theorem final_of_splits {P : σ → Prop} {C : σ → ι → Prop}
    (h : ∀ s i, P s → C s i → P (step s i).2) {s : σ} (hs : P s) {is : List ι}
    (hC : ∀ pre i post, is = pre ++ i :: post → C (final step s pre) i) :
    P (final step s is) := by
  induction is generalizing s with
  | nil => exact hs
  | cons i is ih =>
    exact ih (h s i hs (hC [] i is rfl)) fun pre j post heq =>
      hC (i :: pre) j post (congrArg (i :: ·) heq)

/-- The same rule over the visits of a run. -/
theorem final_of_visits {P : σ → Prop} {C : σ → ι → Prop}
    (h : ∀ s i, P s → C s i → P (step s i).2) {s : σ} (hs : P s) {is : List ι}
    (hC : ∀ v ∈ visits step s is, C v.1 v.2) : P (final step s is) := by
  induction is generalizing s with
  | nil => exact hs
  | cons i is ih =>
    exact ih (h s i hs (hC (s, i) List.mem_cons_self)) fun v hv =>
      hC v (List.mem_cons_of_mem _ hv)

end Lib.Transducer
