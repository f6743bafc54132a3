import NativeVoice.Lib.Transducer

/-!
# Loops over fallible steps

A loop calls a step on one input after the other and gathers what the calls give. A call may fail,
and then the state is the one that the call left.

* `collect` is the loop that ends with the first failure, and loses what it has gathered.
* The attempts of a call are the results of the fallible steps it is made of, if each is made
  whatever became of those before it; `delivered` is what they give together.
* `Aborts step attempts`: without a failure among its attempts, a call gives what they give, and it
  fails with one. `Aborts.collect` is the rule for loops, in loops also.
* `calls` are the calls that a loop makes; `collect_invariant` is the rule for what each of them
  keeps.
-/

namespace Lib.Batch

open Transducer

variable {σ ι ω ε : Type*}

/-- The loop that gathers the results of a step, until one fails. -/
def collect (step : σ → ι → Except ε (List ω) × σ) : σ → List ι → Except ε (List ω) × σ
  | s, [] => (.ok [], s)
  | s, i :: is =>
    match step s i with
    | (.error e, s) => (.error e, s)
    | (.ok results, s) =>
      match collect step s is with
      | (.error e, s) => (.error e, s)
      | (.ok rest, s) => (.ok (results ++ rest), s)

/-- The calls of such a loop, each with the state that it is made in. -/
def calls (step : σ → ι → Except ε (List ω) × σ) : σ → List ι → List (σ × ι)
  | _, [] => []
  | s, i :: is =>
    (s, i) :: match step s i with
    | (.error _, _) => []
    | (.ok _, s) => calls step s is

/-- What attempts give together. -/
def delivered (attempts : List (Except ε (List ω))) : List ω :=
  attempts.flatMap fun r => r.toOption.getD []

/-- One of the attempts failed. -/
def Fails (attempts : List (Except ε (List ω))) : Prop := ∃ e, .error e ∈ attempts

/-- The attempts of a loop in which every call is made. -/
def attemptsAll (attempts : σ → ι → List (Except ε (List ω)) × σ) (s : σ) (is : List ι) :
    List (Except ε (List ω)) × σ :=
  ((outputs attempts s is).flatten, final attempts s is)

/-- A call is its attempts, up to the first failure. -/
structure Aborts (step : σ → ι → Except ε (List ω) × σ)
    (attempts : σ → ι → List (Except ε (List ω)) × σ) : Prop where
  ok : ∀ s i, ¬ Fails (attempts s i).1 → step s i = (.ok (delivered (attempts s i).1),
    (attempts s i).2)
  error : ∀ s i, Fails (attempts s i).1 → ∃ e, (step s i).1 = .error e

@[simp] theorem delivered_nil : delivered ([] : List (Except ε (List ω))) = [] := rfl

@[simp] theorem delivered_append (a b : List (Except ε (List ω))) :
    delivered (a ++ b) = delivered a ++ delivered b := List.flatMap_append

theorem fails_append {a b : List (Except ε (List ω))} : Fails (a ++ b) ↔ Fails a ∨ Fails b := by
  simp only [Fails, List.mem_append, exists_or]

theorem not_fails_nil : ¬ Fails ([] : List (Except ε (List ω))) := by
  rintro ⟨e, he⟩
  cases he

theorem attemptsAll_cons (attempts : σ → ι → List (Except ε (List ω)) × σ) (s : σ) (i : ι)
    (is : List ι) : attemptsAll attempts s (i :: is) =
      ((attempts s i).1 ++ (attemptsAll attempts (attempts s i).2 is).1,
        (attemptsAll attempts (attempts s i).2 is).2) := rfl

section collect

variable {step : σ → ι → Except ε (List ω) × σ} {s s' : σ} {i : ι} {is : List ι} {e : ε}
variable {results rest : List ω}

theorem collect_cons_error (h : step s i = (.error e, s')) :
    collect step s (i :: is) = (.error e, s') := by
  simp only [collect, h]

theorem collect_cons_ok (h : step s i = (.ok results, s')) : collect step s (i :: is) =
    ((collect step s' is).1.map (results ++ ·), (collect step s' is).2) := by
  simp only [collect, h]
  rcases collect step s' is with ⟨_ | _, _⟩ <;> rfl

theorem mem_of_mem_calls {c : σ × ι} (h : c ∈ calls step s is) : c.2 ∈ is := by
  induction is generalizing s with
  | nil => cases h
  | cons i is ih =>
    rcases List.mem_cons.1 h with rfl | h
    · exact List.mem_cons_self
    · rcases hstep : step s i with ⟨_ | _, s'⟩
      · simp [hstep] at h
      · simp only [hstep] at h
        exact List.mem_cons_of_mem i (ih h)

/-- **The invariant rule**: if every call that meets `C` keeps `P` and gives results with `Q`, so
does a loop whose calls all meet `C`. -/
theorem collect_invariant {P : σ → Prop} {C : σ → ι → Prop} {Q : ω → Prop}
    (h : ∀ s i, P s → C s i → P (step s i).2 ∧
      ∀ results, (step s i).1 = .ok results → ∀ o ∈ results, Q o)
    (hs : P s) (hcalls : ∀ c ∈ calls step s is, C c.1 c.2) :
    P (collect step s is).2 ∧
      ∀ results, (collect step s is).1 = .ok results → ∀ o ∈ results, Q o := by
  induction is generalizing s with
  | nil =>
    refine ⟨hs, fun results hresults o ho => ?_⟩
    obtain rfl := Except.ok.inj hresults
    cases ho
  | cons i is ih =>
    obtain ⟨hs', hq⟩ := h s i hs (hcalls (s, i) List.mem_cons_self)
    rcases hstep : step s i with ⟨e | results, s'⟩
    · rw [collect_cons_error hstep]
      rw [hstep] at hs'
      exact ⟨hs', fun _ hresults => by cases hresults⟩
    · rw [hstep] at hs' hq
      have htail : ∀ c ∈ calls step s' is, C c.1 c.2 := fun c hc =>
        hcalls c (List.mem_cons_of_mem _ (by simpa only [hstep] using hc))
      obtain ⟨hfinal, hrest⟩ := ih hs' htail
      rw [collect_cons_ok hstep]
      refine ⟨hfinal, fun all hall o ho => ?_⟩
      cases htail : (collect step s' is).1 with
      | error e =>
        rw [htail] at hall
        cases hall
      | ok rest =>
        rw [htail] at hall
        obtain rfl := Except.ok.inj hall
        exact (List.mem_append.1 ho).elim (hq results rfl o) (hrest rest htail o)

end collect

/-- A single fallible step is its one attempt. -/
theorem Aborts.single (step : σ → ι → Except ε (List ω) × σ) :
    Aborts step fun s i => ([(step s i).1], (step s i).2) where
  ok s i h := by
    cases hr : (step s i).1 with
    | error e => exact absurd ⟨e, by simp [hr]⟩ h
    | ok results =>
      refine Prod.ext ?_ rfl
      simp [hr, delivered, Except.toOption]
  error s i h := by
    obtain ⟨e, he⟩ := h
    exact ⟨e, (List.mem_singleton.1 he).symm⟩

/-- **The rule for loops**: a loop over calls is the attempts of all of them, up to the first
failure. -/
theorem Aborts.collect {step : σ → ι → Except ε (List ω) × σ}
    {attempts : σ → ι → List (Except ε (List ω)) × σ} (h : Aborts step attempts) :
    Aborts (collect step) (attemptsAll attempts) where
  ok s is hok := by
    induction is generalizing s with
    | nil => rfl
    | cons i is ih =>
      rw [attemptsAll_cons, fails_append, not_or] at hok
      rw [attemptsAll_cons, collect_cons_ok (h.ok s i hok.1), ih _ hok.2, delivered_append]
      rfl
  error s is herr := by
    induction is generalizing s with
    | nil => exact absurd herr not_fails_nil
    | cons i is ih =>
      rw [attemptsAll_cons, fails_append] at herr
      by_cases hi : Fails (attempts s i).1
      · obtain ⟨e, he⟩ := h.error s i hi
        have hcollect : Batch.collect step s (i :: is) = (.error e, (step s i).2) :=
          collect_cons_error (Prod.ext he rfl)
        exact ⟨e, congrArg Prod.fst hcollect⟩
      · obtain ⟨e, he⟩ := ih _ (herr.resolve_left hi)
        exact ⟨e, by rw [collect_cons_ok (h.ok s i hi), he]; rfl⟩

/-- An aborted call gives nothing: it gives what its attempts give if and only if none of them fails
or they give nothing. -/
theorem Aborts.getD_eq_iff {step : σ → ι → Except ε (List ω) × σ}
    {attempts : σ → ι → List (Except ε (List ω)) × σ} (h : Aborts step attempts) (s : σ) (i : ι)
    (before : List ω) : ((step s i).1.map (before ++ ·)).toOption.getD [] =
      before ++ delivered (attempts s i).1 ↔
        ¬ Fails (attempts s i).1 ∨ before ++ delivered (attempts s i).1 = [] := by
  by_cases hf : Fails (attempts s i).1
  · obtain ⟨e, he⟩ := h.error s i hf
    rw [he]
    simp only [hf, not_true_eq_false, false_or]
    exact eq_comm
  · rw [h.ok s i hf]
    simp [hf, Except.map, Except.toOption]

end Lib.Batch
