import Mathlib.Data.List.Forall2
import NativeVoice.Lib.Batch

/-!
# Order through a queue that loses

Items arrive, wait, and are passed on or lost. They keep their order if what has been passed on,
followed by what still waits, is a part of what waited before, followed by what has arrived since.

* `Passes R waiting arrived passed waiting'`: this, where the item `a` is passed on as a `b` with
  `R a b`. It composes (`Passes.trans`), and what was passed on may be lost behind it
  (`Passes.lose`).
* `Composes T`: a relation between two states, the items that arrive and the items that are passed
  on between them, which goes along runs: `Composes.collect` for a loop over fallible calls,
  `Composes.outputs` for a run.
-/

namespace Lib.LossyQueue

open Transducer Batch
open scoped List

variable {α β : Type*}

/-- Between two contents of a queue, some items arrive, and some are passed on in their order. -/
def Passes (R : α → β → Prop) (waiting arrived : List α) (passed : List β) (waiting' : List α) :
    Prop :=
  ∃ taken, List.Forall₂ R taken passed ∧ taken ++ waiting' <+ waiting ++ arrived

namespace Passes

variable {R : α → β → Prop} {waiting waiting' waiting'' arrived arrived' : List α}
variable {passed passed' : List β}

/-- Nothing is passed on. -/
theorem wait (h : waiting' <+ waiting ++ arrived) : Passes R waiting arrived [] waiting' :=
  ⟨[], .nil, h⟩

theorem refl (waiting : List α) : Passes R waiting [] [] waiting :=
  wait (by rw [List.append_nil])

theorem trans (h : Passes R waiting arrived passed waiting')
    (h' : Passes R waiting' arrived' passed' waiting'') :
    Passes R waiting (arrived ++ arrived') (passed ++ passed') waiting'' := by
  obtain ⟨taken, htaken, hrest⟩ := h
  obtain ⟨taken', htaken', hrest'⟩ := h'
  refine ⟨taken ++ taken', List.rel_append htaken htaken', ?_⟩
  have hfirst : taken ++ (taken' ++ waiting'') <+ taken ++ (waiting' ++ arrived') :=
    (List.Sublist.refl taken).append hrest'
  have hsecond : (taken ++ waiting') ++ arrived' <+ (waiting ++ arrived) ++ arrived' :=
    hrest.append (.refl _)
  rw [List.append_assoc] at hsecond ⊢
  rw [List.append_assoc] at hsecond
  exact hfirst.trans hsecond

/-- What was passed on is lost. -/
theorem lose (h : Passes R waiting arrived passed waiting') :
    Passes R waiting arrived [] waiting' := by
  obtain ⟨taken, -, hrest⟩ := h
  exact wait ((List.sublist_append_right taken waiting').trans hrest)

/-- An item arrives while none waits, and is passed on. -/
theorem pass {a : α} {b : β} (h : R a b) : Passes R [] [a] [b] [] :=
  ⟨[a], .cons h .nil, .refl _⟩

/-- What an empty queue has passed on is a part of what has arrived. -/
theorem of_nil (h : Passes R [] arrived passed waiting') :
    ∃ taken, taken <+ arrived ∧ List.Forall₂ R taken passed := by
  obtain ⟨taken, htaken, hrest⟩ := h
  exact ⟨taken, (List.sublist_append_left taken waiting').trans hrest, htaken⟩

end Passes

/-- The items of a list that pass and those that are kept, if none is kept that precedes one that
passes. -/
theorem filter_append_filter_sublist {pass keep : α → Bool} (hne : ∀ a, keep a → ¬ pass a)
    {l : List α} (h : l.Pairwise fun a b => keep a → ¬ pass b) :
    l.filter pass ++ l.filter keep <+ l := by
  induction l with
  | nil => exact .slnil
  | cons a l ih =>
    obtain ⟨ha, hl⟩ := List.pairwise_cons.1 h
    cases hkeep : keep a with
    | true =>
      have hpass : l.filter pass = [] := List.filter_eq_nil_iff.2 fun b hb => ha b hb hkeep
      rw [List.filter_cons_of_neg (hne a hkeep), List.filter_cons_of_pos hkeep, hpass]
      exact .cons_cons a List.filter_sublist
    | false =>
      rw [List.filter_cons_of_neg (by simp [hkeep] : ¬ keep a = true)]
      cases hpass : pass a with
      | true =>
        rw [List.filter_cons_of_pos hpass]
        exact .cons_cons a (ih hl)
      | false =>
        rw [List.filter_cons_of_neg (by simp [hpass])]
        exact .cons a (ih hl)

/-! ## Along runs -/

variable {σ ι ω ε : Type*}

/-- A relation of what happens between two states, where what is passed on may be lost. -/
structure Composes (T : σ → List α → List ω → σ → Prop) : Prop where
  refl : ∀ s, T s [] [] s
  trans : ∀ {s s' s'' arrived arrived' passed passed'}, T s arrived passed s' →
    T s' arrived' passed' s'' → T s (arrived ++ arrived') (passed ++ passed') s''
  lose : ∀ {s s' arrived passed}, T s arrived passed s' → T s arrived [] s'

variable {T : σ → List α → List ω → σ → Prop} (hT : Composes T)
include hT

/-- **The rule for loops**: if every call is in the relation, so is a loop over calls, with what it
gathers, or with nothing if a call fails. -/
theorem Composes.collect {step : σ → ι → Except ε (List ω) × σ} {news : σ → ι → List α}
    {C : σ → ι → Prop}
    (hstep : ∀ s i, C s i → T s (news s i) ((step s i).1.toOption.getD []) (step s i).2)
    {s : σ} {is : List ι} (hcalls : ∀ c ∈ calls step s is, C c.1 c.2) :
    T s ((calls step s is).flatMap fun c => news c.1 c.2)
      ((Batch.collect step s is).1.toOption.getD []) (Batch.collect step s is).2 := by
  induction is generalizing s with
  | nil => exact hT.refl s
  | cons i is ih =>
    have hfirst := hstep s i (hcalls (s, i) List.mem_cons_self)
    rcases hi : step s i with ⟨e | results, s'⟩
    · rw [collect_cons_error hi]
      simp only [calls, hi, List.flatMap_cons, List.flatMap_nil, List.append_nil] at hfirst ⊢
      exact hfirst
    · rw [hi] at hfirst
      have hrest := ih (s := s') fun c hc =>
        hcalls c (List.mem_cons_of_mem _ (by simpa only [hi] using hc))
      rw [collect_cons_ok hi]
      simp only [calls, hi, List.flatMap_cons]
      cases htail : (Batch.collect step s' is).1 with
      | error e =>
        rw [htail] at hrest
        exact hT.trans (hT.lose hfirst) hrest
      | ok rest =>
        rw [htail] at hrest
        exact hT.trans hfirst hrest

/-- **The rule for runs**: if every step that meets `C` is in the relation, so is a run whose steps
all meet it. -/
theorem Composes.outputs {step : σ → ι → List ω × σ} {news : σ → ι → List α} {C : σ → ι → Prop}
    (hstep : ∀ s i, C s i → T s (news s i) (step s i).1 (step s i).2) {s : σ} {is : List ι}
    (hC : ∀ c ∈ visits step s is, C c.1 c.2) :
    T s (Transducer.outputs (fun s i => (news s i, (step s i).2)) s is).flatten
      (Transducer.outputs step s is).flatten (final step s is) := by
  induction is generalizing s with
  | nil => exact hT.refl s
  | cons i is ih =>
    exact hT.trans (hstep s i (hC (s, i) List.mem_cons_self)) (ih fun c hc =>
      hC c (List.mem_cons_of_mem _ hc))

end Lib.LossyQueue
