import Mathlib.Data.List.Basic
import NativeVoice.Lib.Dict
import NativeVoice.Lib.Forest
import NativeVoice.Media.PerUserSink

/-!
# The graph of sinks

How sinks become parents and children of each other in `src/discord/ext/native_voice/media.py`: by
the destinations that a sink is constructed with, and by the sinks that the factory of a
`PerUserSink` returns while packets are written. A factory may return any sink there is.

Sinks are numbers, in the order of their construction. Between the parts of a write, and so while a
factory runs, anything else may be done with the sinks.

* `registerChild` is `_register_child` of the three classes that have one.
* `Linked` says what the operations do with the links: a root gets a parent, or children are
  forgotten.
* `sinks_acyclic_iff`: the sinks stay trees just as long as no factory returns the open root of its
  own sink.
* `sinks_not_acyclic`: a factory that returns its own root is accepted, and closes a cycle.
-/

namespace NativeVoice.Media

open Lib Lib.Forest Relation

/-- The class whose `_register_child`, `children` and `cleanup` a sink has. -/
inductive SinkClass
  | mediaSink
  | multiSink
  | perUserSink
  deriving DecidableEq

/-- A sink. `childList` are the `_children` of a `MultiSink`. -/
structure SinkNode where
  cls : SinkClass := .mediaSink
  parent : Option ℕ := none
  child : Option ℕ := none
  childList : List ℕ := []
  fallbackToSsrc : Bool := true
  childrenByKey : Dict ChildKey ℕ := ∅
  userIdsBySsrc : UInt32 → Option ℕ := fun _ => none
  closed : Bool := false

/-- The property `children`. -/
def SinkNode.children (sink : SinkNode) : List ℕ :=
  match sink.cls with
  | .mediaSink => sink.child.toList
  | .multiSink => sink.childList
  | .perUserSink => sink.childrenByKey.items.map Prod.snd

/-- What `_packet_key` does to the keys of the children. -/
def SinkNode.packetKey (sink : SinkNode) (packet : MediaPacket) : SinkNode :=
  match packet.userId with
  | none => sink
  | some userId =>
    let sink := { sink with
      userIdsBySsrc := Function.update sink.userIdsBySsrc packet.ssrc (some userId) }
    let fallback := sink.childrenByKey.lookup (.ssrc packet.ssrc)
    match fallback, sink.childrenByKey.lookup (.user userId) with
    | some child, none =>
      { sink with
        childrenByKey := (sink.childrenByKey.erase (.ssrc packet.ssrc)).set (.user userId) child }
    | _, _ => sink

/-- An exception. `cleanupError` stands for all that the own work of a sink may raise. -/
inductive SinkError
  | runtimeError (message : String)
  | recursionError
  | cleanupError
  deriving DecidableEq

/-- What the work raises that a sink does itself in its `cleanup`: before `MediaSink.cleanup`, and
when it was open, after that. -/
structure OwnWork where
  before : Bool := false
  after : Bool := false

/-- The sinks that were constructed. -/
structure SinkGraph where
  size : ℕ := 0
  node : ℕ → SinkNode := fun _ => {}

namespace SinkGraph

def parent (g : SinkGraph) (i : ℕ) : Option ℕ := (g.node i).parent

def children (g : SinkGraph) (i : ℕ) : List ℕ := (g.node i).children

def modify (g : SinkGraph) (i : ℕ) (f : SinkNode → SinkNode) : SinkGraph :=
  { g with node := Function.update g.node i (f (g.node i)) }

/-! ## Recursions over the sinks -/

/-- `root`, with a bound on the depth of the recursion. -/
def rootWithin (g : SinkGraph) : ℕ → ℕ → Option ℕ
  | 0, _ => none
  | fuel + 1, i => match g.parent i with
    | none => some i
    | some p => g.rootWithin fuel p

/-- What `walk_children` yields for the children of a sink. -/
def walkEach (walk : ℕ → Option (List ℕ)) : List ℕ → Option (List ℕ)
  | [] => some []
  | child :: children => do
    let below ← walk child
    let rest ← walkEach walk children
    return child :: below ++ rest

/-- `walk_children`, with a bound on the depth of the recursion. -/
def walkWithin (g : SinkGraph) : ℕ → ℕ → Option (List ℕ)
  | 0, _ => none
  | fuel + 1, i => walkEach (g.walkWithin fuel) (g.children i)

/-- The loop over the children in `cleanup`, with whether it raised. -/
def cleanupEach (cleanup : SinkGraph → ℕ → Option (SinkGraph × Bool)) :
    SinkGraph → List ℕ → Option (SinkGraph × Bool)
  | g, [] => some (g, false)
  | g, child :: children => do
    let (g, raised) ← cleanup g child
    if raised then return (g, true) else cleanupEach cleanup g children

/-- `cleanup`, with a bound on the depth of the recursion. -/
def cleanupWithin (work : ℕ → OwnWork) : ℕ → SinkGraph → ℕ → Option (SinkGraph × Bool)
  | 0, _, _ => none
  | fuel + 1, g, i =>
    if (work i).before then some (g, true)
    else if (g.node i).closed then some (g, false)
    else do
      let closed := g.modify i fun sink => { sink with closed := true }
      let (g, raised) ← cleanupEach (cleanupWithin work fuel) closed (g.children i)
      if raised then return (g, true)
      else if (g.node i).cls = .perUserSink then
        return (g.modify i fun sink =>
          { sink with childrenByKey := ∅, userIdsBySsrc := fun _ => none, child := none },
          (work i).after)
      else return (g, (work i).after)

-- a recursion that is deeper than there are sinks never returns
def root (g : SinkGraph) (i : ℕ) : Option ℕ := g.rootWithin (g.size + 1) i

def walkChildren (g : SinkGraph) (i : ℕ) : Option (List ℕ) := g.walkWithin (g.size + 1) i

def cleanup (g : SinkGraph) (work : ℕ → OwnWork) (i : ℕ) : Option (SinkGraph × Bool) :=
  cleanupWithin work (g.size + 1) g i

/-! ## Registrations -/

def checkChild (g : SinkGraph) (i child : ℕ) : Except SinkError Unit :=
  if child = i ∨ g.parent child ≠ none then .error (.runtimeError "Sink is already registered")
  else match (g.root i).bind g.walkChildren with
  | none => .error .recursionError
  | some below =>
    if child ∈ below then .error (.runtimeError "Sink is already registered")
    else if (g.node child).closed then .error (.runtimeError "Sink is already closed")
    else .ok ()

/-- What `_register_child` does after the check. -/
def link (g : SinkGraph) (i child : ℕ) : SinkGraph :=
  let registered := match (g.node i).cls with
  | .mediaSink => g.modify i fun sink => { sink with child := some child }
  | .multiSink => g.modify i fun sink => { sink with childList := sink.childList ++ [child] }
  | .perUserSink => g.modify i fun sink => { sink with child := some (sink.child.getD child) }
  registered.modify child fun sink => { sink with parent := some i }

def registerChild (g : SinkGraph) (i child : ℕ) : Except SinkError SinkGraph := do
  g.checkChild i child
  return g.link i child

/-- The loop of the constructor of a `MultiSink`, which ends with the first error. -/
def registerAll (g : SinkGraph) (i : ℕ) : List ℕ → SinkGraph × Option SinkError
  | [] => (g, none)
  | child :: children => match g.registerChild i child with
    | .error e => (g, some e)
    | .ok g => g.registerAll i children

/-- A new sink without children. -/
def add (g : SinkGraph) (sink : SinkNode) : SinkGraph where
  size := g.size + 1
  node := Function.update g.node g.size sink

end SinkGraph

/-- What is done with sinks. -/
inductive SinkOp
  /-- A sink that takes a destination, or none. -/
  | mediaSink (destination : Option ℕ)
  | multiSink (destinations : List ℕ)
  | perUserSink (fallbackToSsrc : Bool)
  /-- The first part of `PerUserSink.write`. -/
  | packetKey (sink : ℕ) (packet : MediaPacket)
  /-- The rest of `PerUserSink._get_child`, when the factory has returned. -/
  | factoryReturned (sink : ℕ) (key : ChildKey) (child : ℕ)
  | cleanup (sink : ℕ) (work : ℕ → OwnWork)

/-- The sinks that it is done with. -/
def SinkOp.sinks : SinkOp → List ℕ
  | mediaSink destination => destination.toList
  | multiSink destinations => destinations
  | perUserSink _ => []
  | packetKey sink _ => [sink]
  | factoryReturned sink _ child => [sink, child]
  | cleanup sink _ => [sink]

namespace SinkGraph

/-- The sinks exist, and what only a `PerUserSink` has is called on one. -/
def possible (g : SinkGraph) (op : SinkOp) : Bool :=
  op.sinks.all (· < g.size) && match op with
  | .packetKey i _ => (g.node i).cls = .perUserSink
  | .factoryReturned i _ _ => (g.node i).cls = .perUserSink
  | _ => true

/-- A possible operation, with what it raises. -/
def perform (g : SinkGraph) : SinkOp → SinkGraph × Option SinkError
  | .mediaSink destination => (g.add {}).registerAll g.size destination.toList
  | .multiSink destinations => (g.add { cls := .multiSink }).registerAll g.size destinations
  | .perUserSink fallbackToSsrc => (g.add { cls := .perUserSink, fallbackToSsrc }, none)
  | .packetKey i packet =>
    (if (g.node i).closed then g else g.modify i fun sink => sink.packetKey packet, none)
  | .factoryReturned i key child => match g.registerChild i child with
    | .error e => (g, some e)
    | .ok g =>
      (g.modify i fun sink => { sink with childrenByKey := sink.childrenByKey.set key child }, none)
  | .cleanup i work => match g.cleanup work i with
    | none => (g, some .recursionError)
    | some (g, raised) => (g, if raised then some .cleanupError else none)

def step (g : SinkGraph) (op : SinkOp) : SinkGraph × Option SinkError :=
  if g.possible op then g.perform op else (g, none)

/-- The sinks after some operations. -/
def run (ops : List SinkOp) : SinkGraph := ops.foldl (fun g op => (g.step op).1) {}

/-- **Trees of sinks**, over which all recursions return. -/
structure Trees (g : SinkGraph) : Prop where
  acyclic : Acyclic g.parent
  parent_unique : ∀ i child, child ∈ g.children i → g.parent child = some i
  root : ∀ i, ∃ r, g.root i = some r
  walkChildren : ∀ i, ∃ below, g.walkChildren i = some below
  cleanup : ∀ work i, ∃ result, g.cleanup work i = some result

/-- A factory does not return the open root of its own sink. -/
def OffRoot (g : SinkGraph) : SinkOp → Prop
  | .factoryReturned i _ child => (g.node i).cls = .perUserSink → g.root i = some child →
      child = i ∨ (g.node child).closed = true
  | _ => True

/-! ## Recursions over trees -/

variable {g g' : SinkGraph} {i child r : ℕ}

/-- What holds of the links of all sinks at any time. -/
structure Valid (g : SinkGraph) : Prop where
  bounded : ∀ i p, g.parent i = some p → i < g.size ∧ p < g.size
  parent_unique : ∀ i child, child ∈ g.children i → g.parent child = some i

/-- Nothing but children that are forgotten, and new sinks. -/
structure NoNewLinks (g g' : SinkGraph) : Prop where
  size : g.size ≤ g'.size
  parent : g'.parent = g.parent
  children : ∀ i, g'.children i ⊆ g.children i

theorem NoNewLinks.refl (g : SinkGraph) : NoNewLinks g g where
  size := le_rfl
  parent := rfl
  children _ := List.Subset.refl _

theorem NoNewLinks.trans {g₁ g₂ g₃ : SinkGraph} (h₁ : NoNewLinks g₁ g₂) (h₂ : NoNewLinks g₂ g₃) :
    NoNewLinks g₁ g₃ where
  size := h₁.size.trans h₂.size
  parent := h₂.parent.trans h₁.parent
  children i := List.Subset.trans (h₂.children i) (h₁.children i)

theorem Valid.noNewLinks (h : Valid g) (hlinks : NoNewLinks g g') : Valid g' where
  bounded i p hp := by
    rw [hlinks.parent] at hp
    obtain ⟨hi, hp⟩ := h.bounded i p hp
    exact ⟨hi.trans_le hlinks.size, hp.trans_le hlinks.size⟩
  parent_unique i child hchild := by
    rw [hlinks.parent]
    exact h.parent_unique i child (hlinks.children i hchild)

theorem parent_modify (g : SinkGraph) (i : ℕ) (f : SinkNode → SinkNode) :
    (g.modify i f).parent = Function.update g.parent i (f (g.node i)).parent := by
  funext j
  by_cases hj : j = i
  · subst hj
    simp [parent, modify]
  · simp [parent, modify, hj]

theorem children_modify (g : SinkGraph) (i j : ℕ) (f : SinkNode → SinkNode) :
    (g.modify i f).children j = if j = i then (f (g.node i)).children else g.children j := by
  by_cases hj : j = i
  · subst hj
    simp [children, modify]
  · simp [children, modify, hj]

/-- A sink forgets children. -/
theorem noNewLinks_modify {f : SinkNode → SinkNode} (hparent : (f (g.node i)).parent = g.parent i)
    (hchildren : (f (g.node i)).children ⊆ g.children i) : NoNewLinks g (g.modify i f) where
  size := le_rfl
  parent := by
    rw [parent_modify, hparent, Function.update_eq_self]
  children j := by
    rw [children_modify]
    split
    · rename_i hj
      rw [hj]
      exact hchildren
    · exact List.Subset.refl _

/-- The way to the root. -/
theorem reflTransGen_of_rootWithin {fuel : ℕ} (h : g.rootWithin fuel i = some r) :
    ReflTransGen (Under g.parent) i r ∧ g.parent r = none := by
  induction fuel generalizing i with
  | zero => cases h
  | succ fuel ih =>
    rw [rootWithin] at h
    cases hp : g.parent i with
    | none =>
      rw [hp] at h
      obtain rfl := Option.some.inj h
      exact ⟨.refl, hp⟩
    | some p =>
      rw [hp] at h
      obtain ⟨hway, hroot⟩ := ih h
      exact ⟨.head hp hway, hroot⟩

/-- What is walked over has a parent. -/
theorem Valid.parent_of_mem_walkWithin (hg : Valid g) {fuel : ℕ} {below : List ℕ}
    (h : g.walkWithin fuel i = some below) {c : ℕ} (hc : c ∈ below) : ∃ p, g.parent c = some p := by
  induction fuel generalizing i below with
  | zero => cases h
  | succ fuel ih =>
    rw [walkWithin] at h
    have hparents : ∀ c ∈ g.children i, g.parent c = some i := hg.parent_unique i
    generalize g.children i = children at h hparents
    induction children generalizing below with
    | nil =>
      obtain rfl := Option.some.inj h
      cases hc
    | cons child children ihc =>
      simp only [walkEach, Option.bind_eq_bind, Option.bind_eq_some_iff, Option.pure_def] at h
      obtain ⟨b, hb, rest, hrest, h⟩ := h
      obtain rfl := Option.some.inj h
      rcases List.mem_append.1 hc with hc | hc
      · rcases List.mem_cons.1 hc with rfl | hc
        · exact ⟨i, hparents c (by simp)⟩
        · exact ih hb hc
      · exact ihc hc hrest fun c hc => hparents c (by simp [hc])

/-- The children of a sink rank below it. -/
def Ranked (rank : ℕ → ℕ) (g : SinkGraph) : Prop := ∀ i, ∀ child ∈ g.children i, rank child < rank i

variable {rank : ℕ → ℕ}

theorem Ranked.noNewLinks (h : Ranked rank g) (hlinks : NoNewLinks g g') : Ranked rank g' :=
  fun i child hchild => h i child (hlinks.children i hchild)

theorem Ranked.exists_walkWithin (h : Ranked rank g) {fuel : ℕ} (hfuel : rank i < fuel) :
    ∃ below, g.walkWithin fuel i = some below := by
  induction fuel generalizing i with
  | zero => omega
  | succ fuel ih =>
    rw [walkWithin]
    have hranks : ∀ child ∈ g.children i, rank child < fuel := by
      intro child hchild
      have := h i child hchild
      omega
    generalize g.children i = children at hranks
    induction children with
    | nil => exact ⟨[], rfl⟩
    | cons child children ihc =>
      obtain ⟨below, hbelow⟩ := ih (hranks child (by simp))
      obtain ⟨rest, hrest⟩ := ihc fun c hc => hranks c (by simp [hc])
      exact ⟨child :: below ++ rest, by simp [walkEach, hbelow, hrest]⟩

/-- A cleanup returns, and only forgets children. -/
theorem Ranked.exists_cleanupWithin (h : Ranked rank g) (work : ℕ → OwnWork) {fuel : ℕ}
    (hfuel : rank i < fuel) :
    ∃ g' raised, cleanupWithin work fuel g i = some (g', raised) ∧ NoNewLinks g g' := by
  induction fuel generalizing g i with
  | zero => omega
  | succ fuel ih =>
    -- the loop over the children
    have heach : ∀ children : List ℕ, (∀ child ∈ children, rank child < fuel) →
        ∀ {g}, Ranked rank g → ∃ g' raised,
          cleanupEach (cleanupWithin work fuel) g children = some (g', raised) ∧
            NoNewLinks g g' := by
      intro children hranks
      induction children with
      | nil => exact fun {g} _ => ⟨g, false, rfl, .refl g⟩
      | cons child children ihc =>
        intro g hg
        obtain ⟨g₁, raised, hfirst, hlinks⟩ := ih hg (hranks child (by simp))
        cases raised with
        | true => exact ⟨g₁, true, by simp [cleanupEach, hfirst], hlinks⟩
        | false =>
          obtain ⟨g₂, raised, hrest, hlinks'⟩ :=
            ihc (fun c hc => hranks c (by simp [hc])) (hg.noNewLinks hlinks)
          exact ⟨g₂, raised, by simp [cleanupEach, hfirst, hrest], hlinks.trans hlinks'⟩
    rw [cleanupWithin]
    by_cases hbefore : (work i).before = true
    · exact ⟨g, true, by rw [if_pos hbefore], .refl g⟩
    rw [if_neg hbefore]
    by_cases hclosed : (g.node i).closed = true
    · exact ⟨g, false, by rw [if_pos hclosed], .refl g⟩
    rw [if_neg hclosed]
    have hclose : NoNewLinks g (g.modify i fun sink => { sink with closed := true }) :=
      noNewLinks_modify rfl (List.Subset.refl _)
    obtain ⟨g₁, raised, hchildren, hlinks⟩ := heach (g.children i)
      (fun child hchild => by have := h i child hchild; omega) (h.noNewLinks hclose)
    have hlinks := hclose.trans hlinks
    have hforget : NoNewLinks g₁ (g₁.modify i fun sink =>
        { sink with childrenByKey := ∅, userIdsBySsrc := fun _ => none, child := none }) := by
      refine noNewLinks_modify rfl ?_
      unfold children SinkNode.children
      cases (g₁.node i).cls with
      | mediaSink => exact List.nil_subset _
      | multiSink => exact List.Subset.refl _
      | perUserSink => exact List.nil_subset _
    simp only [hchildren, Option.bind_eq_bind, Option.bind_some]
    split
    · exact ⟨g₁, true, rfl, hlinks⟩
    · split
      · exact ⟨_, _, rfl, hlinks.trans hforget⟩
      · exact ⟨_, _, rfl, hlinks⟩

/-- The sinks of a graph without cycles rank above their children. -/
theorem Valid.exists_ranked (hg : Valid g) (h : Acyclic g.parent) :
    ∃ rank, Ranked rank g ∧ ∀ i, rank i ≤ g.size := by
  obtain ⟨rank, hrank, hle⟩ := exists_rank h (t := Finset.range g.size) fun i p hp =>
    Finset.mem_range.2 (hg.bounded i p hp).1
  refine ⟨rank, fun i child hchild => hrank child i (hg.parent_unique i child hchild), fun i => ?_⟩
  simpa using hle i

theorem Valid.exists_root (hg : Valid g) (h : Acyclic g.parent) (i : ℕ) :
    ∃ r, g.root i = some r := by
  -- the other way round, the parents rank below their children
  have hcycle : ∀ i, ¬ TransGen (fun p i => g.parent i = some p) i i := by
    intro i hi
    exact h i (transGen_swap.1 hi)
  obtain ⟨rank, hrank, hle⟩ := exists_rank hcycle (t := Finset.range g.size) fun p i hp =>
    Finset.mem_range.2 (hg.bounded i p hp).2
  have hroot : ∀ fuel i, rank i < fuel → ∃ r, g.rootWithin fuel i = some r := by
    intro fuel
    induction fuel with
    | zero => intro i hi; omega
    | succ fuel ih =>
      intro i hi
      rw [rootWithin]
      cases hp : g.parent i with
      | none => exact ⟨i, rfl⟩
      | some p =>
        have := hrank p i hp
        exact ih p (by omega)
  have hi := hle i
  rw [Finset.card_range] at hi
  exact hroot (g.size + 1) i (by omega)

/-- **All recursions return** if the parents are without cycles. -/
theorem Valid.trees (hg : Valid g) (h : Acyclic g.parent) : Trees g := by
  obtain ⟨rank, hranked, hle⟩ := hg.exists_ranked h
  have hfuel (i : ℕ) : rank i < g.size + 1 := by
    have := hle i
    omega
  refine ⟨h, hg.parent_unique, hg.exists_root h, fun i => hranked.exists_walkWithin (hfuel i), ?_⟩
  intro work i
  obtain ⟨g', raised, hcleanup, -⟩ := hranked.exists_cleanupWithin work (hfuel i)
  exact ⟨(g', raised), hcleanup⟩

/-! ## Registrations -/

/-- A root gets a parent. -/
structure Linked (g : SinkGraph) (i child : ℕ) (g' : SinkGraph) : Prop where
  size : g'.size = g.size
  parent : g'.parent = Function.update g.parent child (some i)
  children : ∀ j c, c ∈ g'.children j → c ∈ g.children j ∨ j = i ∧ c = child

theorem Valid.linked (hg : Valid g) (h : Linked g i child g') (hroot : g.parent child = none)
    (hi : i < g.size) (hchild : child < g.size) : Valid g' where
  bounded j p hp := by
    rw [h.parent] at hp
    rw [h.size]
    by_cases hj : j = child
    · subst hj
      rw [Function.update_self] at hp
      obtain rfl := Option.some.inj hp
      exact ⟨hchild, hi⟩
    · rw [Function.update_of_ne hj] at hp
      exact hg.bounded j p hp
  parent_unique j c hc := by
    rw [h.parent]
    rcases h.children j c hc with hc | ⟨rfl, rfl⟩
    · have hparent := hg.parent_unique j c hc
      have hne : c ≠ child := by
        rintro rfl
        rw [hroot] at hparent
        cases hparent
      rw [Function.update_of_ne hne]
      exact hparent
    · exact Function.update_self ..

/-- What the check accepts. -/
theorem checkChild_eq_ok (hg : Valid g) : g.checkChild i child = .ok () ↔
    child ≠ i ∧ g.parent child = none ∧ (g.node child).closed = false ∧
      ∃ r below, g.root i = some r ∧ g.walkChildren r = some below := by
  unfold checkChild
  by_cases hfirst : child = i ∨ g.parent child ≠ none
  · rw [if_pos hfirst]
    refine iff_of_false (by simp) ?_
    rintro ⟨hne, hroot, -⟩
    exact hfirst.elim hne fun h => h hroot
  · rw [if_neg hfirst]
    rw [not_or, not_not] at hfirst
    cases hr : g.root i with
    | none => exact iff_of_false (by simp) (by simp)
    | some r =>
      cases hbelow : g.walkChildren r with
      | none =>
        refine iff_of_false (by simp [hbelow]) ?_
        rintro ⟨-, -, -, r', below, hr', hbelow'⟩
        obtain rfl := Option.some.inj hr'
        rw [hbelow] at hbelow'
        cases hbelow'
      | some below =>
        -- what is below the root has a parent, so the last test finds nothing new
        have hnotMem : child ∉ below := by
          intro hmem
          obtain ⟨p, hp⟩ := hg.parent_of_mem_walkWithin hbelow hmem
          rw [hfirst.2] at hp
          cases hp
        simp only [Option.bind_some, hbelow, if_neg hnotMem]
        cases hclosed : (g.node child).closed with
        | true => exact iff_of_false (by simp) (by simp)
        | false => exact iff_of_true (by simp) ⟨hfirst.1, hfirst.2, rfl, r, below, rfl, hbelow⟩

theorem linked_link (g : SinkGraph) (i child : ℕ) : Linked g i child (g.link i child) := by
  -- the sink itself is changed first
  have hself (f : SinkNode → SinkNode) (hparent : (f (g.node i)).parent = g.parent i)
      (hchildren : ∀ c ∈ (f (g.node i)).children, c ∈ g.children i ∨ c = child) :
      Linked g i child
        ((g.modify i f).modify child fun sink => { sink with parent := some i }) := by
    have hsame : (g.modify i f).parent = g.parent := by
      rw [parent_modify, hparent, Function.update_eq_self]
    refine ⟨rfl, by rw [parent_modify, hsame], fun j c hc => ?_⟩
    rw [children_modify] at hc
    have hc : c ∈ (g.modify i f).children j := by
      split at hc
      · rename_i hj
        rw [hj]
        exact hc
      · exact hc
    rw [children_modify] at hc
    split at hc
    · rename_i hj
      rw [hj]
      exact (hchildren c hc).imp id fun hc => ⟨rfl, hc⟩
    · exact .inl hc
  unfold link
  cases hcls : (g.node i).cls with
  | mediaSink =>
    refine hself _ rfl fun c hc => .inr ?_
    simpa [SinkNode.children, hcls] using hc
  | multiSink =>
    refine hself _ rfl fun c hc => ?_
    simpa [children, SinkNode.children, hcls] using hc
  | perUserSink =>
    refine hself _ rfl fun c hc => .inl ?_
    simpa [children, SinkNode.children, hcls] using hc

/-- **A registration** that is accepted closes a cycle just where the child is above the sink. -/
theorem Valid.registerChild (hg : Valid g) (h : Acyclic g.parent) (hi : i < g.size)
    (hchild : child < g.size) (hok : g.registerChild i child = .ok g') :
    Valid g' ∧ Linked g i child g' ∧ child ≠ i ∧ g.parent child = none ∧
      (Acyclic g'.parent ↔ ¬ ReflTransGen (Under g.parent) i child) := by
  unfold SinkGraph.registerChild at hok
  cases hcheck : g.checkChild i child with
  | error e =>
    rw [hcheck] at hok
    cases hok
  | ok u =>
    rw [hcheck] at hok
    obtain rfl : g.link i child = g' := Except.ok.inj hok
    obtain ⟨hne, hroot, -⟩ := (checkChild_eq_ok hg).1 hcheck
    have hlinked := linked_link g i child
    refine ⟨hg.linked hlinked hroot hi hchild, hlinked, hne, hroot, ?_⟩
    rw [hlinked.parent, acyclic_link_iff hroot]
    exact and_iff_right h

/-- A new sink is a root, so its children cannot be above it. -/
theorem Valid.registerAll (hg : Valid g) (h : Acyclic g.parent) (hroot : g.parent i = none)
    (hi : i < g.size) {children : List ℕ} (hchildren : ∀ child ∈ children, child < g.size) :
    Valid (g.registerAll i children).1 ∧ Acyclic (g.registerAll i children).1.parent := by
  induction children generalizing g with
  | nil => exact ⟨hg, h⟩
  | cons child children ih =>
    rw [SinkGraph.registerAll]
    cases hok : g.registerChild i child with
    | error e => exact ⟨hg, h⟩
    | ok g' =>
      obtain ⟨hg', hlinked, hne, -, hacyclic⟩ :=
        hg.registerChild h hi (hchildren child (by simp)) hok
      have hbelow : ¬ ReflTransGen (Under g.parent) i child := fun hway =>
        hne (eq_of_root hroot hway)
      refine ih hg' (hacyclic.2 hbelow) ?_ (by rw [hlinked.size]; exact hi) fun c hc => ?_
      · rw [hlinked.parent, Function.update_of_ne hne.symm]
        exact hroot
      · rw [hlinked.size]
        exact hchildren c (by simp [hc])

theorem Valid.parent_of_le (hg : Valid g) (hi : g.size ≤ i) : g.parent i = none := by
  by_contra hne
  obtain ⟨p, hp⟩ := Option.ne_none_iff_exists'.1 hne
  exact absurd (hg.bounded i p hp).1 (by omega)

theorem Valid.noNewLinks_add (hg : Valid g) {sink : SinkNode} (hparent : sink.parent = none)
    (hchildren : sink.children = []) : NoNewLinks g (g.add sink) where
  size := Nat.le_succ _
  parent := by
    funext j
    by_cases hj : j = g.size
    · subst hj
      rw [hg.parent_of_le le_rfl]
      simpa [parent, add] using hparent
    · simp [parent, add, hj]
  children j := by
    by_cases hj : j = g.size
    · subst hj
      simp [children, add, hchildren]
    · simp [children, add, hj]

/-- The construction of a sink. -/
theorem Valid.construct (hg : Valid g) (h : Acyclic g.parent) {sink : SinkNode}
    (hparent : sink.parent = none) (hchildren : sink.children = []) {destinations : List ℕ}
    (hdestinations : ∀ child ∈ destinations, child < g.size) :
    Valid ((g.add sink).registerAll g.size destinations).1 ∧
      Acyclic ((g.add sink).registerAll g.size destinations).1.parent := by
  have hadd := hg.noNewLinks_add hparent hchildren
  refine (hg.noNewLinks hadd).registerAll ?_ ?_ (Nat.lt_succ_self _) fun child hchild => ?_
  · rw [hadd.parent]
    exact h
  · rw [hadd.parent]
    exact hg.parent_of_le le_rfl
  · exact Nat.lt_succ_of_lt (hdestinations child hchild)

/-- The keys of the children change, but not the children. -/
theorem children_packetKey (sink : SinkNode) (packet : MediaPacket) :
    (sink.packetKey packet).parent = sink.parent ∧
      (sink.packetKey packet).children ⊆ sink.children := by
  unfold SinkNode.packetKey
  cases packet.userId with
  | none => exact ⟨rfl, List.Subset.refl _⟩
  | some userId =>
    dsimp only
    split
    · rename_i child hssrc huser
      refine ⟨rfl, fun c hc => ?_⟩
      unfold SinkNode.children at hc ⊢
      dsimp only at hc
      cases hcls : sink.cls with
      | mediaSink => simpa [hcls] using hc
      | multiSink => simpa [hcls] using hc
      | perUserSink =>
        simp only [hcls, List.mem_map, Prod.exists, exists_eq_right] at hc ⊢
        obtain ⟨key, hkey⟩ := hc
        rw [AList.mem_items, AList.lookup_set] at hkey
        split at hkey
        · obtain rfl := Option.some.inj hkey
          exact ⟨_, AList.mem_items.2 hssrc⟩
        · rw [AList.lookup_erase_eq_ite] at hkey
          split at hkey
          · cases hkey
          · exact ⟨key, AList.mem_items.2 hkey⟩
    · exact ⟨rfl, List.Subset.refl _⟩

/-- The new child of a `PerUserSink` gets its key. -/
theorem Linked.setKey (h : Linked g i child g') (key : ChildKey) : Linked g i child (g'.modify i
    fun sink => { sink with childrenByKey := sink.childrenByKey.set key child }) where
  size := h.size
  parent := by
    rw [parent_modify, ← h.parent]
    exact Function.update_eq_self ..
  children j c hc := by
    rw [children_modify] at hc
    split at hc
    · rename_i hj
      subst hj
      unfold SinkNode.children at hc
      dsimp only at hc
      have hold : c ∈ (g'.node j).children → _ := h.children j c
      unfold SinkNode.children at hold
      cases hcls : (g'.node j).cls with
      | mediaSink => exact hold (by simpa [hcls] using hc)
      | multiSink => exact hold (by simpa [hcls] using hc)
      | perUserSink =>
        simp only [hcls, List.mem_map, Prod.exists, exists_eq_right] at hc
        obtain ⟨key', hkey⟩ := hc
        rw [AList.mem_items, AList.lookup_set] at hkey
        split at hkey
        · exact .inr ⟨rfl, (Option.some.inj hkey).symm⟩
        · rw [hcls] at hold
          exact hold (List.mem_map.2 ⟨(key', c), AList.mem_items.2 hkey, rfl⟩)
    · exact h.children j c hc

/-! ## Runs -/

/-- A root above a sink is a sink of the graph. -/
theorem Valid.lt_of_root (hg : Valid g) (h : g.root i = some r) (hne : r ≠ i) :
    i < g.size ∧ r < g.size := by
  obtain ⟨hway, -⟩ := reflTransGen_of_rootWithin h
  constructor
  · rcases hway.cases_head with heq | ⟨p, hp, -⟩
    · exact absurd heq.symm hne
    · exact (hg.bounded i p hp).1
  · rcases hway.cases_tail with heq | ⟨p, -, hp⟩
    · exact absurd heq hne
    · exact (hg.bounded p r hp).2

/-- The root is what is above a sink and has no parent. -/
theorem Valid.root_eq_iff (hg : Valid g) (h : Acyclic g.parent) (hroot : g.parent r = none) :
    g.root i = some r ↔ ReflTransGen (Under g.parent) i r := by
  constructor
  · exact fun hr => (reflTransGen_of_rootWithin hr).1
  · intro hway
    obtain ⟨r', hr'⟩ := hg.exists_root h i
    obtain ⟨hway', hroot'⟩ := reflTransGen_of_rootWithin hr'
    rw [hr', root_unique hroot' hroot hway' hway]

/-- The sink that a factory returns. -/
theorem Valid.factoryReturned (hg : Valid g) (h : Acyclic g.parent) (hi : i < g.size)
    (hchild : child < g.size) (hcls : (g.node i).cls = .perUserSink) (key : ChildKey) :
    Valid (g.perform (.factoryReturned i key child)).1 ∧
      (Acyclic (g.perform (.factoryReturned i key child)).1.parent ↔
        OffRoot g (.factoryReturned i key child)) := by
  unfold perform
  dsimp only
  cases hok : g.registerChild i child with
  | error e =>
    refine ⟨hg, iff_of_true h fun _ hroot => ?_⟩
    -- the open root is not rejected
    by_contra hopen
    rw [not_or, Bool.not_eq_true] at hopen
    obtain ⟨below, hbelow⟩ := (hg.trees h).walkChildren child
    have hcheck := (checkChild_eq_ok hg).2
      ⟨hopen.1, (reflTransGen_of_rootWithin hroot).2, hopen.2, child, below, hroot, hbelow⟩
    unfold SinkGraph.registerChild at hok
    rw [hcheck] at hok
    cases hok
  | ok g' =>
    obtain ⟨hg', hlinked, hne, hroot, hacyclic⟩ := hg.registerChild h hi hchild hok
    have hset := hlinked.setKey key
    refine ⟨hg.linked hset hroot hi hchild, ?_⟩
    dsimp only
    rw [hset.parent, ← hlinked.parent, hacyclic, ← hg.root_eq_iff h hroot]
    have hopen : (g.node child).closed = false := by
      unfold SinkGraph.registerChild at hok
      cases hcheck : g.checkChild i child with
      | error e => rw [hcheck] at hok; cases hok
      | ok u => exact ((checkChild_eq_ok hg).1 hcheck).2.2.1
    constructor
    · exact fun hnot _ hr => absurd hr hnot
    · intro hoff hr
      rcases hoff hcls hr with heq | hclosed
      · exact hne heq
      · rw [hopen] at hclosed
        cases hclosed

/-- **One step.** The parents stay without cycles just where no factory returns the open root of its
own sink. -/
theorem Valid.step (hg : Valid g) (h : Acyclic g.parent) (op : SinkOp) :
    Valid (g.step op).1 ∧ (Acyclic (g.step op).1.parent ↔ OffRoot g op) := by
  unfold SinkGraph.step
  by_cases hpossible : g.possible op = true
  · rw [if_pos hpossible]
    have hlt : ∀ i ∈ op.sinks, i < g.size := by
      intro i hi
      have hexist := (Bool.and_eq_true_iff.1 hpossible).1
      simpa using List.all_eq_true.1 hexist i hi
    cases op with
    | mediaSink destination =>
      exact (hg.construct h rfl rfl hlt).imp id fun h => iff_of_true h trivial
    | multiSink destinations =>
      exact (hg.construct h rfl rfl hlt).imp id fun h => iff_of_true h trivial
    | perUserSink fallbackToSsrc =>
      have hadd : NoNewLinks g (g.add { cls := .perUserSink, fallbackToSsrc }) :=
        hg.noNewLinks_add rfl rfl
      exact ⟨hg.noNewLinks hadd, iff_of_true (by rw [perform, hadd.parent]; exact h) trivial⟩
    | packetKey i packet =>
      have hkeys : NoNewLinks g (g.perform (.packetKey i packet)).1 := by
        unfold perform
        dsimp only
        split
        · exact .refl g
        · obtain ⟨hparent, hchildren⟩ := children_packetKey (g.node i) packet
          exact noNewLinks_modify hparent hchildren
      exact ⟨hg.noNewLinks hkeys, iff_of_true (by rw [hkeys.parent]; exact h) trivial⟩
    | factoryReturned i key child =>
      refine hg.factoryReturned h (hlt i (by simp [SinkOp.sinks]))
        (hlt child (by simp [SinkOp.sinks])) ?_ key
      simpa [possible] using (Bool.and_eq_true_iff.1 hpossible).2
    | cleanup i work =>
      obtain ⟨rank, hranked, hle⟩ := hg.exists_ranked h
      obtain ⟨g', raised, hcleanup, hlinks⟩ :=
        hranked.exists_cleanupWithin work (Nat.lt_succ_of_le (hle i))
      have hperform : (g.perform (.cleanup i work)).1 = g' := by
        rw [perform, SinkGraph.cleanup, hcleanup]
      rw [hperform]
      exact ⟨hg.noNewLinks hlinks, iff_of_true (by rw [hlinks.parent]; exact h) trivial⟩
  · rw [if_neg hpossible]
    refine ⟨hg, iff_of_true h ?_⟩
    cases op with
    | factoryReturned i key child =>
      intro hcls hroot
      by_contra hopen
      rw [not_or] at hopen
      obtain ⟨hi, hchild⟩ := hg.lt_of_root hroot hopen.1
      exact hpossible (by simp [possible, SinkOp.sinks, hcls, hi, hchild])
    | mediaSink destination => exact trivial
    | multiSink destinations => exact trivial
    | perUserSink fallbackToSsrc => exact trivial
    | packetKey i packet => exact trivial
    | cleanup i work => exact trivial

theorem run_concat (ops : List SinkOp) (op : SinkOp) :
    run (ops ++ [op]) = ((run ops).step op).1 := by
  rw [run, List.foldl_append]
  rfl

theorem valid_empty : Valid {} where
  bounded i p h := by cases h
  parent_unique i child h := by simp [children, SinkNode.children] at h

/-- As long as there are no cycles, the links are valid. -/
theorem valid_run {ops : List SinkOp}
    (h : ∀ before op after, ops = before ++ op :: after → Acyclic (run before).parent) :
    Valid (run ops) := by
  induction ops using List.reverseRecOn with
  | nil => exact valid_empty
  | append_singleton ops op ih =>
    rw [run_concat]
    refine (Valid.step (ih fun before op' after hsplit => ?_) (h ops op [] rfl) op).1
    exact h before op' (after ++ [op]) (by rw [hsplit]; simp)

/-- **The sinks stay trees** in a run just as long as no factory returns the open root of its own
sink. -/
theorem sinks_acyclic_iff (ops : List SinkOp) :
    (∀ before after, ops = before ++ after → Trees (run before)) ↔
      ∀ before op after, ops = before ++ op :: after → OffRoot (run before) op := by
  constructor
  · intro htrees before op after hsplit
    have hvalid : Valid (run before) := by
      refine valid_run fun before' op' after' hsplit' => ?_
      refine (htrees before' (op' :: after' ++ op :: after) ?_).acyclic
      rw [hsplit, hsplit', List.append_assoc, List.cons_append]
    refine (hvalid.step (htrees before (op :: after) hsplit).acyclic op).2.1 ?_
    rw [← run_concat]
    exact (htrees (before ++ [op]) after (by rw [hsplit]; simp)).acyclic
  · intro hoff before
    have hrun : ∀ after, ops = before ++ after →
        Valid (run before) ∧ Acyclic (run before).parent := by
      induction before using List.reverseRecOn with
      | nil => exact fun _ _ => ⟨valid_empty, acyclic_none⟩
      | append_singleton before op ih =>
        intro after hsplit
        have hsplit : ops = before ++ op :: after := by rw [hsplit]; simp
        obtain ⟨hvalid, hacyclic⟩ := ih (op :: after) hsplit
        have hstep := hvalid.step hacyclic op
        rw [run_concat]
        exact ⟨hstep.1, hstep.2.2 (hoff before op after hsplit)⟩
    intro after hsplit
    obtain ⟨hvalid, hacyclic⟩ := hrun after hsplit
    exact hvalid.trees hacyclic

/-- A sink per user below a fan-out, whose factory returns the fan-out. -/
def ownRoot : List SinkOp :=
  [.perUserSink true, .multiSink [0], .packetKey 0 ⟨1, some 7⟩, .factoryReturned 0 (.user 7) 1]

/-- All of this is accepted, and then each of the two sinks is the parent of the other, so that the
recursions over them never return. -/
theorem sinks_not_acyclic :
    (∀ k < 4, ∀ op ∈ ownRoot[k]?, ((run (ownRoot.take k)).step op).2 = none) ∧
      ¬ Trees (run ownRoot) ∧
      ∀ fuel, (run ownRoot).rootWithin fuel 0 = none ∧ (run ownRoot).walkWithin fuel 0 = none := by
  have hparent : (run ownRoot).parent 0 = some 1 ∧ (run ownRoot).parent 1 = some 0 := by decide
  have hchildren : (run ownRoot).children 0 = [1] ∧ (run ownRoot).children 1 = [0] := by decide
  refine ⟨by decide, fun h => ?_, fun fuel => ?_⟩
  · exact h.acyclic 0 (.head hparent.1 (.single hparent.2))
  · have hboth : ((run ownRoot).rootWithin fuel 0 = none ∧ (run ownRoot).rootWithin fuel 1 = none) ∧
        (run ownRoot).walkWithin fuel 0 = none ∧ (run ownRoot).walkWithin fuel 1 = none := by
      induction fuel with
      | zero => exact ⟨⟨rfl, rfl⟩, rfl, rfl⟩
      | succ fuel ih =>
        obtain ⟨⟨h₀, h₁⟩, hw₀, hw₁⟩ := ih
        simp [rootWithin, walkWithin, walkEach, hparent, hchildren, h₀, h₁, hw₀, hw₁]
    exact ⟨hboth.1.1, hboth.2.1⟩

end SinkGraph

end NativeVoice.Media
