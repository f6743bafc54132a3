import Mathlib.Data.List.Basic

/-!
# The cleanup of sinks

`MediaSink.cleanup` of `src/discord/ext/native_voice/media.py` and its overrides, on trees of sinks:
a sink is marked as closed and its children are cleaned up one after the other. There is no handler
on the way, so what one sink raises ends the cleanup of all of them.

* `cleanup`: the sinks whose cleanup is attempted, the tree that is left, and whether it raised.
* `schedule`: the sinks that a cleanup comes to if nothing is raised, in order. What is attempted
  are the open ones of them up to the first that raises (`cleanup_eq`).
* `cleanup_complete_iff`: when all open sinks of the tree are attempted.
-/

namespace NativeVoice.Media

/-- The `cleanup` of a sink that may have children. -/
inductive SinkKind
  /-- `MediaSink.cleanup` itself, also of `MultiSink`, `BasicSink` and `ConditionalFilter`. -/
  | base
  /-- `PerUserSink.cleanup`, which forgets the children. -/
  | perUser
  /-- The own work comes first and in every case, as in `PCMDecodeSink.cleanup`. -/
  | decoding (raises : Bool)
  /-- `SilenceFillSink.cleanup`, where the own work of an open sink comes first. -/
  | silenceFill (raises : Bool)
  deriving DecidableEq

/-- A tree of sinks. A `writer` is a sink that finishes an output and has no children, such as
`FFmpegSink`, `FFmpegMuxSink`, `WaveSink` and `EncodedVideoSink`. -/
inductive Sink (ι : Type)
  | writer (name : ι) (closed raises : Bool)
  | node (name : ι) (kind : SinkKind) (closed : Bool) (children : List (Sink ι))

/-- What a cleanup does: the open sinks it comes to, what is left, and whether it raises. -/
structure Cleaned (ι α : Type) where
  attempted : List ι
  left : α
  raised : Bool

variable {ι : Type}

mutual

/-- `cleanup`. -/
def cleanup : Sink ι → Cleaned ι (Sink ι)
  | .writer name closed raises =>
    if closed then ⟨[], .writer name closed raises, false⟩
    else ⟨[name], .writer name true raises, raises⟩
  | .node name kind closed children =>
    -- `MediaSink.cleanup`
    let base : Cleaned ι (List (Sink ι)) :=
      if closed then ⟨[], children, false⟩
      else
        let r := cleanupAll children
        ⟨name :: r.attempted, r.left, r.raised⟩
    match kind with
    | .base => ⟨base.attempted, .node name .base true base.left, base.raised⟩
    | .perUser =>
      ⟨base.attempted, .node name .perUser true (if closed || base.raised then base.left else []),
        base.raised⟩
    | .decoding raises =>
      if raises then ⟨if closed then [] else [name], .node name kind closed children, true⟩
      else ⟨base.attempted, .node name kind true base.left, base.raised⟩
    | .silenceFill raises =>
      if raises && !closed then ⟨[name], .node name kind closed children, true⟩
      else ⟨base.attempted, .node name kind true base.left, base.raised⟩

/-- The loop over the children. -/
def cleanupAll : List (Sink ι) → Cleaned ι (List (Sink ι))
  | [] => ⟨[], [], false⟩
  | child :: children =>
    let r := cleanup child
    if r.raised then ⟨r.attempted, r.left :: children, true⟩
    else
      let rest := cleanupAll children
      ⟨r.attempted ++ rest.attempted, r.left :: rest.left, rest.raised⟩

end

/-! ## Trees -/

mutual

/-- The open sinks of a tree, a parent before its children. -/
def openSinks : Sink ι → List ι
  | .writer name closed _ => if closed then [] else [name]
  | .node name _ closed children => (if closed then [] else [name]) ++ openSinksAll children

def openSinksAll : List (Sink ι) → List ι
  | [] => []
  | child :: children => openSinks child ++ openSinksAll children

end

mutual

/-- No open sink is below a closed one. -/
def Exposed : Sink ι → Prop
  | .writer _ _ _ => True
  | .node _ _ closed children => (closed = true → openSinksAll children = []) ∧ ExposedAll children

def ExposedAll : List (Sink ι) → Prop
  | [] => True
  | child :: children => Exposed child ∧ ExposedAll children

end

/-- A sink that a cleanup comes to. -/
structure Visit (ι : Type) where
  name : ι
  isOpen : Bool
  raises : Bool

/-- The own work raises. -/
def SinkKind.raises : SinkKind → Bool → Bool
  | base, _ => false
  | perUser, _ => false
  | decoding raises, _ => raises
  | silenceFill raises, closed => raises && !closed

mutual

/-- The sinks that a cleanup comes to if nothing is raised. -/
def schedule : Sink ι → List (Visit ι)
  | .writer name closed raises => [⟨name, !closed, raises && !closed⟩]
  | .node name kind closed children =>
    ⟨name, !closed, kind.raises closed⟩ :: if closed then [] else scheduleAll children

def scheduleAll : List (Sink ι) → List (Visit ι)
  | [] => []
  | child :: children => schedule child ++ scheduleAll children

end

/-! ## What is attempted -/

/-- The names of the open sinks. -/
def openNames (visits : List (Visit ι)) : List ι := (visits.filter (·.isOpen)).map Visit.name

/-- The visits up to the first one that raises. -/
def upToRaise : List (Visit ι) → List (Visit ι)
  | [] => []
  | v :: visits => v :: if v.raises then [] else upToRaise visits

theorem openNames_append (u v : List (Visit ι)) :
    openNames (u ++ v) = openNames u ++ openNames v := by
  simp [openNames]

theorem upToRaise_append (u v : List (Visit ι)) : upToRaise (u ++ v) =
    if u.any (·.raises) then upToRaise u else u ++ upToRaise v := by
  induction u with
  | nil => rfl
  | cons x u ih =>
    by_cases hx : x.raises = true
    · simp [upToRaise, hx]
    · simp only [List.cons_append, upToRaise, hx, ih, List.any_cons, Bool.false_eq_true, if_false,
        Bool.false_or]
      split <;> rfl

mutual

/-- **What is attempted** are the open sinks that the cleanup comes to, up to the first one that
raises. -/
theorem cleanup_eq (s : Sink ι) :
    (cleanup s).attempted = openNames (upToRaise (schedule s)) ∧
      (cleanup s).raised = (schedule s).any (·.raises) := by
  cases s with
  | writer name closed raises =>
    cases closed <;> cases raises <;> exact ⟨rfl, rfl⟩
  | node name kind closed children =>
    obtain ⟨hattempted, hraised⟩ := cleanupAll_eq children
    have hopen (v : Visit ι) (hv : v.isOpen = true) (visits : List (Visit ι)) :
        openNames (v :: visits) = v.name :: openNames visits := by
      simp [openNames, hv]
    cases closed with
    | true =>
      cases kind with
      | base => exact ⟨rfl, rfl⟩
      | perUser => exact ⟨rfl, rfl⟩
      | decoding raises => cases raises <;> exact ⟨rfl, rfl⟩
      | silenceFill raises => cases raises <;> exact ⟨rfl, rfl⟩
    | false =>
      -- an open sink that raises nothing of its own does what `MediaSink.cleanup` does
      have hbase : openNames (upToRaise (⟨name, true, false⟩ :: scheduleAll children)) =
          name :: (cleanupAll children).attempted := by
        rw [upToRaise, hattempted]
        exact hopen _ rfl _
      cases kind with
      | base => exact ⟨hbase.symm, hraised⟩
      | perUser => exact ⟨hbase.symm, hraised⟩
      | decoding raises =>
        cases raises with
        | true => exact ⟨rfl, rfl⟩
        | false => exact ⟨hbase.symm, hraised⟩
      | silenceFill raises =>
        cases raises with
        | true => exact ⟨rfl, rfl⟩
        | false => exact ⟨hbase.symm, hraised⟩

theorem cleanupAll_eq (children : List (Sink ι)) :
    (cleanupAll children).attempted = openNames (upToRaise (scheduleAll children)) ∧
      (cleanupAll children).raised = (scheduleAll children).any (·.raises) := by
  cases children with
  | nil => exact ⟨rfl, rfl⟩
  | cons child children =>
    obtain ⟨hattempted, hraised⟩ := cleanup_eq child
    obtain ⟨hrest, hrest_raised⟩ := cleanupAll_eq children
    rw [cleanupAll, scheduleAll, upToRaise_append, List.any_append, ← hraised, ← hrest_raised]
    dsimp only
    cases hr : (cleanup child).raised with
    | true => exact ⟨hattempted, rfl⟩
    | false =>
      have hall : upToRaise (schedule child) = schedule child := by
        rw [hr] at hraised
        have happend := upToRaise_append (schedule child) []
        rw [← hraised, if_neg (by simp), upToRaise, List.append_nil] at happend
        exact happend
      simp only [Bool.false_eq_true, if_false, Bool.false_or]
      rw [openNames_append, hattempted, hrest, hall]
      exact ⟨rfl, trivial⟩

end

/-! ## All open sinks -/

theorem openNames_upToRaise_sublist (visits : List (Visit ι)) :
    (openNames (upToRaise visits)).Sublist (openNames visits) := by
  have hsub : (upToRaise visits).Sublist visits := by
    induction visits with
    | nil => exact List.Sublist.refl _
    | cons v visits ih =>
      rw [upToRaise]
      split
      · exact (List.nil_sublist _).cons_cons _
      · exact ih.cons_cons _
  exact (hsub.filter _).map _

theorem openNames_eq_nil {visits : List (Visit ι)} :
    openNames visits = [] ↔ ∀ w ∈ visits, w.isOpen = false := by
  simp [openNames]

/-- Nothing is cut off if no open sink comes behind one that raises. -/
theorem openNames_upToRaise_eq_iff (visits : List (Visit ι)) :
    openNames (upToRaise visits) = openNames visits ↔
      ∀ before v after, visits = before ++ v :: after → v.raises = true →
        ∀ w ∈ after, w.isOpen = false := by
  induction visits with
  | nil => simp [upToRaise]
  | cons v visits ih =>
    have hcons : openNames (v :: visits) = openNames [v] ++ openNames visits :=
      openNames_append [v] visits
    by_cases hv : v.raises = true
    · rw [upToRaise, if_pos hv, hcons, List.self_eq_append_right, openNames_eq_nil]
      constructor
      · intro hnone before u after hsplit _ w hw
        refine hnone w ?_
        cases before with
        | nil => rwa [(List.cons.inj hsplit).2]
        | cons x before =>
          rw [(List.cons.inj hsplit).2]
          simp [hw]
      · intro h
        exact h [] v visits rfl hv
    · have hrest : openNames (v :: upToRaise visits) =
          openNames [v] ++ openNames (upToRaise visits) := openNames_append [v] _
      rw [upToRaise, if_neg hv, hcons, hrest, List.append_cancel_left_eq, ih]
      constructor
      · intro h before u after hsplit hu
        cases before with
        | nil => exact absurd ((List.cons.inj hsplit).1 ▸ hu) hv
        | cons x before => exact h before u after (List.cons.inj hsplit).2 hu
      · intro h before u after hsplit hu
        exact h (v :: before) u after (by rw [hsplit, List.cons_append]) hu

mutual

/-- A cleanup comes to all open sinks if none is below a closed one. -/
theorem openNames_schedule (s : Sink ι) : (openNames (schedule s)).Sublist (openSinks s) ∧
    (openNames (schedule s) = openSinks s ↔ Exposed s) := by
  cases s with
  | writer name closed raises =>
    cases closed <;> exact ⟨List.Sublist.refl _, iff_of_true rfl trivial⟩
  | node name kind closed children =>
    obtain ⟨hsub, hexposed⟩ := openNames_scheduleAll children
    cases closed with
    | true =>
      refine ⟨List.nil_sublist _, ?_⟩
      change [] = openSinksAll children ↔ (true = true → openSinksAll children = []) ∧ _
      constructor
      · intro hnone
        rw [← hnone] at hsub hexposed
        exact ⟨fun _ => hnone.symm, hexposed.1 (List.sublist_nil.1 hsub)⟩
      · intro h
        exact (h.1 rfl).symm
    | false =>
      have hnames : openNames (schedule (.node name kind false children)) =
          name :: openNames (scheduleAll children) := by
        simp [schedule, openNames]
      have hopen : openSinks (.node name kind false children) = name :: openSinksAll children := rfl
      rw [hnames, hopen, List.cons_inj_right, hexposed]
      refine ⟨hsub.cons_cons _, ?_⟩
      constructor
      · intro h
        exact ⟨fun hclosed => absurd hclosed (by decide), h⟩
      · intro h
        exact h.2

theorem openNames_scheduleAll (children : List (Sink ι)) :
    (openNames (scheduleAll children)).Sublist (openSinksAll children) ∧
      (openNames (scheduleAll children) = openSinksAll children ↔ ExposedAll children) := by
  cases children with
  | nil => exact ⟨List.Sublist.refl _, iff_of_true rfl trivial⟩
  | cons child children =>
    obtain ⟨hsub, hexposed⟩ := openNames_schedule child
    obtain ⟨hsubs, hexposeds⟩ := openNames_scheduleAll children
    rw [scheduleAll, openSinksAll, openNames_append, ExposedAll, ← hexposed, ← hexposeds]
    refine ⟨hsub.append hsubs, ?_⟩
    constructor
    · intro h
      have hlen := congrArg List.length h
      rw [List.length_append, List.length_append] at hlen
      have hle := hsub.length_le
      have hles := hsubs.length_le
      exact ⟨hsub.eq_of_length (by omega), hsubs.eq_of_length (by omega)⟩
    · rintro ⟨h, hs⟩
      rw [h, hs]

end

/-- **The cleanup is complete** just where no open sink is below a closed one and no sink that
raises comes before another open one. -/
theorem cleanup_complete_iff (s : Sink ι) : (cleanup s).attempted.Perm (openSinks s) ↔
    Exposed s ∧ ∀ before v after, schedule s = before ++ v :: after → v.raises = true →
      ∀ w ∈ after, w.isOpen = false := by
  obtain ⟨hsub, hexposed⟩ := openNames_schedule s
  have hcut := openNames_upToRaise_sublist (schedule s)
  rw [(cleanup_eq s).1, ← hexposed, ← openNames_upToRaise_eq_iff]
  constructor
  · intro hperm
    have hlen := hperm.length_eq
    have hle := hcut.length_le
    have hall : openNames (schedule s) = openSinks s :=
      hsub.eq_of_length_le (by omega)
    exact ⟨hall, hcut.eq_of_length (by rw [hall, hlen])⟩
  · rintro ⟨hall, hnone⟩
    rw [hnone, hall]

/-- A fan-out to two recordings. -/
def twoRecordings : Sink String :=
  .node "multi" .base false [.writer "ffmpeg" false true, .writer "wave" false false]

/-- If the first recording raises, the second one is not finished, not even by another cleanup. -/
theorem cleanup_not_complete : ¬ (cleanup twoRecordings).attempted.Perm (openSinks twoRecordings) ∧
    (cleanup (cleanup twoRecordings).left).attempted = [] := by
  have hattempted : (cleanup twoRecordings).attempted = ["multi", "ffmpeg"] := rfl
  have hopen : openSinks twoRecordings = ["multi", "ffmpeg", "wave"] := rfl
  refine ⟨fun h => ?_, rfl⟩
  rw [hattempted, hopen] at h
  exact absurd h.length_eq (by decide)

end NativeVoice.Media
