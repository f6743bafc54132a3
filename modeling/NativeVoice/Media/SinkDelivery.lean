import NativeVoice.Media.OpusDecoding

/-!
# Delivery to sinks

How a received packet goes down a tree of sinks of `src/discord/ext/native_voice/media.py`, and how
the client of `src/discord/ext/native_voice/client.py` writes packets to the root of one. What a
callback, a predicate or a decoder raises ends the way of the packet, and then the client stops
listening.

Every sink of a tree has a name. What changes (which sinks are closed, the Opus decoders, what the
callbacks and predicates were called with) is kept apart from the tree. Callbacks and predicates may
keep a state: what they answer is given by all that they were called with.

* `write` is `MediaSink.write`, `wants` is `wants_media`.
* `Accepted` and `accepted_run`: a callback is only given what it accepts.
* `restrict` keeps the way to a callback; `separate_run`: what a callback gets is what it would get
  without the other sinks, up to where one of them raises.
-/

namespace NativeVoice.Media

open Lib
open Receive (MediaType)

/-! ## Trees -/

/-- The media types and codecs of a filter, the codecs in lower case. -/
structure MediaMatch where
  mediaTypes : Option (List MediaType)
  codecs : Option (List String)

def MediaMatch.new (mediaTypes : Option (List MediaType)) (codecs : Option (List String)) :
    MediaMatch where
  mediaTypes := mediaTypes
  codecs := codecs.map (·.map String.toLower)

/-- `_matches`. -/
def MediaMatch.matches (m : MediaMatch) (mediaType : MediaType) (codec : String) : Bool :=
  m.mediaTypes.all (mediaType ∈ ·) && m.codecs.all (codec.toLower ∈ ·)

/-- A tree of sinks. The predicate of a `UserFilter` is the `userFilter` of a user; `scale` is
`pcm16_mul` with the volume of a `MediaSinkVolumeTransformer`. -/
inductive SinkTree (κ : Type)
  /-- `BasicSink`, with whether its callback raises. -/
  | basic (name : κ) (accepts : MediaMatch) (raises : List SinkPacket → SinkPacket → Bool)
  /-- `ConditionalFilter`, with what its predicate answers unless it raises. -/
  | conditional (name : κ) (predicate : List SinkPacket → SinkPacket → Option Bool)
      (destination : SinkTree κ)
  | mediaFilter (name : κ) (accepts : MediaMatch) (userIds : Option (List ℕ))
      (destination : SinkTree κ)
  | pcmDecode (name : κ) (fec : Bool) (destination : SinkTree κ)
  /-- `MediaSinkVolumeTransformer`. -/
  | volume (name : κ) (scale : Bytes → Option Bytes) (destination : SinkTree κ)
  | multi (name : κ) (children : List (SinkTree κ))

/-- What a sink keeps: its decoders, and what its callback or predicate was called with. -/
structure SinkMemory (δ : Type) where
  cache : OpusDecoderCache δ := ∅
  calls : List SinkPacket := []

/-- What changes: the sinks that are closed, what they keep, and what the callbacks were given. -/
structure SinkState (κ δ : Type) where
  closed : κ → Bool := fun _ => false
  memory : κ → SinkMemory δ := fun _ => {}
  delivered : List (κ × SinkPacket) := []

variable {κ δ : Type} [DecidableEq κ]

/-- The predicate of `UserFilter`. -/
def userFilter (userId : ℕ) (_calls : List SinkPacket) (packet : SinkPacket) : Option Bool :=
  some (packet.userId = some userId)

/-- The predicate of `MediaFilter`. -/
def mediaPredicate (accepts : MediaMatch) (userIds : Option (List ℕ))
    (packet : SinkPacket) : Bool :=
  accepts.matches packet.mediaType packet.codec &&
    userIds.all fun userIds => packet.userId.any (· ∈ userIds)

namespace SinkState

variable (s : SinkState κ δ)

def remember (name : κ) (memory : SinkMemory δ) : SinkState κ δ :=
  { s with memory := Function.update s.memory name memory }

def setCache (name : κ) (cache : OpusDecoderCache δ) : SinkState κ δ :=
  s.remember name { s.memory name with cache }

/-- A callback or a predicate is called. -/
def call (name : κ) (packet : SinkPacket) : SinkState κ δ :=
  s.remember name { s.memory name with calls := (s.memory name).calls ++ [packet] }

def deliver (name : κ) (packet : SinkPacket) : SinkState κ δ :=
  { s with delivered := s.delivered ++ [(name, packet)] }

/-- Some sinks are cleaned up. -/
def close (names : List κ) : SinkState κ δ :=
  { s with
    closed := fun name => s.closed name || name ∈ names
    memory := fun name =>
      if name ∈ names then { s.memory name with cache := ∅ } else s.memory name }

/-- What a callback was given. -/
def got (name : κ) : List SinkPacket :=
  s.delivered.filterMap fun d => if d.1 = name then some d.2 else none

end SinkState

/-- Writes packets one after the other, until one raises. -/
def writeEach {σ : Type} (write : σ → SinkPacket → Bool × σ) : σ → List SinkPacket → Bool × σ
  | s, [] => (true, s)
  | s, packet :: packets =>
    match write s packet with
    | (false, s) => (false, s)
    | (true, s) => writeEach write s packets

/-- The packet of a `MediaSinkVolumeTransformer`, unless the decoder or the scaling raises. -/
def scaledPacket (o : OpusDecoder δ) (scale : Bytes → Option Bytes) (cache : OpusDecoderCache δ)
    (packet : SinkPacket) : Option SinkPacket × OpusDecoderCache δ :=
  if packet.codec = "opus" then
    match o.decodePackets cache packet false with
    | (some [decoded], cache) =>
      ((if decoded.payload = [] then some [] else scale decoded.payload).map packet.decoded, cache)
    | (_, cache) => (none, cache)
  else ((if packet.payload = [] then some [] else scale packet.payload).map packet.decoded, cache)

/-- The codec that a sink passes on that decodes Opus. -/
def pcmCodec (mediaType : MediaType) (codec : String) : String :=
  if mediaType = .audio ∧ codec = "opus" then "pcm" else codec

namespace SinkTree

/-- `wants_media`. -/
def wants (closed : κ → Bool) : SinkTree κ → MediaType → String → Bool
  | .basic name accepts _, mediaType, codec => !closed name && accepts.matches mediaType codec
  | .conditional name _ destination, mediaType, codec =>
    !closed name && destination.wants closed mediaType codec
  | .mediaFilter name accepts _ destination, mediaType, codec =>
    !closed name && destination.wants closed mediaType codec && accepts.matches mediaType codec
  | .pcmDecode name _ destination, mediaType, codec =>
    !closed name &&
      destination.wants closed mediaType (pcmCodec mediaType codec)
  | .volume name _ destination, mediaType, codec =>
    !closed name &&
      destination.wants closed mediaType (pcmCodec mediaType codec)
  | .multi name _, _, _ => !closed name

variable (o : OpusDecoder δ)

mutual

/-- `write`: whether nothing is raised, and the state behind it. -/
def write : SinkTree κ → SinkState κ δ → SinkPacket → Bool × SinkState κ δ
  | .basic name _ raises, s, packet =>
    if s.closed name then (true, s)
    else (!raises (s.memory name).calls packet, (s.call name packet).deliver name packet)
  | .conditional name predicate destination, s, packet =>
    if s.closed name then (true, s)
    else match predicate (s.memory name).calls packet with
    | none => (false, s.call name packet)
    | some true => destination.write (s.call name packet) packet
    | some false => (true, s.call name packet)
  | .mediaFilter name accepts userIds destination, s, packet =>
    if s.closed name then (true, s)
    else if mediaPredicate accepts userIds packet then destination.write s packet
    else (true, s)
  | .pcmDecode name fec destination, s, packet =>
    if s.closed name then (true, s)
    else match o.pcmPackets (s.memory name).cache packet fec with
    | (none, cache) => (false, s.setCache name cache)
    | (some packets, cache) => writeEach destination.write (s.setCache name cache) packets
  | .volume name scale destination, s, packet =>
    if s.closed name then (true, s)
    else if packet.mediaType ≠ .audio ∨ packet.codec ≠ "opus" ∧ packet.codec ≠ "pcm" then
      destination.write s packet
    else match scaledPacket o scale (s.memory name).cache packet with
    | (none, cache) => (false, s.setCache name cache)
    | (some packet, cache) => destination.write (s.setCache name cache) packet
  | .multi name children, s, packet =>
    if s.closed name then (true, s) else writeChildren children s packet

/-- The loop of `MultiSink.write`. -/
def writeChildren : List (SinkTree κ) → SinkState κ δ → SinkPacket → Bool × SinkState κ δ
  | [], s, _ => (true, s)
  | child :: children, s, packet =>
    if child.wants s.closed packet.mediaType packet.codec then
      match child.write s packet with
      | (false, s) => (false, s)
      | (true, s) => writeChildren children s packet
    else writeChildren children s packet

end

mutual

/-- The names of all sinks. -/
def names : SinkTree κ → List κ
  | .basic name _ _ => [name]
  | .conditional name _ destination => name :: destination.names
  | .mediaFilter name _ _ destination => name :: destination.names
  | .pcmDecode name _ destination => name :: destination.names
  | .volume name _ destination => name :: destination.names
  | .multi name children => name :: namesAll children

def namesAll : List (SinkTree κ) → List κ
  | [] => []
  | child :: children => child.names ++ namesAll children

end

mutual

/-- The callbacks, with what they accept. -/
def callbacks : SinkTree κ → List (κ × MediaMatch)
  | .basic name accepts _ => [(name, accepts)]
  | .conditional _ _ destination => destination.callbacks
  | .mediaFilter _ _ _ destination => destination.callbacks
  | .pcmDecode _ _ destination => destination.callbacks
  | .volume _ _ destination => destination.callbacks
  | .multi _ children => callbacksAll children

def callbacksAll : List (SinkTree κ) → List (κ × MediaMatch)
  | [] => []
  | child :: children => child.callbacks ++ callbacksAll children

end

mutual

/-- The tree without the branches that do not lead to a sink. -/
def restrict (name : κ) : SinkTree κ → SinkTree κ
  | .basic name' accepts raises => .basic name' accepts raises
  | .conditional name' predicate destination =>
    .conditional name' predicate (destination.restrict name)
  | .mediaFilter name' accepts userIds destination =>
    .mediaFilter name' accepts userIds (destination.restrict name)
  | .pcmDecode name' fec destination => .pcmDecode name' fec (destination.restrict name)
  | .volume name' scale destination => .volume name' scale (destination.restrict name)
  | .multi name' children => .multi name' (restrictAll name children)

def restrictAll (name : κ) : List (SinkTree κ) → List (SinkTree κ)
  | [] => []
  | child :: children =>
    if name ∈ child.names then child.restrict name :: restrictAll name children
    else restrictAll name children

end

end SinkTree

/-! ## The client -/

/-- A tree of sinks, none of them twice. -/
structure RootSink (κ : Type) where
  tree : SinkTree κ
  nodup : tree.names.Nodup

/-- The sinks of a client, and whether it has stopped to listen because something was raised. -/
structure Listening (κ δ : Type) where
  sinks : SinkState κ δ := {}
  stopped : Bool := false

inductive SinkAction (κ : Type)
  | packet (packet : SinkPacket)
  /-- Some sinks are cleaned up by who made them. -/
  | close (names : List κ)

namespace Listening

/-- `_dispatch_media_sink_packet` and what the client does with what is raised. -/
def step (o : OpusDecoder δ) (tree : SinkTree κ) (l : Listening κ δ) : SinkAction κ → Listening κ δ
  | .packet packet =>
    if l.stopped then l
    else if tree.wants l.sinks.closed packet.mediaType packet.codec then
      let (ok, sinks) := tree.write o l.sinks packet
      { sinks, stopped := !ok }
    else l
  | .close names => { l with sinks := l.sinks.close names }

def run (o : OpusDecoder δ) (tree : SinkTree κ) (acts : List (SinkAction κ)) : Listening κ δ :=
  acts.foldl (step o tree) {}

theorem step_packet {l : Listening κ δ} (h : l.stopped = false) (o : OpusDecoder δ)
    (tree : SinkTree κ) (packet : SinkPacket) :
    l.step o tree (.packet packet) =
      if tree.wants l.sinks.closed packet.mediaType packet.codec then
        { sinks := (tree.write o l.sinks packet).2, stopped := !(tree.write o l.sinks packet).1 }
      else l := by
  rw [step, if_neg (by simp [h])]

theorem run_append (o : OpusDecoder δ) (tree : SinkTree κ) (acts : List (SinkAction κ))
    (act : SinkAction κ) : run o tree (acts ++ [act]) = (run o tree acts).step o tree act := by
  rw [run, List.foldl_append]
  rfl

end Listening

/-! ## What a write changes -/

/-- What a write to sinks with some names may do to the state. -/
structure Extends (names : List κ) (s r : SinkState κ δ) : Prop where
  delivered : s.delivered <+: r.delivered
  closed : r.closed = s.closed
  memory : ∀ name ∉ names, r.memory name = s.memory name
  got : ∀ name ∉ names, r.got name = s.got name

namespace Extends

variable {names names' : List κ} {s r r' : SinkState κ δ}

theorem refl (names : List κ) (s : SinkState κ δ) : Extends names s s :=
  ⟨List.prefix_refl _, rfl, fun _ _ => rfl, fun _ _ => rfl⟩

theorem trans (h : Extends names s r) (h' : Extends names r r') : Extends names s r' :=
  ⟨h.delivered.trans h'.delivered, h'.closed.trans h.closed,
    fun name hname => (h'.memory name hname).trans (h.memory name hname),
    fun name hname => (h'.got name hname).trans (h.got name hname)⟩

theorem mono (h : Extends names s r) (hsub : names ⊆ names') : Extends names' s r :=
  ⟨h.delivered, h.closed, fun name hname => h.memory name fun hmem => hname (hsub hmem),
    fun name hname => h.got name fun hmem => hname (hsub hmem)⟩

theorem cons (h : Extends names s r) (name : κ) : Extends (name :: names) s r :=
  h.mono (List.subset_cons_self _ _)

theorem got_mono (h : Extends names s r) (name : κ) : s.got name <+: r.got name :=
  h.delivered.filterMap _

end Extends

theorem extends_remember (name : κ) (names : List κ) (s : SinkState κ δ) (memory : SinkMemory δ) :
    Extends (name :: names) s (s.remember name memory) :=
  ⟨List.prefix_refl _, rfl,
    fun name' hname => Function.update_of_ne (fun h => hname (by simp [h])) .., fun _ _ => rfl⟩

theorem extends_setCache (name : κ) (names : List κ) (s : SinkState κ δ)
    (cache : OpusDecoderCache δ) : Extends (name :: names) s (s.setCache name cache) :=
  extends_remember ..

theorem extends_call (name : κ) (names : List κ) (s : SinkState κ δ) (packet : SinkPacket) :
    Extends (name :: names) s (s.call name packet) :=
  extends_remember ..

theorem got_deliver (s : SinkState κ δ) (name name' : κ) (packet : SinkPacket) :
    (s.deliver name packet).got name' =
      s.got name' ++ if name = name' then [packet] else [] := by
  simp only [SinkState.got, SinkState.deliver, List.filterMap_append]
  congr 1
  by_cases h : name = name' <;> simp [h]

theorem extends_deliver (name : κ) (s : SinkState κ δ) (packet : SinkPacket) :
    Extends [name] s (s.deliver name packet) := by
  refine ⟨List.prefix_append _ _, rfl, fun _ _ => rfl, fun name' hname => ?_⟩
  rw [got_deliver, if_neg, List.append_nil]
  rintro rfl
  exact hname (by simp)

/-- What every write keeps, some writes keep. -/
theorem writeEach_induction {σ : Type} {write : σ → SinkPacket → Bool × σ} {I : σ → Prop}
    {packets : List SinkPacket} (hwrite : ∀ s, ∀ packet ∈ packets, I s → I (write s packet).2)
    {s : σ} (h : I s) : I (writeEach write s packets).2 := by
  induction packets generalizing s with
  | nil => exact h
  | cons packet packets ih =>
    have hfirst := hwrite s packet (by simp) h
    rw [writeEach]
    split
    · rename_i heq
      rwa [heq] at hfirst
    · rename_i heq
      rw [heq] at hfirst
      exact ih (fun s packet' hpacket => hwrite s packet' (List.mem_cons_of_mem _ hpacket)) hfirst

namespace SinkTree

variable (o : OpusDecoder δ)

mutual

/-- **A write to a tree changes nothing outside of it.** -/
theorem extends_write (t : SinkTree κ) (s : SinkState κ δ) (packet : SinkPacket) :
    Extends t.names s (t.write o s packet).2 := by
  cases t with
  | basic name accepts raises =>
    rw [write, names]
    split
    · exact .refl _ _
    · exact (extends_call ..).trans (extends_deliver ..)
  | conditional name predicate destination =>
    rw [write, names]
    split
    · exact .refl _ _
    · split
      · exact extends_call ..
      · exact (extends_call ..).trans ((extends_write destination _ packet).cons name)
      · exact extends_call ..
  | mediaFilter name accepts userIds destination =>
    rw [write, names]
    split_ifs
    · exact .refl _ _
    · exact (extends_write destination s packet).cons name
    · exact .refl _ _
  | pcmDecode name fec destination =>
    rw [write, names]
    split
    · exact .refl _ _
    · split
      · exact extends_setCache ..
      · refine writeEach_induction (I := Extends (name :: destination.names) s)
          (fun r packet _ hr => ?_) (extends_setCache ..)
        exact hr.trans ((extends_write destination r packet).cons name)
  | volume name scale destination =>
    rw [write, names]
    split_ifs
    · exact .refl _ _
    · exact (extends_write destination s packet).cons name
    · split
      · exact extends_setCache ..
      · exact (extends_setCache ..).trans ((extends_write destination _ _).cons name)
  | multi name children =>
    rw [write, names]
    split
    · exact .refl _ _
    · exact (extends_writeChildren children s packet).cons name

theorem extends_writeChildren (children : List (SinkTree κ)) (s : SinkState κ δ)
    (packet : SinkPacket) :
    Extends (namesAll children) s (writeChildren o children s packet).2 := by
  cases children with
  | nil =>
    rw [writeChildren]
    exact .refl _ _
  | cons child children =>
    have hchild := (extends_write child s packet).mono
      (List.subset_append_left child.names (namesAll children))
    have hrest (r : SinkState κ δ) := (extends_writeChildren children r packet).mono
      (List.subset_append_right child.names (namesAll children))
    rw [writeChildren, namesAll]
    split
    · split
      · rename_i heq
        rwa [heq] at hchild
      · rename_i heq
        rw [heq] at hchild
        exact hchild.trans (hrest _)
    · exact hrest s

end

end SinkTree

/-! ## What a callback accepts -/

/-- The packets that a sink passes on that decodes Opus are of the codec that it says. -/
theorem kind_of_mem_pcmPackets {o : OpusDecoder δ} {cache : OpusDecoderCache δ}
    {packet : SinkPacket} {fec : Bool} {packets : List SinkPacket}
    (h : (o.pcmPackets cache packet fec).1 = some packets) {q : SinkPacket} (hq : q ∈ packets) :
    q.mediaType = packet.mediaType ∧ q.codec = pcmCodec packet.mediaType packet.codec := by
  unfold OpusDecoder.pcmPackets at h
  unfold pcmCodec
  split at h
  · rename_i hopus
    rw [if_pos hopus]
    exact kind_of_mem_decodePackets h hq
  · rename_i hopus
    rw [if_neg hopus]
    obtain rfl := Option.some.inj h
    rw [List.mem_singleton.1 hq]
    exact ⟨rfl, rfl⟩

theorem kind_of_scaledPacket {o : OpusDecoder δ} {scale : Bytes → Option Bytes}
    {cache : OpusDecoderCache δ} {packet q : SinkPacket}
    (h : (scaledPacket o scale cache packet).1 = some q) :
    q.mediaType = packet.mediaType ∧ q.codec = "pcm" := by
  unfold scaledPacket at h
  split at h
  · split at h
    · obtain ⟨payload, -, rfl⟩ := Option.map_eq_some_iff.1 h
      exact ⟨rfl, rfl⟩
    · cases h
  · obtain ⟨payload, -, rfl⟩ := Option.map_eq_some_iff.1 h
    exact ⟨rfl, rfl⟩

/-- A delivery to a callback that accepts it. -/
def Accepted (callbacks : List (κ × MediaMatch)) (d : κ × SinkPacket) : Prop :=
  ∃ accepts, (d.1, accepts) ∈ callbacks ∧ accepts.matches d.2.mediaType d.2.codec = true

/-- All that callbacks were given is accepted. -/
def OnlyAccepted (tree : SinkTree κ) (s : SinkState κ δ) : Prop :=
  ∀ d ∈ s.delivered, Accepted tree.callbacks d

/-- What is delivered anew is accepted. -/
def NewAccepted (callbacks : List (κ × MediaMatch)) (s r : SinkState κ δ) : Prop :=
  ∀ d ∈ r.delivered, d ∈ s.delivered ∨ Accepted callbacks d

omit [DecidableEq κ] in
theorem NewAccepted.refl (callbacks : List (κ × MediaMatch)) (s : SinkState κ δ) :
    NewAccepted callbacks s s := fun _ hd => .inl hd

omit [DecidableEq κ] in
theorem NewAccepted.trans {callbacks : List (κ × MediaMatch)} {s r r' : SinkState κ δ}
    (h : NewAccepted callbacks s r) (h' : NewAccepted callbacks r r') :
    NewAccepted callbacks s r' := by
  intro d hd
  rcases h' d hd with hd | hd
  · exact h d hd
  · exact .inr hd

omit [DecidableEq κ] in
theorem NewAccepted.mono {callbacks callbacks' : List (κ × MediaMatch)} {s r : SinkState κ δ}
    (h : NewAccepted callbacks s r) (hsub : callbacks ⊆ callbacks') :
    NewAccepted callbacks' s r := by
  intro d hd
  rcases h d hd with hd | ⟨accepts, hmem, hmatches⟩
  · exact .inl hd
  · exact .inr ⟨accepts, hsub hmem, hmatches⟩

namespace SinkTree

variable (o : OpusDecoder δ)

mutual

/-- A packet that a tree wants is only delivered where it is accepted. -/
theorem accepted_write (t : SinkTree κ) (s : SinkState κ δ) (packet : SinkPacket)
    (hwants : t.wants s.closed packet.mediaType packet.codec = true) :
    NewAccepted t.callbacks s (t.write o s packet).2 := by
  cases t with
  | basic name accepts raises =>
    rw [wants, Bool.and_eq_true] at hwants
    rw [write, callbacks]
    split
    · exact .refl _ _
    · intro d hd
      rcases List.mem_append.1 hd with hd | hd
      · exact .inl hd
      · obtain rfl := List.mem_singleton.1 hd
        exact .inr ⟨accepts, by simp, hwants.2⟩
  | conditional name predicate destination =>
    rw [wants, Bool.and_eq_true] at hwants
    rw [write, callbacks]
    split
    · exact .refl _ _
    · split
      · exact .refl _ _
      · exact accepted_write destination (s.call name packet) packet hwants.2
      · exact .refl _ _
  | mediaFilter name accepts userIds destination =>
    rw [wants, Bool.and_eq_true, Bool.and_eq_true] at hwants
    rw [write, callbacks]
    split_ifs
    · exact .refl _ _
    · exact accepted_write destination s packet hwants.1.2
    · exact .refl _ _
  | pcmDecode name fec destination =>
    rw [wants, Bool.and_eq_true] at hwants
    rw [write, callbacks]
    split
    · exact .refl _ _
    · split
      · exact .refl _ _
      · rename_i packets cache heq
        have hpackets : (o.pcmPackets (s.memory name).cache packet fec).1 = some packets := by
          rw [heq]
        -- The sinks that are closed stay the same from one packet to the next.
        refine (writeEach_induction (I := fun r : SinkState κ δ =>
          r.closed = s.closed ∧ NewAccepted destination.callbacks s r)
          (s := s.setCache name cache) (fun r q hq hr => ?_) ⟨rfl, fun _ hd => .inl hd⟩).2
        obtain ⟨hmedia, hcodec⟩ := kind_of_mem_pcmPackets hpackets hq
        refine ⟨(extends_write o destination r q).closed.trans hr.1,
          hr.2.trans (accepted_write destination r q ?_)⟩
        rw [hr.1, hmedia, hcodec]
        exact hwants.2
  | volume name scale destination =>
    rw [wants, Bool.and_eq_true, pcmCodec] at hwants
    rw [write, callbacks]
    split_ifs with hclosed hkind
    · exact .refl _ _
    · refine accepted_write destination s packet ?_
      rw [if_neg] at hwants
      · exact hwants.2
      · rintro ⟨hmedia, hcodec⟩
        rcases hkind with hkind | hkind
        · exact hkind hmedia
        · exact hkind.1 hcodec
    · obtain ⟨hmedia, hcodec⟩ : packet.mediaType = .audio ∧
          (packet.codec = "opus" ∨ packet.codec = "pcm") := by tauto
      have hpcm : destination.wants s.closed packet.mediaType "pcm" = true := by
        rcases hcodec with hcodec | hcodec
        · rw [if_pos ⟨hmedia, hcodec⟩] at hwants
          exact hwants.2
        · rw [if_neg (by simp [hcodec]), hcodec] at hwants
          exact hwants.2
      split
      · exact .refl _ _
      · rename_i q cache heq
        have hscaled : (scaledPacket o scale (s.memory name).cache packet).1 = some q := by rw [heq]
        obtain ⟨hmedia', hcodec'⟩ := kind_of_scaledPacket hscaled
        have hdeliver := accepted_write destination (s.setCache name cache) q
          (by rw [hmedia', hcodec']; exact hpcm)
        exact hdeliver
  | multi name children =>
    rw [write, callbacks]
    split
    · exact .refl _ _
    · exact accepted_writeChildren children s packet

theorem accepted_writeChildren (children : List (SinkTree κ)) (s : SinkState κ δ)
    (packet : SinkPacket) :
    NewAccepted (callbacksAll children) s (writeChildren o children s packet).2 := by
  cases children with
  | nil =>
    rw [writeChildren]
    exact .refl _ _
  | cons child children =>
    have hrest (r : SinkState κ δ) := (accepted_writeChildren children r packet).mono
      (List.subset_append_right child.callbacks (callbacksAll children))
    rw [writeChildren, callbacksAll]
    split
    · rename_i hwants
      have hchild := (accepted_write child s packet hwants).mono
        (List.subset_append_left child.callbacks (callbacksAll children))
      split
      · rename_i heq
        rwa [heq] at hchild
      · rename_i heq
        rw [heq] at hchild
        exact hchild.trans (hrest _)
    · exact hrest s

end

end SinkTree

/-- **A callback is only given what it accepts**, whatever the way from the client to it. -/
theorem accepted_run (o : OpusDecoder δ) (tree : SinkTree κ) (acts : List (SinkAction κ)) :
    OnlyAccepted tree (Listening.run o tree acts).sinks := by
  induction acts using List.reverseRecOn with
  | nil => exact fun d hd => absurd hd (by simp [Listening.run])
  | append_singleton acts act ih =>
    rw [Listening.run_append]
    cases act with
    | close names => exact ih
    | packet packet =>
      rw [Listening.step]
      split_ifs with hstopped hwants
      · exact ih
      · intro d hd
        rcases SinkTree.accepted_write o tree _ packet hwants d hd with hd | hd
        · exact ih d hd
        · exact hd
      · exact ih

/-! ## What the other sinks change -/

/-- Two states that are the same for a sink and the sinks on the way to it. -/
structure Same (name : κ) (names : List κ) (s s' : SinkState κ δ) : Prop where
  closed : ∀ n ∈ names, s.closed n = s'.closed n
  memory : ∀ n ∈ names, s.memory n = s'.memory n
  got : s.got name = s'.got name

/-- A write to a tree, and the write to its restriction: they are the same for the sink, up to where
the first one raises. -/
structure Ahead (name : κ) (names : List κ) (x y : Bool × SinkState κ δ) : Prop where
  done : x.1 = true → y.1 = true ∧ Same name names x.2 y.2
  raised : x.1 = false → x.2.got name <+: y.2.got name

variable {name : κ} {names names' : List κ} {s s' : SinkState κ δ}

theorem Same.mono (h : Same name names s s') (hsub : names' ⊆ names) : Same name names' s s' :=
  ⟨fun n hn => h.closed n (hsub hn), fun n hn => h.memory n (hsub hn), h.got⟩

theorem Same.remember (h : Same name names s s') (n : κ) (memory : SinkMemory δ) :
    Same name names (s.remember n memory) (s'.remember n memory) := by
  refine ⟨h.closed, fun n' hn' => ?_, h.got⟩
  show Function.update s.memory n memory n' = Function.update s'.memory n memory n'
  by_cases heq : n' = n
  · rw [heq, Function.update_self, Function.update_self]
  · rw [Function.update_of_ne heq, Function.update_of_ne heq]
    exact h.memory n' hn'

theorem Same.setCache (h : Same name names s s') {n : κ} (hn : n ∈ names)
    (cache : OpusDecoderCache δ) : Same name names (s.setCache n cache) (s'.setCache n cache) := by
  rw [SinkState.setCache, SinkState.setCache, h.memory n hn]
  exact h.remember n _

theorem Same.call (h : Same name names s s') {n : κ} (hn : n ∈ names) (packet : SinkPacket) :
    Same name names (s.call n packet) (s'.call n packet) := by
  rw [SinkState.call, SinkState.call, h.memory n hn]
  exact h.remember n _

theorem Same.ahead (h : Same name names s s') : Ahead name names (true, s) (true, s') :=
  ⟨fun _ => ⟨rfl, h⟩, fun hfalse => absurd hfalse (by simp)⟩

/-- Writes that change nothing else are the same for more sinks. -/
theorem Ahead.widen {x y : Bool × SinkState κ δ} {m m' : List κ} (h : Ahead name names x y)
    (hs : Same name names' s s') (hx : Extends m s x.2) (hy : Extends m' s' y.2)
    (hout : ∀ n ∈ names', n ∈ names ∨ n ∉ m ∧ n ∉ m') : Ahead name names' x y := by
  refine ⟨fun hdone => ?_, h.raised⟩
  obtain ⟨hy', hsame⟩ := h.done hdone
  refine ⟨hy', fun n hn => ?_, fun n hn => ?_, hsame.got⟩
  · rw [hx.closed, hy.closed]
    exact hs.closed n hn
  · rcases hout n hn with hin | ⟨hm, hm'⟩
    · exact hsame.memory n hin
    · rw [hx.memory n hm, hy.memory n hm']
      exact hs.memory n hn

/-- One write after another. -/
theorem Ahead.trans {x y x' y' : Bool × SinkState κ δ} (h : Ahead name names x y)
    (hx : x.1 = false → x' = x) (hy : y.2.got name <+: y'.2.got name)
    (hdone : x.1 = true → y.1 = true → Same name names x.2 y.2 → Ahead name names x' y') :
    Ahead name names x' y' := by
  cases hok : x.1 with
  | true =>
    obtain ⟨hy', hsame⟩ := h.done hok
    exact hdone hok hy' hsame
  | false =>
    rw [hx hok]
    exact ⟨fun htrue => absurd htrue (by simp [hok]), fun _ => (h.raised hok).trans hy⟩

theorem ahead_writeEach {write write' : SinkState κ δ → SinkPacket → Bool × SinkState κ δ}
    {m : List κ} (hwrite' : ∀ s' packet, Extends m s' (write' s' packet).2)
    (hwrite : ∀ s s' packet, Same name names s s' →
      Ahead name names (write s packet) (write' s' packet))
    (packets : List SinkPacket) : ∀ s s', Same name names s s' →
      Ahead name names (writeEach write s packets) (writeEach write' s' packets) := by
  induction packets with
  | nil => exact fun s s' h => h.ahead
  | cons packet packets ih =>
    intro s s' h
    have hgrows (s' : SinkState κ δ) : Extends m s' (writeEach write' s' packets).2 :=
      writeEach_induction (I := Extends m s') (fun r q _ hr => hr.trans (hwrite' r q)) (.refl _ _)
    have hfirst := hwrite s s' packet h
    refine hfirst.trans (fun hraised => ?_) ?_ fun hdone hdone' hsame => ?_
    · rw [writeEach]
      rcases hx : write s packet with ⟨ok, r⟩
      rw [hx] at hraised
      obtain rfl : ok = false := hraised
      rfl
    · rw [writeEach]
      rcases hy : write' s' packet with ⟨_ | _, r'⟩
      · exact List.prefix_refl _
      · exact (hgrows r').got_mono name
    · rw [writeEach, writeEach]
      rcases hx : write s packet with ⟨ok, r⟩
      rcases hy : write' s' packet with ⟨ok', r'⟩
      rw [hx, hy] at hsame
      rw [hx] at hdone
      rw [hy] at hdone'
      obtain rfl : ok = true := hdone
      obtain rfl : ok' = true := hdone'
      exact ih r r' hsame

namespace SinkTree

variable (o : OpusDecoder δ)

mutual

theorem names_restrict_subset (name : κ) (t : SinkTree κ) : (t.restrict name).names ⊆ t.names := by
  cases t with
  | basic n accepts raises =>
    rw [restrict]
    exact List.Subset.refl _
  | conditional n predicate destination =>
    rw [restrict, names, names]
    exact List.cons_subset_cons n (names_restrict_subset name destination)
  | mediaFilter n accepts userIds destination =>
    rw [restrict, names, names]
    exact List.cons_subset_cons n (names_restrict_subset name destination)
  | pcmDecode n fec destination =>
    rw [restrict, names, names]
    exact List.cons_subset_cons n (names_restrict_subset name destination)
  | volume n scale destination =>
    rw [restrict, names, names]
    exact List.cons_subset_cons n (names_restrict_subset name destination)
  | multi n children =>
    rw [restrict, names, names]
    exact List.cons_subset_cons n (namesAll_restrictAll_subset name children)

theorem namesAll_restrictAll_subset (name : κ) (children : List (SinkTree κ)) :
    namesAll (restrictAll name children) ⊆ namesAll children := by
  cases children with
  | nil =>
    rw [restrictAll]
    exact List.Subset.refl _
  | cons child children =>
    have hrest := namesAll_restrictAll_subset name children
    rw [restrictAll]
    split
    · rw [namesAll, namesAll]
      exact List.append_subset.2
        ⟨List.subset_append_of_subset_left _ (names_restrict_subset name child),
          List.subset_append_of_subset_right _ hrest⟩
    · rw [namesAll]
      exact List.subset_append_of_subset_right _ hrest

end

/-- What a tree wants is decided on the way to the first fan-out. -/
theorem wants_restrict (name : κ) {closed closed' : κ → Bool} (mediaType : MediaType) :
    ∀ (t : SinkTree κ) (codec : String),
      (∀ n ∈ (t.restrict name).names, closed n = closed' n) →
      t.wants closed mediaType codec = (t.restrict name).wants closed' mediaType codec
  | .basic n accepts raises, codec, h => by
    rw [restrict, wants, wants, h n (by simp [restrict, names])]
  | .conditional n predicate destination, codec, h => by
    rw [restrict, wants, wants, h n (by simp [restrict, names]),
      wants_restrict name mediaType destination codec fun n' hn' =>
        h n' (by simp [restrict, names, hn'])]
  | .mediaFilter n accepts userIds destination, codec, h => by
    rw [restrict, wants, wants, h n (by simp [restrict, names]),
      wants_restrict name mediaType destination codec fun n' hn' =>
        h n' (by simp [restrict, names, hn'])]
  | .pcmDecode n fec destination, codec, h => by
    rw [restrict, wants, wants, h n (by simp [restrict, names]),
      wants_restrict name mediaType destination _ fun n' hn' =>
        h n' (by simp [restrict, names, hn'])]
  | .volume n scale destination, codec, h => by
    rw [restrict, wants, wants, h n (by simp [restrict, names]),
      wants_restrict name mediaType destination _ fun n' hn' =>
        h n' (by simp [restrict, names, hn'])]
  | .multi n children, codec, h => by
    rw [restrict, wants, wants, h n (by simp [restrict, names])]

/-- A write behind a sink of its own name. -/
theorem ahead_destination {n : κ} {destination : SinkTree κ}
    (hnodup : (n :: destination.names).Nodup)
    (ih : ∀ s s' packet, Same name (destination.restrict name).names s s' →
      Ahead name (destination.restrict name).names (destination.write o s packet)
        ((destination.restrict name).write o s' packet))
    (s s' : SinkState κ δ) (packet : SinkPacket)
    (h : Same name (n :: (destination.restrict name).names) s s') :
    Ahead name (n :: (destination.restrict name).names) (destination.write o s packet)
      ((destination.restrict name).write o s' packet) := by
  refine (ih s s' packet (h.mono (List.subset_cons_self _ _))).widen h
    (extends_write o destination s packet) (extends_write o (destination.restrict name) s' packet)
    fun n' hn' => ?_
  rcases List.mem_cons.1 hn' with rfl | hn'
  · have hnot := (List.nodup_cons.1 hnodup).1
    exact .inr ⟨hnot, fun hmem => hnot (names_restrict_subset name destination hmem)⟩
  · exact .inl hn'

mutual

/-- **A write to a tree is, for one of its sinks, a write to the restriction of the tree**, up to
where it raises. -/
theorem ahead_write (t : SinkTree κ) (hnodup : t.names.Nodup) (s s' : SinkState κ δ)
    (packet : SinkPacket) (h : Same name (t.restrict name).names s s') :
    Ahead name (t.restrict name).names (t.write o s packet)
      ((t.restrict name).write o s' packet) := by
  cases t with
  | basic n accepts raises =>
    rw [restrict] at h ⊢
    have hn : n ∈ (SinkTree.basic n accepts raises).names := by simp [names]
    have hcall := h.call hn packet
    rw [write, write, ← h.closed n hn, ← h.memory n hn]
    split
    · exact h.ahead
    · refine ⟨fun hok => ⟨hok, hcall.closed, hcall.memory, ?_⟩, fun _ => ?_⟩
      · rw [got_deliver, got_deliver, hcall.got]
      · rw [got_deliver, got_deliver, hcall.got]
  | conditional n predicate destination =>
    rw [names] at hnodup
    rw [restrict, names] at h
    have hcall := h.call (List.mem_cons_self ..) packet
    rw [restrict, names, write, write, ← h.closed n (by simp), ← h.memory n (by simp)]
    split
    · exact h.ahead
    · split
      · exact ⟨fun hok => absurd hok (by simp), fun _ => by rw [hcall.got]⟩
      · exact ahead_destination o hnodup
          (fun s s' packet => ahead_write destination (List.nodup_cons.1 hnodup).2 s s' packet)
          _ _ packet hcall
      · exact hcall.ahead
  | mediaFilter n accepts userIds destination =>
    rw [names] at hnodup
    rw [restrict, names] at h
    rw [restrict, names, write, write, ← h.closed n (by simp)]
    split_ifs
    · exact h.ahead
    · exact ahead_destination o hnodup
        (fun s s' packet => ahead_write destination (List.nodup_cons.1 hnodup).2 s s' packet)
        s s' packet h
    · exact h.ahead
  | pcmDecode n fec destination =>
    rw [names] at hnodup
    rw [restrict, names] at h
    have hcache := h.setCache (n := n) (by simp)
    rw [restrict, names, write, write, ← h.closed n (by simp), ← h.memory n (by simp)]
    split
    · exact h.ahead
    · split
      · exact ⟨fun hok => absurd hok (by simp), fun _ => by
          rw [(hcache _).got]⟩
      · exact ahead_writeEach
          (fun s' packet => extends_write o (destination.restrict name) s' packet)
          (ahead_destination o hnodup fun s s' packet =>
            ahead_write destination (List.nodup_cons.1 hnodup).2 s s' packet)
          _ _ _ (hcache _)
  | volume n scale destination =>
    rw [names] at hnodup
    rw [restrict, names] at h
    have hdestination := ahead_destination o hnodup fun s s' packet =>
      ahead_write destination (List.nodup_cons.1 hnodup).2 s s' packet
    have hcache := h.setCache (n := n) (by simp)
    rw [restrict, names, write, write, ← h.closed n (by simp), ← h.memory n (by simp)]
    split_ifs
    · exact h.ahead
    · exact hdestination s s' packet h
    · split
      · exact ⟨fun hok => absurd hok (by simp), fun _ => by
          rw [(hcache _).got]⟩
      · exact hdestination _ _ _ (hcache _)
  | multi n children =>
    rw [names] at hnodup
    rw [restrict, names] at h
    rw [restrict, names, write, write, ← h.closed n (by simp)]
    split
    · exact h.ahead
    · refine (ahead_writeChildren children (List.nodup_cons.1 hnodup).2 s s' packet
        (h.mono (List.subset_cons_self _ _))).widen h (extends_writeChildren o children s packet)
        (extends_writeChildren o (restrictAll name children) s' packet) fun n' hn' => ?_
      rcases List.mem_cons.1 hn' with rfl | hn'
      · have hnot := (List.nodup_cons.1 hnodup).1
        exact .inr ⟨hnot, fun hmem => hnot (namesAll_restrictAll_subset name children hmem)⟩
      · exact .inl hn'

theorem ahead_writeChildren (children : List (SinkTree κ)) (hnodup : (namesAll children).Nodup)
    (s s' : SinkState κ δ) (packet : SinkPacket)
    (h : Same name (namesAll (restrictAll name children)) s s') :
    Ahead name (namesAll (restrictAll name children)) (writeChildren o children s packet)
      (writeChildren o (restrictAll name children) s' packet) := by
  cases children with
  | nil => exact h.ahead
  | cons child children =>
    obtain ⟨hchild, hrest, hdisjoint⟩ := List.nodup_append'.1 hnodup
    have hsub := namesAll_restrictAll_subset name children
    have htail (r r' : SinkState κ δ)
        (hsame : Same name (namesAll (restrictAll name children)) r r') :=
      ahead_writeChildren children hrest r r' packet hsame
    by_cases hmem : name ∈ child.names
    · -- The branch leads to the sink.
      rw [restrictAll, if_pos hmem, namesAll] at h
      rw [restrictAll, if_pos hmem, namesAll]
      have hsub' := names_restrict_subset name child
      -- The other branches are the same behind the write to this one.
      have hwhole (r r' : SinkState κ δ) (hsame : Same name
          ((child.restrict name).names ++ namesAll (restrictAll name children)) r r') :
          Ahead name ((child.restrict name).names ++ namesAll (restrictAll name children))
            (writeChildren o children r packet)
            (writeChildren o (restrictAll name children) r' packet) := by
        refine (htail r r' (hsame.mono (List.subset_append_right _ _))).widen hsame
          (extends_writeChildren o children r packet)
          (extends_writeChildren o (restrictAll name children) r' packet) fun n hn => ?_
        rcases List.mem_append.1 hn with hn | hn
        · exact .inr ⟨hdisjoint (hsub' hn), fun hn' => hdisjoint (hsub' hn) (hsub hn')⟩
        · exact .inl hn
      have hfirst : Ahead name ((child.restrict name).names ++ namesAll (restrictAll name children))
          (child.write o s packet) ((child.restrict name).write o s' packet) := by
        refine (ahead_write child hchild s s' packet (h.mono (List.subset_append_left _ _))).widen h
          (extends_write o child s packet) (extends_write o (child.restrict name) s' packet)
          fun n hn => ?_
        rcases List.mem_append.1 hn with hn | hn
        · exact .inl hn
        · exact .inr ⟨fun hn' => hdisjoint hn' (hsub hn),
            fun hn' => hdisjoint (hsub' hn') (hsub hn)⟩
      rw [writeChildren, writeChildren, ← wants_restrict name packet.mediaType child packet.codec
        fun n hn => h.closed n (List.mem_append_left _ hn)]
      split
      · refine hfirst.trans (fun hraised => ?_) ?_ fun hdone hdone' hsame => ?_
        · rcases hx : child.write o s packet with ⟨ok, r⟩
          rw [hx] at hraised
          obtain rfl : ok = false := hraised
          rfl
        · rcases hy : (child.restrict name).write o s' packet with ⟨_ | _, r'⟩
          · exact List.prefix_refl _
          · exact (extends_writeChildren o (restrictAll name children) r' packet).got_mono name
        · rcases hx : child.write o s packet with ⟨ok, r⟩
          rcases hy : (child.restrict name).write o s' packet with ⟨ok', r'⟩
          rw [hx, hy] at hsame
          rw [hx] at hdone
          rw [hy] at hdone'
          obtain rfl : ok = true := hdone
          obtain rfl : ok' = true := hdone'
          exact hwhole r r' hsame
      · exact hwhole s s' h
    · -- What the branch does, the sink does not notice.
      rw [restrictAll, if_neg hmem] at h
      rw [restrictAll, if_neg hmem, writeChildren]
      split
      · have hextends := extends_write o child s packet
        rcases hx : child.write o s packet with ⟨ok, r⟩
        rw [hx] at hextends
        have hsame : Same name (namesAll (restrictAll name children)) r s' := by
          refine ⟨fun n hn => ?_, fun n hn => ?_, ?_⟩
          · rw [hextends.closed]
            exact h.closed n hn
          · rw [hextends.memory n fun hn' => hdisjoint hn' (hsub hn)]
            exact h.memory n hn
          · rw [hextends.got name hmem]
            exact h.got
        cases ok with
        | true => exact htail r s' hsame
        | false =>
          refine ⟨fun hok => absurd hok (by simp), fun _ => ?_⟩
          rw [hsame.got]
          exact (extends_writeChildren o (restrictAll name children) s' packet).got_mono name
      · exact htail s s' h

end

end SinkTree

/-- **What a callback gets does not depend on the other sinks**: it is what it would get if the
branches that do not lead to it were not there, up to where one of the sinks raises and the client
stops to listen. -/
theorem separate_run (o : OpusDecoder δ) (root : RootSink κ) (name : κ)
    (acts : List (SinkAction κ)) :
    (Listening.run o root.tree acts).sinks.got name <+:
        (Listening.run o (root.tree.restrict name) acts).sinks.got name ∧
      ((Listening.run o root.tree acts).stopped = false →
        (Listening.run o root.tree acts).sinks.got name =
          (Listening.run o (root.tree.restrict name) acts).sinks.got name) := by
  suffices h : ((Listening.run o root.tree acts).stopped = false →
        (Listening.run o (root.tree.restrict name) acts).stopped = false ∧
        Same name (root.tree.restrict name).names (Listening.run o root.tree acts).sinks
          (Listening.run o (root.tree.restrict name) acts).sinks) ∧
      (Listening.run o root.tree acts).sinks.got name <+:
        (Listening.run o (root.tree.restrict name) acts).sinks.got name from
    ⟨h.2, fun hgoes => (h.1 hgoes).2.got⟩
  induction acts using List.reverseRecOn with
  | nil => exact ⟨fun _ => ⟨rfl, fun _ _ => rfl, fun _ _ => rfl, rfl⟩, List.prefix_refl _⟩
  | append_singleton acts act ih =>
    obtain ⟨hgoes, hprefix⟩ := ih
    rw [Listening.run_append, Listening.run_append]
    generalize Listening.run o root.tree acts = l at *
    generalize Listening.run o (root.tree.restrict name) acts = l' at *
    cases act with
    | close names =>
      refine ⟨fun hstopped => ?_, hprefix⟩
      obtain ⟨hstopped', hsame⟩ := hgoes hstopped
      refine ⟨hstopped', fun n hn => ?_, fun n hn => ?_, hsame.got⟩
      · show (l.sinks.closed n || _) = (l'.sinks.closed n || _)
        rw [hsame.closed n hn]
      · show (if n ∈ names then { l.sinks.memory n with cache := ∅ } else l.sinks.memory n) =
          if n ∈ names then { l'.sinks.memory n with cache := ∅ } else l'.sinks.memory n
        rw [hsame.memory n hn]
    | packet packet =>
      have hgrows : l'.sinks.got name <+:
          (l'.step o (root.tree.restrict name) (.packet packet)).sinks.got name := by
        rw [Listening.step]
        split_ifs
        · exact List.prefix_refl _
        · exact (SinkTree.extends_write o (root.tree.restrict name) l'.sinks packet).got_mono name
        · exact List.prefix_refl _
      cases hstopped : l.stopped with
      | true =>
        have hstep : l.step o root.tree (.packet packet) = l := by
          rw [Listening.step, if_pos hstopped]
        rw [hstep]
        exact ⟨fun hfalse => absurd hfalse (by simp [hstopped]), hprefix.trans hgrows⟩
      | false =>
        obtain ⟨hstopped', hsame⟩ := hgoes hstopped
        have hahead := SinkTree.ahead_write o root.tree root.nodup l.sinks l'.sinks packet hsame
        rw [Listening.step_packet hstopped, Listening.step_packet hstopped',
          ← SinkTree.wants_restrict name packet.mediaType root.tree packet.codec hsame.closed]
        split
        · cases hok : (root.tree.write o l.sinks packet).1 with
          | true =>
            obtain ⟨hok', hsame'⟩ := hahead.done hok
            exact ⟨fun _ => ⟨by rw [hok']; rfl, hsame'⟩, by rw [hsame'.got]⟩
          | false => exact ⟨fun hfalse => absurd hfalse (by simp), hahead.raised hok⟩
        · exact ⟨fun _ => ⟨hstopped', hsame⟩, by rw [hsame.got]⟩

/-- A packet of sound of a user. -/
def soundOf (userId : ℕ) : SinkPacket where
  mediaType := .audio
  codec := "opus"
  payload := [0xF8]
  payloadType := 120
  marker := false
  sequence := 1
  timestamp := 960
  ssrc := 7
  userId := some userId
  raw := []
  extensionPayload := []
  rtpExtended := false
  rtpExtensions := []
  rtpPackets := []
  receivedAt := 0

/-- The sound of a user is decoded for one callback, another one gets all of it, and the third one
raises. -/
def twoListeners : RootSink ℕ where
  tree := .multi 0
    [.pcmDecode 1 true (.conditional 2 (userFilter 5)
      (.basic 3 (.new (some [.audio]) none) fun _ _ => false)),
    .basic 4 (.new none none) fun _ _ => false,
    .basic 5 (.new (some [.video]) none) fun _ _ => true]
  nodup := by decide

example :
    let o : OpusDecoder Unit := ⟨(), fun _ payload _ => (some (payload ++ payload), ()),
      fun _ => some 1, fun _ => some 960⟩
    (Listening.run o twoListeners.tree
      [.packet (soundOf 5), .packet (soundOf 6), .close [4], .packet (soundOf 5),
        .packet { soundOf 5 with mediaType := .video }, .packet (soundOf 5)]).sinks.delivered.map
      (fun d => (d.1, d.2.codec, d.2.payload)) =
    [(3, "pcm", [0xF8, 0xF8]), (4, "opus", [0xF8]), (4, "opus", [0xF8]),
      (3, "pcm", [0xF8, 0xF8]), (5, "opus", [0xF8])] := by
  decide +kernel

end NativeVoice.Media
