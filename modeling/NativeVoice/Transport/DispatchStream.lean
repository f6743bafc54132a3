import NativeVoice.Transport.Dispatch

/-!
# The stream of packets to a listener

What arrives at the listeners of a transport, in every run of its threads.

* `Streamed.step`: what was dispatched and what is on the way is what was sorted.
* `Sorting.step`: what was sorted and what is still to be sorted is what was received.
* `given_isInfix`: in every run, a listener gets a part of the stream, without gaps and in order.
* `given_complete`: while the transport is open, a listener misses nothing.
-/

namespace NativeVoice.Transport

open Connection

namespace UDPTransport

variable {κ : Type} {id : ℕ} {kind : UDPPacketKind} {t : UDPTransport κ}

/-! ## The stream -/

/-- The packets that are on their way. -/
def onTheWay (t : UDPTransport κ) (kind : UDPPacketKind) : List Bytes :=
  t.dispatcher.inHand kind ++ t.channel.flatMap (UDPDispatchBatch.packets · kind) ++
    t.reader.inHand kind

/-- What was sorted has been dispatched, is on its way, or was lost behind these when the transport
was closed. -/
structure Streamed (t : UDPTransport κ) (kind : UDPPacketKind) : Prop where
  isPrefix : t.dispatched kind <+: t.sorted kind
  exact : t.dispatcher.isAlive = true → ∃ lost,
    t.dispatched kind ++ t.onTheWay kind ++ lost = t.sorted kind ∧
      (lost = [] ∨ t.closed = true ∧ t.reader.isQuiet = true)

theorem Streamed.new (kind : UDPPacketKind) : ({} : UDPTransport κ).Streamed kind where
  isPrefix := List.prefix_refl _
  exact h := absurd h (by simp [Dispatcher.isAlive])

/-- A step of the reader that takes no packet in hand. -/
theorem receive_stream (t : UDPTransport κ) (answer : Recv) (kind : UDPPacketKind) :
    (t.receive answer).sorted = t.sorted ∧ (t.receive answer).onTheWay kind = t.onTheWay kind ∧
      (t.receive answer).reader.isQuiet = t.reader.isQuiet := by
  unfold receive countError takeDatagram onTheWay
  grind [Reader.inHand, Reader.isQuiet]

/-- What is on its way, when the reader gets on. -/
theorem onTheWay_of_reader {t t' : UDPTransport κ} (hdispatcher : t'.dispatcher = t.dispatcher)
    (hchannel : t'.channel = t.channel) (kind : UDPPacketKind) {tail : List Bytes}
    (htail : t'.reader.inHand kind = t.reader.inHand kind ++ tail) :
    t'.onTheWay kind = t.onTheWay kind ++ tail := by
  rw [onTheWay, onTheWay, hdispatcher, hchannel, htail, List.append_assoc, List.append_assoc,
    List.append_assoc]

theorem packets_push (batch : UDPDispatchBatch) (packet : Bytes) (kind kind' : UDPPacketKind) :
    (batch.push packet kind').packets kind =
      batch.packets kind ++ if kind' = kind then [packet] else [] := by
  cases kind <;> cases kind' <;> simp [UDPDispatchBatch.push, UDPDispatchBatch.packets]

/-- Whether a packet is sorted as one of a kind. -/
def HasKind (kind : UDPPacketKind) (packet : Bytes) : Bool :=
  !isNativeControlPacket packet && classifyUdpPacket packet == some kind

/-- The pings take none but their responses. -/
theorem isNativeControlPacket_of_askPing {ping : Option PingState} {packet : Bytes} {now : ℕ}
    (h : (askPing ping packet now).1 = true) : isNativeControlPacket packet = true := by
  cases ping with
  | none => exact absurd h (by simp [askPing])
  | some ping =>
    rw [askPing, PingState.handlePacket] at h
    rw [isNativeControlPacket]
    cases hresponse : nativePingResponseSequence packet with
    | none => simp [hresponse] at h
    | some sequence => rfl

theorem filter_hasKind_of_control {packet : Bytes} (h : isNativeControlPacket packet = true)
    (kind : UDPPacketKind) : [packet].filter (HasKind kind) = [] := by
  simp [HasKind, h]

/-- A packet of a kind is sorted and taken in hand. -/
theorem sortPacket_stream (t : UDPTransport κ) (packet : Bytes) (packets : List Bytes)
    (batch : UDPDispatchBatch) (kind : UDPPacketKind) :
    (t.sortPacket packet packets batch).channel = t.channel ∧
      (t.sortPacket packet packets batch).datagrams = t.datagrams ∧
      (t.sortPacket packet packets batch).sorted kind =
        t.sorted kind ++ [packet].filter (HasKind kind) ∧
      ∃ batch', (t.sortPacket packet packets batch).reader = .handling packets batch' ∧
        batch'.packets kind = batch.packets kind ++ [packet].filter (HasKind kind) := by
  unfold sortPacket countControl
  dsimp only
  split
  · rename_i hcontrol
    rw [filter_hasKind_of_control hcontrol, List.append_nil, List.append_nil]
    exact ⟨rfl, rfl, rfl, batch, rfl, rfl⟩
  · rename_i hcontrol
    split
    · rename_i kind' hkind'
      have hfilter : [packet].filter (HasKind kind) = if kind' = kind then [packet] else [] := by
        by_cases hkind : kind' = kind <;> simp [HasKind, hcontrol, hkind', hkind]
      rw [hfilter]
      refine ⟨rfl, rfl, ?_, _, rfl, packets_push ..⟩
      by_cases hkind : kind' = kind
      · subst hkind
        simp
      · simp [hkind, Ne.symm hkind]
    · rename_i hkind'
      have hfilter : [packet].filter (HasKind kind) = [] := by simp [HasKind, hkind']
      rw [hfilter, List.append_nil, List.append_nil]
      exact ⟨rfl, rfl, rfl, batch, rfl, rfl⟩

/-- What a step of the reader does to the stream: it adds to it, or loses the end of it. -/
def Streams (t t' : UDPTransport κ) (kind : UDPPacketKind) : Prop :=
  ∃ tail lost, t'.sorted kind = t.sorted kind ++ tail ∧
    t'.onTheWay kind ++ lost = t.onTheWay kind ++ tail ∧
    (t.reader.isQuiet = true →
      tail = [] ∧ lost = [] ∧ (t.closed = true → t'.reader.isQuiet = true)) ∧
    (lost = [] ∨ t.closed = true ∧ t'.reader.isQuiet = true)

/-- What the reader has in hand moves on. -/
theorem Streams.move {t' : UDPTransport κ} (hsorted : t'.sorted = t.sorted)
    (hway : t'.onTheWay kind = t.onTheWay kind)
    (hquiet : t.reader.isQuiet = true → t.closed = true → t'.reader.isQuiet = true) :
    t.Streams t' kind :=
  ⟨[], [], by rw [hsorted, List.append_nil], by rw [hway], fun h => ⟨rfl, rfl, hquiet h⟩, .inl rfl⟩

/-- The reader has the same in hand. -/
theorem Streams.keep {t' : UDPTransport κ} (hsorted : t'.sorted = t.sorted)
    (hdispatcher : t'.dispatcher = t.dispatcher) (hchannel : t'.channel = t.channel)
    (hhand : t'.reader.inHand kind = t.reader.inHand kind)
    (hquiet : t.reader.isQuiet = true → t.closed = true → t'.reader.isQuiet = true) :
    t.Streams t' kind := by
  refine .move hsorted ?_ hquiet
  rw [onTheWay, onTheWay, hdispatcher, hchannel, hhand]

/-- A packet is sorted and taken in hand, or neither. -/
theorem Streams.extend {t' : UDPTransport κ} {tail : List Bytes}
    (hbusy : t.reader.isQuiet = false) (hsorted : t'.sorted kind = t.sorted kind ++ tail)
    (hdispatcher : t'.dispatcher = t.dispatcher) (hchannel : t'.channel = t.channel)
    (hhand : t'.reader.inHand kind = t.reader.inHand kind ++ tail) : t.Streams t' kind :=
  ⟨tail, [], hsorted, by
    rw [List.append_nil]
    exact onTheWay_of_reader hdispatcher hchannel kind hhand,
    fun h => absurd (hbusy.symm.trans h) (by simp), .inl rfl⟩

/-- The reader loses what it has in hand. -/
theorem Streams.lose {t' : UDPTransport κ} (hbusy : t.reader.isQuiet = false)
    (hclosed : t.closed = true) (hsorted : t'.sorted = t.sorted)
    (hdispatcher : t'.dispatcher = t.dispatcher) (hchannel : t'.channel = t.channel)
    (hhand : t'.reader.inHand kind = []) (hquiet : t'.reader.isQuiet = true) :
    t.Streams t' kind := by
  refine ⟨[], t.reader.inHand kind, by rw [hsorted, List.append_nil], ?_,
    fun h => absurd (hbusy.symm.trans h) (by simp), .inr ⟨hclosed, hquiet⟩⟩
  rw [onTheWay, onTheWay, hdispatcher, hchannel, hhand, List.append_nil, List.append_nil]

theorem packets_eq_nil {batch : UDPDispatchBatch} (h : batch.packetCount = 0) :
    batch.packets kind = [] := by
  unfold UDPDispatchBatch.packetCount at h
  cases kind <;> exact List.length_eq_zero_iff.1 (by simp only [UDPDispatchBatch.packets]; omega)

/-- A transport whose reader has something in hand has been started. -/
theorem Lifecycle.dispatchTx_of_busy (h : t.Lifecycle) (hbusy : t.reader.isQuiet = false)
    (hopen : t.closed = false) : t.dispatchTx = true ∧ t.dispatcher.isAlive = true := by
  cases hrunning : t.readerRunning with
  | true => exact h.started hrunning hopen
  | false =>
    rw [(h.unstarted hrunning hopen).reader] at hbusy
    exact absurd hbusy (by simp [Reader.isQuiet])

theorem advanceReader_streams (hlife : t.Lifecycle) (now : ℕ) (kind : UDPPacketKind)
    (halive : t.dispatcher.isAlive = true) : t.Streams (t.advanceReader now) kind := by
  unfold advanceReader
  split
  · rename_i packets hreader
    split
    · exact .keep rfl rfl rfl (by rw [hreader]; rfl) fun _ _ => rfl
    · rename_i hopen
      simp only [Bool.or_eq_true, not_or, Bool.not_eq_true] at hopen
      refine .keep rfl rfl rfl (by rw [hreader]; cases kind <;> rfl) fun _ hclosed => ?_
      exact absurd (hopen.1.symm.trans hclosed) (by simp)
  · rename_i packet packets batch hreader
    exact .keep rfl rfl rfl (by rw [hreader]; rfl)
      fun hquiet => absurd hquiet (by rw [hreader]; simp [Reader.isQuiet])
  · rename_i packet packets batch hreader
    refine .keep rfl rfl rfl ?_ fun hquiet => absurd hquiet (by rw [hreader]; simp [Reader.isQuiet])
    rw [hreader]
    dsimp only
    split <;> rfl
  · rename_i packets batch hreader
    exact .keep rfl rfl rfl (by rw [hreader]; rfl)
      fun hquiet => absurd hquiet (by rw [hreader]; simp [Reader.isQuiet])
  · rename_i packet packets batch hreader
    obtain ⟨hchannel, -, hsorted, batch', hreader', hhand⟩ :=
      sortPacket_stream t packet packets batch kind
    refine .extend (by rw [hreader]; rfl) hsorted
      (sortPacket_frame t packet packets batch).dispatcher hchannel ?_
    rw [hreader', hreader]
    exact hhand
  · rename_i batch hreader
    refine .keep rfl rfl rfl ?_ fun hquiet => absurd hquiet (by rw [hreader]; simp [Reader.isQuiet])
    rw [hreader]
    dsimp only
    split
    · rename_i hcount
      exact (packets_eq_nil hcount).symm
    · rfl
  · rename_i batch hreader
    split
    · refine .keep rfl rfl rfl (by rw [hreader]; rfl)
        fun hquiet => absurd hquiet (by rw [hreader]; simp [Reader.isQuiet])
    · rename_i htx
      have hbusy : t.reader.isQuiet = false := by rw [hreader]; rfl
      have hclosed : t.closed = true := by
        by_contra hopen
        exact htx (hlife.dispatchTx_of_busy hbusy (Bool.eq_false_of_not_eq_true hopen)).1
      exact .lose hbusy hclosed rfl rfl rfl rfl rfl
  · rename_i batch hreader
    exact .keep rfl rfl rfl (by rw [hreader]; rfl)
      fun hquiet => absurd hquiet (by rw [hreader]; simp [Reader.isQuiet])
  · rename_i batch pending hreader
    exact .keep rfl rfl rfl (by rw [hreader]; rfl)
      fun hquiet => absurd hquiet (by rw [hreader]; simp [Reader.isQuiet])
  · rename_i batch hreader
    rw [if_pos halive]
    refine .move rfl ?_ fun _ _ => rfl
    rw [onTheWay, onTheWay, hreader]
    simp [Reader.inHand]
  · rename_i packetCount hreader
    exact .keep rfl rfl rfl (by rw [hreader]; rfl) fun _ _ => rfl
  · rename_i packetCount hreader
    exact .keep rfl rfl rfl (by rw [hreader]; rfl) fun _ _ => rfl
  · exact .keep rfl rfl rfl rfl fun hquiet _ => hquiet

theorem advanceReader_sorted (t : UDPTransport κ) (now : ℕ) (kind : UDPPacketKind) :
    t.sorted kind <+: (t.advanceReader now).sorted kind := by
  unfold advanceReader
  split
  case h_5 =>
    rename_i packet packets batch _
    obtain ⟨-, -, hsorted, -⟩ := sortPacket_stream t packet packets batch kind
    exact hsorted ▸ List.prefix_append ..
  all_goals try exact List.prefix_refl _
  all_goals split <;> exact List.prefix_refl _

theorem Streamed.advanceReader (h : t.Streamed kind) (hlife : t.Lifecycle) (now : ℕ) :
    (t.advanceReader now).Streamed kind := by
  have hframe := advanceReader_frame t now
  constructor
  · rw [hframe.dispatched]
    exact h.isPrefix.trans (advanceReader_sorted t now kind)
  · intro halive
    rw [hframe.dispatcher] at halive
    rw [hframe.dispatched, hframe.closed]
    obtain ⟨lost, hexact, hlost⟩ := h.exact halive
    obtain ⟨tail, lost', hsorted, hway, hquiet, hlost'⟩ :=
      advanceReader_streams hlife now kind halive
    cases hbusy : t.reader.isQuiet with
    | true =>
      obtain ⟨rfl, rfl, hstays⟩ := hquiet hbusy
      refine ⟨lost, ?_, hlost.imp id fun ⟨hclosed, _⟩ => ⟨hclosed, hstays hclosed⟩⟩
      rw [List.append_nil, List.append_nil] at hway
      rw [hway, hexact, hsorted, List.append_nil]
    | false =>
      obtain rfl : lost = [] := hlost.resolve_right fun ⟨_, hq⟩ => by
        rw [hbusy] at hq
        exact absurd hq (by simp)
      refine ⟨lost', ?_, hlost'⟩
      rw [List.append_nil] at hexact
      rw [List.append_assoc, hway, ← List.append_assoc, hexact, hsorted]

/-- What the dispatcher has in hand, it dispatches. -/
theorem advanceDispatcher_hand (t : UDPTransport κ) (returned : Bool) (kind : UDPPacketKind)
    (halive : (t.advanceDispatcher returned).dispatcher.isAlive = true) :
    t.dispatcher.isAlive = true ∧
      (t.advanceDispatcher returned).dispatched kind ++
          (t.advanceDispatcher returned).onTheWay kind = t.dispatched kind ++ t.onTheWay kind := by
  cases hdispatcher : t.dispatcher with
  | waiting =>
    cases hchannel : t.channel with
    | nil => cases hsender : t.hasSender <;>
        simp [advanceDispatcher, onTheWay, hdispatcher, hchannel, hsender, Dispatcher.isAlive,
          Dispatcher.inHand] at halive ⊢
    | cons batch channel =>
      simp [advanceDispatcher, onTheWay, hdispatcher, hchannel, Dispatcher.isAlive,
        Dispatcher.inHand]
  | received batch =>
    simp [advanceDispatcher, onTheWay, hdispatcher, Dispatcher.isAlive, Dispatcher.inHand]
  | checking batch =>
    cases hclosed : t.closed <;>
      simp [advanceDispatcher, onTheWay, hdispatcher, hclosed, Dispatcher.isAlive,
        Dispatcher.inHand] at halive ⊢
  | dispatching kind' batch =>
    cases kind <;> cases kind' <;>
      simp [advanceDispatcher, onTheWay, hdispatcher, Dispatcher.isAlive, Dispatcher.inHand]
  | calling kind' batch calls =>
    cases calls with
    | nil => cases kind' <;>
        simp [advanceDispatcher, onTheWay, hdispatcher, Dispatcher.isAlive, Dispatcher.inHand]
    | cons call calls => cases kind' <;>
        simp [advanceDispatcher, onTheWay, hdispatcher, Dispatcher.isAlive, Dispatcher.inHand]
  | inCall kind' batch calls => cases kind' <;>
      simp [advanceDispatcher, onTheWay, hdispatcher, Dispatcher.isAlive, Dispatcher.inHand]
  | counting packetCount | countingPackets packetCount =>
    simp [advanceDispatcher, onTheWay, hdispatcher, Dispatcher.isAlive, Dispatcher.inHand]
  | stopped =>
    rw [advanceDispatcher_of_stopped hdispatcher, hdispatcher] at halive
    exact absurd halive (by simp [Dispatcher.isAlive])

/-- A dispatcher that ends dispatches nothing. -/
theorem advanceDispatcher_dispatched (t : UDPTransport κ) (returned : Bool)
    (hdead : (t.advanceDispatcher returned).dispatcher.isAlive = false) :
    (t.advanceDispatcher returned).dispatched = t.dispatched := by
  revert hdead
  unfold advanceDispatcher Dispatcher.isAlive
  grind

theorem Streamed.advanceDispatcher (h : t.Streamed kind) (returned : Bool) :
    (t.advanceDispatcher returned).Streamed kind := by
  obtain ⟨hclosed, -, -, hreader, hsorted, -⟩ := advanceDispatcher_frame t returned
  have hexact : (t.advanceDispatcher returned).dispatcher.isAlive = true → ∃ lost,
      (t.advanceDispatcher returned).dispatched kind ++
          (t.advanceDispatcher returned).onTheWay kind ++ lost =
        (t.advanceDispatcher returned).sorted kind ∧
      (lost = [] ∨ (t.advanceDispatcher returned).closed = true ∧
        (t.advanceDispatcher returned).reader.isQuiet = true) := by
    intro halive
    obtain ⟨halive', hhand⟩ := advanceDispatcher_hand t returned kind halive
    rw [hhand, hsorted, hclosed, hreader]
    exact h.exact halive'
  refine ⟨?_, hexact⟩
  cases halive : (t.advanceDispatcher returned).dispatcher.isAlive with
  | true =>
    obtain ⟨lost, heq, -⟩ := hexact halive
    rw [← heq, List.append_assoc]
    exact List.prefix_append ..
  | false =>
    rw [advanceDispatcher_dispatched t returned halive, hsorted]
    exact h.isPrefix

theorem Streamed.step (h : t.Streamed kind) (hlife : t.Lifecycle) (action : Action κ) :
    (t.step action).Streamed kind := by
  cases action with
  | startReader spawned =>
    rw [UDPTransport.step, startReader]
    split
    · exact h
    · rename_i hstart
      simp only [Bool.or_eq_true, not_or, Bool.not_eq_true] at hstart
      have hunstarted := hlife.unstarted hstart.1.1 hstart.1.2
      refine ⟨h.isPrefix, fun _ => ⟨[], ?_, .inl rfl⟩⟩
      simp [onTheWay, Dispatcher.inHand, Reader.inHand, hunstarted.sorted, hunstarted.dispatched]
  | receive answer =>
    have hframe := receive_frame t answer
    obtain ⟨hsorted, hway, hquiet⟩ := receive_stream t answer kind
    exact ⟨by rw [UDPTransport.step, hframe.dispatched, hsorted]; exact h.isPrefix, fun halive => by
      rw [UDPTransport.step, hframe.dispatched, hway, hsorted, hframe.closed, hquiet]
      exact h.exact (hframe.dispatcher ▸ halive)⟩
  | advanceReader now => exact h.advanceReader hlife now
  | advanceDispatcher returned => exact h.advanceDispatcher returned
  | addListener callback rtp rtcp batch => exact ⟨h.isPrefix, h.exact⟩
  | removeListener id => exact ⟨h.isPrefix, h.exact⟩
  | setPing ping => exact ⟨h.isPrefix, h.exact⟩
  | close closing =>
    cases closing with
    | mark =>
      refine ⟨h.isPrefix, fun halive => ?_⟩
      obtain ⟨lost, heq, hlost⟩ := h.exact halive
      exact ⟨lost, heq, hlost.imp id fun hq => ⟨rfl, hq.2⟩⟩
    | stopPing | stopReader | dropSender =>
      rw [UDPTransport.step, close]
      split
      · exact ⟨h.isPrefix, h.exact⟩
      · exact h

/-! ## Sorting -/

/-- What was received has been sorted, or is still to be sorted. -/
def SortsAll (t : UDPTransport κ) (kind : UDPPacketKind) : Prop :=
  t.sorted kind ++ t.reader.unsorted.filter (HasKind kind) = t.datagrams.filter (HasKind kind)

/-- All packets are sorted, but for those that the reader gives up when the transport is closed. -/
structure Sorting (t : UDPTransport κ) (kind : UDPPacketKind) : Prop where
  isPrefix : t.sorted kind <+: t.datagrams.filter (HasKind kind)
  whileOpen : t.closed = false → t.SortsAll kind
  handling : t.reader.isHandling = true → t.SortsAll kind

theorem SortsAll.isPrefix (h : t.SortsAll kind) :
    t.sorted kind <+: t.datagrams.filter (HasKind kind) :=
  h ▸ List.prefix_append ..

theorem Sorting.new (kind : UDPPacketKind) : ({} : UDPTransport κ).Sorting kind :=
  ⟨List.prefix_refl _, fun _ => rfl, fun h => absurd h (by simp [Reader.isHandling])⟩

/-- What a `recv` gives is behind what the reader has. -/
theorem receive_datagrams (t : UDPTransport κ) (answer : Recv) :
    ∃ packets, (t.receive answer).datagrams = t.datagrams ++ packets ∧
      (t.receive answer).reader.unsorted = t.reader.unsorted ++ packets := by
  have hsame {t' : UDPTransport κ} (hdatagrams : t'.datagrams = t.datagrams)
      (hunsorted : t'.reader.unsorted = t.reader.unsorted) :
      ∃ packets, t'.datagrams = t.datagrams ++ packets ∧
        t'.reader.unsorted = t.reader.unsorted ++ packets :=
    ⟨[], by rw [hdatagrams, List.append_nil], by rw [hunsorted, List.append_nil]⟩
  have herror : t.countError.datagrams = t.datagrams ∧ t.countError.reader = t.reader := by
    unfold countError
    split <;> exact ⟨rfl, rfl⟩
  unfold receive
  split
  · rename_i hreader
    split
    · exact hsame rfl (by rw [hreader]; rfl)
    · cases answer with
      | packet data => exact ⟨_, rfl, by rw [hreader]; rfl⟩
      | retry => exact hsame rfl rfl
      | error message => exact hsame herror.1 (by rw [herror.2])
  · rename_i packets hreader
    split
    · cases answer with
      | packet data => exact ⟨_, rfl, by rw [hreader]; rfl⟩
      | retry => exact hsame rfl (by rw [hreader]; rfl)
      | error message => exact hsame herror.1 (by rw [hreader]; rfl)
    · exact hsame rfl (by rw [hreader]; rfl)
  · exact hsame rfl rfl

theorem receive_of_handling {answer : Recv} (h : (t.receive answer).reader.isHandling = true) :
    t.receive answer = t := by
  revert h
  unfold receive takeDatagram countError
  grind [Reader.isHandling]

theorem Sorting.receive (h : t.Sorting kind) (answer : Recv) : (t.receive answer).Sorting kind := by
  obtain ⟨packets, hdatagrams, hunsorted⟩ := receive_datagrams t answer
  have hsorted := (receive_stream t answer kind).1
  have hall (hall : t.SortsAll kind) : (t.receive answer).SortsAll kind := by
    rw [SortsAll, hsorted, hunsorted, hdatagrams, List.filter_append, List.filter_append,
      ← List.append_assoc, hall]
  constructor
  · rw [hsorted, hdatagrams, List.filter_append]
    exact h.isPrefix.trans (List.prefix_append ..)
  · exact fun hopen => hall (h.whileOpen ((receive_frame t answer).closed ▸ hopen))
  · intro hhandling
    have hsame := receive_of_handling hhandling
    rw [hsame] at hhandling ⊢
    exact h.handling hhandling

/-- The reader moves on with the same packets to sort, and is not in the loop then. -/
theorem Sorting.move {t' : UDPTransport κ} (h : t.Sorting kind)
    (hsorted : t'.sorted kind = t.sorted kind) (hdatagrams : t'.datagrams = t.datagrams)
    (hclosed : t'.closed = t.closed) (hunsorted : t'.reader.unsorted = t.reader.unsorted)
    (hreader : t'.reader.isHandling = false) : t'.Sorting kind := by
  constructor
  · rw [hsorted, hdatagrams]
    exact h.isPrefix
  · intro hopen
    rw [SortsAll, hsorted, hdatagrams, hunsorted]
    exact h.whileOpen (hclosed ▸ hopen)
  · exact fun hhandling => absurd (hreader.symm.trans hhandling) (by simp)

/-- All packets are sorted as long as the reader is in the loop. -/
theorem Sorting.of_sortsAll (h : t.SortsAll kind) : t.Sorting kind :=
  ⟨h.isPrefix, fun _ => h, fun _ => h⟩

/-- The reader moves on in the loop with the same packets to sort. -/
theorem SortsAll.move {t' : UDPTransport κ} (h : t.SortsAll kind)
    (hsorted : t'.sorted kind = t.sorted kind) (hdatagrams : t'.datagrams = t.datagrams)
    (hunsorted : t'.reader.unsorted.filter (HasKind kind) =
      t.reader.unsorted.filter (HasKind kind)) : t'.SortsAll kind := by
  rwa [SortsAll, hsorted, hdatagrams, hunsorted]

theorem Lifecycle.readerRunning (h : t.Lifecycle) (hopen : t.closed = false)
    (hreader : t.reader ≠ .stopped) : t.readerRunning = true := by
  by_contra hrunning
  exact hreader (h.unstarted (Bool.eq_false_of_not_eq_true hrunning) hopen).reader

theorem Sorting.advanceReader (h : t.Sorting kind) (hlife : t.Lifecycle) (now : ℕ) :
    (t.advanceReader now).Sorting kind := by
  unfold UDPTransport.advanceReader
  split
  · rename_i packets hreader
    split
    · rename_i hstop
      refine ⟨h.isPrefix, fun hopen => ?_,
        fun hhandling => absurd hhandling (by simp [Reader.isHandling])⟩
      have hrunning := hlife.readerRunning hopen (by rw [hreader]; simp)
      rw [show t.closed = false from hopen, hrunning] at hstop
      exact absurd hstop (by simp)
    · rename_i hopen
      simp only [Bool.or_eq_true, not_or, Bool.not_eq_true] at hopen
      exact .of_sortsAll ((h.whileOpen hopen.1).move rfl rfl (by rw [hreader]; rfl))
  · rename_i packet packets batch hreader
    have hall := h.handling (by rw [hreader]; rfl)
    exact .of_sortsAll (hall.move rfl rfl (by rw [hreader]; rfl))
  · rename_i packet packets batch hreader
    have hall := h.handling (by rw [hreader]; rfl)
    refine .of_sortsAll (hall.move rfl rfl ?_)
    rw [hreader]
    dsimp only
    split
    · -- What the pings take is of no kind.
      rename_i hanswered
      simp only [Reader.unsorted]
      rw [← List.singleton_append, List.filter_append,
        filter_hasKind_of_control (isNativeControlPacket_of_askPing hanswered), List.nil_append]
    · rfl
  · rename_i packets batch hreader
    have hall := h.handling (by rw [hreader]; rfl)
    exact .of_sortsAll (hall.move rfl rfl (by rw [hreader]; rfl))
  · rename_i packet packets batch hreader
    obtain ⟨-, hdatagrams, hsorted, batch', hreader', -⟩ :=
      sortPacket_stream t packet packets batch kind
    have hall := h.handling (by rw [hreader]; rfl)
    rw [SortsAll, hreader] at hall
    refine .of_sortsAll ?_
    rw [SortsAll, hdatagrams, hsorted, hreader', ← hall, List.append_assoc]
    simp only [Reader.unsorted]
    rw [← List.filter_append, List.singleton_append]
  · rename_i batch hreader
    refine h.move rfl rfl rfl ?_ ?_
    · rw [hreader]
      dsimp only
      split <;> rfl
    · dsimp only
      split <;> rfl
  · rename_i batch hreader
    refine h.move rfl rfl rfl ?_ ?_
    · rw [hreader]
      dsimp only
      split <;> rfl
    · dsimp only
      split <;> rfl
  · rename_i batch hreader
    exact h.move rfl rfl rfl (by rw [hreader]; rfl) rfl
  · rename_i batch pending hreader
    exact h.move rfl rfl rfl (by rw [hreader]; rfl) rfl
  · rename_i batch hreader
    split
    · exact h.move rfl rfl rfl (by rw [hreader]; rfl) rfl
    · exact h.move rfl rfl rfl (by rw [hreader]; rfl) rfl
  · rename_i packetCount hreader
    exact h.move rfl rfl rfl (by rw [hreader]; rfl) rfl
  · rename_i packetCount hreader
    exact h.move rfl rfl rfl (by rw [hreader]; rfl) rfl
  · exact h

theorem Sorting.of_eq {t' : UDPTransport κ} (h : t.Sorting kind) (hsorted : t'.sorted = t.sorted)
    (hdatagrams : t'.datagrams = t.datagrams) (hreader : t'.reader = t.reader)
    (hclosed : t'.closed = false → t.closed = false) : t'.Sorting kind := by
  have hall (hall : t.SortsAll kind) : t'.SortsAll kind := by
    rwa [SortsAll, hsorted, hdatagrams, hreader]
  exact ⟨by rw [hsorted, hdatagrams]; exact h.isPrefix,
    fun hopen => hall (h.whileOpen (hclosed hopen)),
    fun hhandling => hall (h.handling (hreader ▸ hhandling))⟩

theorem Sorting.step (h : t.Sorting kind) (hlife : t.Lifecycle) (action : Action κ) :
    (t.step action).Sorting kind := by
  cases action with
  | startReader spawned =>
    rw [UDPTransport.step, startReader]
    split
    · exact h
    · rename_i hstart
      simp only [Bool.or_eq_true, not_or, Bool.not_eq_true] at hstart
      have hunstarted := hlife.unstarted hstart.1.1 hstart.1.2
      refine h.move rfl rfl rfl ?_ rfl
      rw [hunstarted.reader]
      rfl
  | receive answer => exact h.receive answer
  | advanceReader now => exact h.advanceReader hlife now
  | advanceDispatcher returned =>
    obtain ⟨hclosed, -, -, hreader, hsorted, -⟩ := advanceDispatcher_frame t returned
    exact h.of_eq hsorted (advanceDispatcher_datagrams t returned) hreader fun hopen =>
      hclosed ▸ hopen
  | addListener callback rtp rtcp batch => exact h.of_eq rfl rfl rfl id
  | removeListener id => exact h.of_eq rfl rfl rfl fun h => h
  | setPing ping => exact h.of_eq rfl rfl rfl id
  | close closing =>
    cases closing with
    | mark =>
      exact h.of_eq rfl rfl rfl fun hopen => absurd hopen (by simp [UDPTransport.step, close])
    | stopPing | stopReader | dropSender =>
      rw [UDPTransport.step, close]
      split
      · exact h.of_eq rfl rfl rfl id
      · exact h

/-! ## Runs -/

theorem run_concat (actions : List (Action κ)) (action : Action κ) :
    run (actions ++ [action]) = (run actions).step action := List.foldl_concat ..

theorem numbered_run (actions : List (Action κ)) : Numbered (run actions).registry := by
  induction actions using List.reverseRecOn with
  | nil => exact ⟨List.nodup_nil, fun _ h => absurd h List.not_mem_nil⟩
  | append_singleton actions action ih => exact run_concat actions action ▸ ih.step action

theorem lifecycle_run (actions : List (Action κ)) : (run actions).Lifecycle := by
  induction actions using List.reverseRecOn with
  | nil => exact .new
  | append_singleton actions action ih => exact run_concat actions action ▸ ih.step action

theorem streamed_run (actions : List (Action κ)) (kind : UDPPacketKind) :
    (run actions).Streamed kind := by
  induction actions using List.reverseRecOn with
  | nil => exact .new kind
  | append_singleton actions action ih =>
    exact run_concat actions action ▸ ih.step (lifecycle_run actions) action

/-- **Nothing is lost while the transport is open**: what was sorted has been dispatched or is on
its way, in order. -/
theorem dispatched_append_onTheWay (actions : List (Action κ)) (kind : UDPPacketKind)
    (hopen : (run actions).closed = false) :
    (run actions).dispatched kind ++ (run actions).onTheWay kind = (run actions).sorted kind := by
  have hlife := lifecycle_run actions
  cases hrunning : (run actions).readerRunning with
  | true =>
    obtain ⟨lost, heq, hlost⟩ := (streamed_run actions kind).exact (hlife.started hrunning hopen).2
    obtain rfl : lost = [] := hlost.resolve_right fun ⟨hclosed, _⟩ =>
      absurd (hopen.symm.trans hclosed) (by simp)
    rwa [List.append_nil] at heq
  | false =>
    have hunstarted := hlife.unstarted hrunning hopen
    simp [onTheWay, hunstarted.sorted, hunstarted.dispatched, hunstarted.dispatcher,
      hunstarted.channel, hunstarted.reader, Dispatcher.inHand, Reader.inHand]

/-- A listener has been given a part of what was dispatched, without gaps: up to the end of it while
it is registered, and nothing before it was. -/
structure Served (t : UDPTransport κ) (id : ℕ) (kind : UDPPacketKind) : Prop where
  fresh : t.registry.nextListenerId ≤ id → t.assigned id kind = []
  isSuffix : Listening id kind t.registry.listeners → t.assigned id kind <:+ t.dispatched kind
  isInfix : t.assigned id kind <:+: t.dispatched kind

/-- The registry changes by a call of one of its two functions. -/
theorem step_registry (t : UDPTransport κ) (action : Action κ) :
    (t.step action).registry = t.registry ∨
      (∃ callback rtp rtcp batch, action = .addListener callback rtp rtcp batch) ∨
      ∃ id, action = .removeListener id := by
  cases action with
  | startReader spawned =>
    refine .inl ?_
    rw [UDPTransport.step, startReader]
    split <;> rfl
  | receive answer => exact .inl (receive_frame t answer).registry
  | advanceReader now => exact .inl (advanceReader_frame t now).registry
  | advanceDispatcher returned => exact .inl (advanceDispatcher_registry t returned)
  | addListener callback rtp rtcp batch => exact .inr (.inl ⟨callback, rtp, rtcp, batch, rfl⟩)
  | removeListener id => exact .inr (.inr ⟨id, rfl⟩)
  | setPing ping => exact .inl rfl
  | close closing => exact .inl (close_registry t closing)

theorem nextListenerId_le_step (t : UDPTransport κ) (action : Action κ) :
    t.registry.nextListenerId ≤ (t.step action).registry.nextListenerId := by
  rcases step_registry t action with hsame | ⟨callback, rtp, rtcp, batch, rfl⟩ | ⟨id, rfl⟩
  · exact (congrArg _ hsame).ge
  · exact Nat.le_succ _
  · exact le_rfl

/-- A listener that is there was there, or has got the next id. -/
theorem listening_of_step (action : Action κ)
    (h : Listening id kind (t.step action).registry.listeners) :
    Listening id kind t.registry.listeners ∨
      t.registry.nextListenerId = id ∧ t.lookedUp kind action = [] := by
  rcases step_registry t action with hsame | ⟨callback, rtp, rtcp, batch, rfl⟩ | ⟨id', rfl⟩
  · exact .inl (hsame ▸ h)
  · obtain ⟨listener, hmem, hid, hwants⟩ := h
    rcases List.mem_append.1 hmem with hold | hnew
    · exact .inl ⟨listener, hold, hid, hwants⟩
    · rw [List.mem_singleton.1 hnew] at hid
      exact .inr ⟨hid, rfl⟩
  · obtain ⟨listener, hmem, hid, hwants⟩ := h
    exact .inl ⟨listener, List.mem_of_mem_filter hmem, hid, hwants⟩

theorem Numbered.not_listening {registry : NativeUDPTransport κ} (h : Numbered registry)
    (hid : registry.nextListenerId ≤ id) : ¬ Listening id kind registry.listeners := by
  rintro ⟨listener, hmem, rfl, -⟩
  exact absurd (h.lt_next listener hmem) (Nat.not_lt.2 hid)

theorem Served.step (h : t.Served id kind) (hnumbered : Numbered t.registry)
    (hlife : t.Lifecycle) (action : Action κ) : (t.step action).Served id kind := by
  obtain ⟨hdispatched, hassigned⟩ := step_assigned hnumbered hlife action id kind
  constructor
  · intro hid
    have hid := (nextListenerId_le_step t action).trans hid
    rw [hassigned, h.fresh hid, if_neg (hnumbered.not_listening hid)]
    rfl
  · intro hlistening
    rw [hassigned, hdispatched]
    rcases listening_of_step action hlistening with hthere | ⟨hnext, hlooked⟩
    · rw [if_pos hthere]
      obtain ⟨before, hbefore⟩ := h.isSuffix hthere
      exact ⟨before, by rw [← hbefore, List.append_assoc]⟩
    · rw [h.fresh hnext.le, hlooked, ite_self]
      exact List.nil_suffix
  · rw [hassigned, hdispatched]
    by_cases hthere : Listening id kind t.registry.listeners
    · rw [if_pos hthere]
      obtain ⟨before, hbefore⟩ := h.isSuffix hthere
      exact ⟨before, [], by rw [← hbefore, List.append_nil, List.append_assoc]⟩
    · rw [if_neg hthere, List.append_nil]
      exact h.isInfix.trans (List.prefix_append ..).isInfix

theorem served_run (actions : List (Action κ)) (id : ℕ) (kind : UDPPacketKind) :
    (run actions).Served id kind := by
  induction actions using List.reverseRecOn with
  | nil => exact ⟨fun _ => rfl, fun _ => List.nil_suffix, List.nil_infix⟩
  | append_singleton actions action ih =>
    exact run_concat actions action ▸ ih.step (numbered_run actions) (lifecycle_run actions) action

theorem sorting_run (actions : List (Action κ)) (kind : UDPPacketKind) :
    (run actions).Sorting kind := by
  induction actions using List.reverseRecOn with
  | nil => exact .new kind
  | append_singleton actions action ih =>
    exact run_concat actions action ▸ ih.step (lifecycle_run actions) action

/-- **Every listener gets a part of the stream without gaps**: in every run, whoever adds and
removes listeners or closes the transport meanwhile, the packets of a kind that a listener was given
are consecutive packets of that kind among the received ones, in their order and each once. -/
theorem given_isInfix (actions : List (Action κ)) (id : ℕ) (kind : UDPPacketKind) :
    (run actions).given id kind <:+: (run actions).datagrams.filter (HasKind kind) :=
  ((List.prefix_append ((run actions).given id kind) _).isInfix.trans
    (served_run actions id kind).isInfix).trans
      ((streamed_run actions kind).isPrefix.trans (sorting_run actions kind).isPrefix).isInfix

/-- A run from a state. -/
def runFrom (t : UDPTransport κ) (actions : List (Action κ)) : UDPTransport κ :=
  actions.foldl step t

theorem run_append (pre post : List (Action κ)) :
    run (pre ++ post) = (run pre).runFrom post := List.foldl_append ..

/-- A listener stays until it is removed. -/
theorem Listening.step {action : Action κ} (h : Listening id kind t.registry.listeners)
    (hstays : action ≠ .removeListener id) :
    Listening id kind (t.step action).registry.listeners := by
  rcases step_registry t action with hsame | ⟨callback, rtp, rtcp, batch, rfl⟩ | ⟨id', rfl⟩
  · rwa [hsame]
  · obtain ⟨listener, hmem, hlistener⟩ := h
    exact ⟨listener, List.mem_append_left _ hmem, hlistener⟩
  · obtain ⟨listener, hmem, hid, hwants⟩ := h
    have hne : listener.id ≠ id' := fun heq => hstays (by rw [← heq, hid])
    exact ⟨listener, List.mem_filter.2 ⟨hmem, decide_eq_true hne⟩, hid, hwants⟩

/-- A listener that stays is assigned what is dispatched meanwhile. -/
theorem assigned_runFrom (hnumbered : Numbered t.registry) (hlife : t.Lifecycle)
    (hthere : Listening id kind t.registry.listeners) {actions : List (Action κ)}
    (hstays : ∀ action ∈ actions, action ≠ .removeListener id) :
    ∃ since, (t.runFrom actions).dispatched kind = t.dispatched kind ++ since ∧
      (t.runFrom actions).assigned id kind = t.assigned id kind ++ since := by
  induction actions generalizing t with
  | nil => exact ⟨[], (List.append_nil _).symm, (List.append_nil _).symm⟩
  | cons action actions ih =>
    obtain ⟨hdispatched, hassigned⟩ := step_assigned hnumbered hlife action id kind
    obtain ⟨since, hdispatched', hassigned'⟩ := ih (hnumbered.step action) (hlife.step action)
      (hthere.step (hstays action List.mem_cons_self))
      fun action' h => hstays action' (List.mem_cons_of_mem _ h)
    rw [if_pos hthere] at hassigned
    refine ⟨t.lookedUp kind action ++ since, ?_, ?_⟩
    · rw [← List.append_assoc, ← hdispatched]
      exact hdispatched'
    · rw [← List.append_assoc, ← hassigned]
      exact hassigned'

/-- Whether a listener asks for a kind of packets when it is added. -/
def subscribed (rtp rtcp : Bool) : UDPPacketKind → Bool
  | .rtp => rtp
  | .rtcp => rtcp

theorem wants_new (registry : NativeUDPTransport κ) (callback : κ) (rtp rtcp batch : Bool)
    (kind : UDPPacketKind) :
    Wants kind { id := registry.nextListenerId, batch, callback
                 flags := (if rtp then UDP_LISTENER_RTP else 0) |||
                   if rtcp then UDP_LISTENER_RTCP else 0 } = subscribed rtp rtcp kind := by
  simp only [Wants]
  cases kind <;> revert rtp rtcp <;> decide

/-- **A listener misses nothing while the transport is open**: behind the packets that had been
dispatched when it was added, all packets of its kind were given to it, are to be given to it, or
are on their way, in the order in which they were received. -/
theorem given_complete (pre post : List (Action κ)) (callback : κ) (rtp rtcp batch : Bool)
    (kind : UDPPacketKind)
    (hkind : subscribed rtp rtcp kind = true)
    (hstays : ∀ action ∈ post, action ≠ .removeListener (run pre).registry.nextListenerId)
    (hopen : (run (pre ++ .addListener callback rtp rtcp batch :: post)).closed = false) :
    let t := run (pre ++ .addListener callback rtp rtcp batch :: post)
    let id := (run pre).registry.nextListenerId
    t.datagrams.filter (HasKind kind) =
      (run pre).dispatched kind ++ t.given id kind ++ t.due id kind ++ t.onTheWay kind ++
        t.reader.unsorted.filter (HasKind kind) := by
  intro t id
  have hsplit : t = ((run pre).step (.addListener callback rtp rtcp batch)).runFrom post :=
    (run_append pre _)
  have hthere : Listening id kind
      ((run pre).step (.addListener callback rtp rtcp batch)).registry.listeners := by
    exact ⟨_, List.mem_append_right _ (List.mem_singleton.2 rfl), rfl, (wants_new ..).trans hkind⟩
  obtain ⟨since, hdispatched, hassigned⟩ := assigned_runFrom ((numbered_run pre).step _)
    ((lifecycle_run pre).step _) hthere hstays
  have hfresh : ((run pre).step (.addListener callback rtp rtcp batch)).assigned id kind = [] :=
    (served_run pre id kind).fresh le_rfl
  have hstream := dispatched_append_onTheWay _ kind hopen
  have hsorts := (sorting_run _ kind).whileOpen hopen
  rw [← hsplit] at hdispatched hassigned
  rw [hfresh, List.nil_append] at hassigned
  rw [← hsorts, ← hstream, List.append_assoc ((run pre).dispatched kind)]
  change t.dispatched kind ++ _ ++ _ = (run pre).dispatched kind ++ t.assigned id kind ++ _ ++ _
  rw [hdispatched, hassigned]
  rfl

/-- A packet that is taken off the socket, dispatched and given, and one that is not sorted yet. -/
def givenRun : List (Action Unit) :=
  [.startReader true, .receive (.packet [0x80, 120, 0, 1, 0, 0, 0, 0, 0, 0, 0, 7]), .receive .retry,
    .advanceReader 0, .advanceReader 0, .advanceReader 0, .advanceReader 0, .advanceReader 0,
    .advanceReader 0, .advanceReader 0, .advanceReader 0, .advanceReader 0, .advanceReader 0,
    .advanceReader 0, .advanceDispatcher true, .advanceDispatcher true, .advanceDispatcher true,
    .advanceDispatcher true, .advanceDispatcher true, .advanceDispatcher true,
    .receive (.packet [0x80, 120, 0, 2, 0, 0, 0, 0, 0, 0, 0, 7])]

theorem given_complete_givenRun :
    let t := run (.addListener () true false false :: givenRun)
    t.given 1 .rtp = [[0x80, 120, 0, 1, 0, 0, 0, 0, 0, 0, 0, 7]] ∧
      t.datagrams.filter (HasKind .rtp) =
        (run ([] : List (Action Unit))).dispatched .rtp ++ t.given 1 .rtp ++ t.due 1 .rtp ++
          t.onTheWay .rtp ++ t.reader.unsorted.filter (HasKind .rtp) :=
  ⟨by decide, given_complete [] givenRun () true false false .rtp rfl (by simp [givenRun]) rfl⟩

end UDPTransport

end NativeVoice.Transport
