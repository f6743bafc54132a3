import NativeVoice.Connection.Listeners
import NativeVoice.Transport.Demux

/-!
# From the socket to the listeners

The threads of a `UDPTransportInner` (`src/src/python/net.rs`): the reader takes packets off the
socket, sorts them and sends them through a channel to the dispatcher, which calls the listeners.
Listeners come and go, and the transport is closed, between any two steps of the threads. Each
update of an atomic counter and each use of a lock is a step, and so are the two ends of a call of a
listener.

* `UDPTransport` has the shared state, where each thread has got to, and a history: what was taken
  off the socket, the packets that were sorted, those that listeners were looked up for, and the
  calls.
* `step_assigned`: what listeners are looked up for is assigned to those that are there, once.
* `Lifecycle.step`: while the transport is open, the threads that were started go on.
-/

namespace NativeVoice.Transport

open Connection

/-! ## Batches and calls -/

def UDP_PACKET_BUFFER_SIZE : ℕ := 2048
def UDP_RECV_BATCH_SIZE : ℕ := 128

structure UDPDispatchBatch where
  rtpPackets : List Bytes := []
  rtcpPackets : List Bytes := []
  deriving DecidableEq

namespace UDPDispatchBatch

def packets (b : UDPDispatchBatch) : UDPPacketKind → List Bytes
  | .rtp => b.rtpPackets
  | .rtcp => b.rtcpPackets

def push (b : UDPDispatchBatch) (packet : Bytes) : UDPPacketKind → UDPDispatchBatch
  | .rtp => { b with rtpPackets := b.rtpPackets ++ [packet] }
  | .rtcp => { b with rtcpPackets := b.rtcpPackets ++ [packet] }

def packetCount (b : UDPDispatchBatch) : ℕ := b.rtpPackets.length + b.rtcpPackets.length

end UDPDispatchBatch

/-- The flag of the listeners that a kind of packets is for. -/
def UDPPacketKind.listenerFlag : UDPPacketKind → UInt8
  | .rtp => UDP_LISTENER_RTP
  | .rtcp => UDP_LISTENER_RTCP

/-- A call of a listener, with one packet or with a tuple of them. -/
structure ListenerCall (κ : Type) where
  listener : ℕ
  callback : κ
  kind : UDPPacketKind
  packets : List Bytes
  deriving DecidableEq

variable {κ : Type}

/-- Whether a listener gets the packets of a kind. -/
def Wants (kind : UDPPacketKind) (listener : UDPListener κ) : Bool :=
  listener.flags &&& kind.listenerFlag != 0

/-- The calls that the packets of a kind are handed over in. -/
def callsFor (kind : UDPPacketKind) (packets : List Bytes) (listener : UDPListener κ) :
    List (ListenerCall κ) :=
  if listener.batch then [⟨listener.id, listener.callback, kind, packets⟩]
  else packets.map fun packet => ⟨listener.id, listener.callback, kind, [packet]⟩

/-- The calls of `dispatch_udp_packets`, for the listeners that it finds. -/
def dispatchCalls (kind : UDPPacketKind) (packets : List Bytes)
    (listeners : List (UDPListener κ)) : List (ListenerCall κ) :=
  if packets.isEmpty then [] else (listeners.filter (Wants kind)).flatMap (callsFor kind packets)

/-! ## Threads -/

structure UDPTransportStats where
  packetsReceived : ℕ := 0
  rtpPacketsReceived : ℕ := 0
  rtcpPacketsReceived : ℕ := 0
  controlPacketsReceived : ℕ := 0
  invalidPacketsReceived : ℕ := 0
  callbacksCalled : ℕ := 0
  callbackErrors : ℕ := 0
  dispatchBatchesQueued : ℕ := 0
  dispatchPacketsQueued : ℕ := 0
  dispatchBatchesDispatched : ℕ := 0
  dispatchPacketsDispatched : ℕ := 0
  dispatchQueuePending : ℕ := 0
  dispatchQueueMaxPending : ℕ := 0

/-- The counter of the packets of a kind goes up. -/
def UDPTransportStats.countSorted (stats : UDPTransportStats) : UDPPacketKind → UDPTransportStats
  | .rtp => { stats with rtpPacketsReceived := stats.rtpPacketsReceived + 1 }
  | .rtcp => { stats with rtcpPacketsReceived := stats.rtcpPacketsReceived + 1 }

/-- Where the thread of `run_udp_reader` has got to. -/
inductive Reader
  /-- At the head of its loop. -/
  | idle
  /-- Has got some packets, and asks for more. -/
  | receiving (packets : List Bytes)
  /-- At the head of `handle_udp_packets`. -/
  | received (packets : List Bytes)
  /-- At the head of the loop of `handle_udp_packets`. -/
  | handling (packets : List Bytes) (batch : UDPDispatchBatch)
  /-- Has counted a packet as received. -/
  | counted (packet : Bytes) (packets : List Bytes) (batch : UDPDispatchBatch)
  /-- The pings have taken the packet. -/
  | answered (packets : List Bytes) (batch : UDPDispatchBatch)
  /-- The pings have left the packet. -/
  | asked (packet : Bytes) (packets : List Bytes) (batch : UDPDispatchBatch)
  /-- At the head of `queue_udp_dispatch`. -/
  | queueing (batch : UDPDispatchBatch)
  /-- Has a clone of the sender. -/
  | holding (batch : UDPDispatchBatch)
  /-- Has counted the batch as pending, and is to record the number of them. -/
  | raising (batch : UDPDispatchBatch) (pending : ℕ)
  | sending (batch : UDPDispatchBatch)
  | counting (packetCount : ℕ)
  | countingPackets (packetCount : ℕ)
  | stopped

/-- Where the thread of `run_udp_dispatcher` has got to. -/
inductive Dispatcher (κ : Type)
  | waiting
  | received (batch : UDPDispatchBatch)
  /-- Has counted the batch off. -/
  | checking (batch : UDPDispatchBatch)
  /-- At the head of `dispatch_udp_packets`. -/
  | dispatching (kind : UDPPacketKind) (batch : UDPDispatchBatch)
  /-- Has looked the listeners up, and has these calls to make. -/
  | calling (kind : UDPPacketKind) (batch : UDPDispatchBatch) (calls : List (ListenerCall κ))
  /-- A listener runs, and these calls come after it. -/
  | inCall (kind : UDPPacketKind) (batch : UDPDispatchBatch) (calls : List (ListenerCall κ))
  | counting (packetCount : ℕ)
  | countingPackets (packetCount : ℕ)
  | stopped

/-- The packets that the reader has not sorted yet. -/
def Reader.unsorted : Reader → List Bytes
  | .receiving packets | .received packets | .handling packets _ | .answered packets _ => packets
  | .counted packet packets _ | .asked packet packets _ => packet :: packets
  | _ => []

/-- The packet that the reader has counted as received, and not as one of a kind yet. -/
def Reader.unsettled : Reader → ℕ
  | .counted _ _ _ | .answered _ _ | .asked _ _ _ => 1
  | _ => 0

/-- Whether the receiver of the channel is alive. -/
def Dispatcher.isAlive : Dispatcher κ → Bool
  | .stopped => false
  | _ => true

/-- The packets of a batch that the reader has in hand. -/
def Reader.inHand (kind : UDPPacketKind) : Reader → List Bytes
  | .handling _ batch | .counted _ _ batch | .answered _ batch | .asked _ _ batch
  | .queueing batch | .holding batch | .raising batch _ | .sending batch => batch.packets kind
  | _ => []

/-- The packets that the dispatcher has in hand, and looks listeners up for later. -/
def Dispatcher.inHand (kind : UDPPacketKind) : Dispatcher κ → List Bytes
  | .received batch | .checking batch | .dispatching .rtp batch => batch.packets kind
  | .dispatching .rtcp batch | .calling .rtp batch _ | .inCall .rtp batch _ =>
    if kind = .rtcp then batch.packets kind else []
  | _ => []

/-- The reader is in the loop of `handle_udp_packets`. -/
def Reader.isHandling : Reader → Bool
  | .handling _ _ | .counted _ _ _ | .answered _ _ | .asked _ _ _ => true
  | _ => false

/-- The reader has no batch in hand. -/
def Reader.isQuiet : Reader → Bool
  | .handling _ _ | .counted _ _ _ | .answered _ _ | .asked _ _ _
  | .queueing _ | .holding _ | .raising _ _ | .sending _ => false
  | _ => true

/-- The reader has a clone of the sender. -/
def Reader.hasSender : Reader → Bool
  | .holding _ | .raising _ _ | .sending _ | .counting _ | .countingPackets _ => true
  | _ => false

/-- The batch that the reader has counted as pending, and not sent yet. -/
def Reader.pending : Reader → ℕ
  | .raising _ _ | .sending _ => 1
  | _ => 0

/-- The number of pending batches that the reader is to record. -/
def Reader.toRecord : Reader → ℕ
  | .raising _ pending => pending
  | _ => 0

/-- The batch that the dispatcher has got, and not counted off yet. -/
def Dispatcher.pending : Dispatcher κ → ℕ
  | .received _ => 1
  | _ => 0

/-- The number of packets that the reader has sent, and not counted as queued yet. -/
def Reader.uncounted : Reader → ℕ
  | .counting packetCount | .countingPackets packetCount => packetCount
  | _ => 0

/-- The call that has begun, and has not been counted yet. -/
def Dispatcher.inCalls : Dispatcher κ → ℕ
  | .inCall _ _ _ => 1
  | _ => 0

/-- The number of packets of the batch that the dispatcher has not counted as dispatched yet. -/
def Dispatcher.uncounted : Dispatcher κ → ℕ
  | .received batch | .checking batch | .dispatching _ batch | .calling _ batch _
  | .inCall _ batch _ => batch.packetCount
  | .counting packetCount | .countingPackets packetCount => packetCount
  | _ => 0

structure UDPTransport (κ : Type) where
  closed : Bool := false
  readerRunning : Bool := false
  registry : NativeUDPTransport κ := {}
  /-- Whether `dispatch_tx` has a sender. -/
  dispatchTx : Bool := false
  channel : List UDPDispatchBatch := []
  ping : Option PingState := none
  stats : UDPTransportStats := {}
  reader : Reader := .stopped
  dispatcher : Dispatcher κ := .stopped
  /-- What the reader took off the socket. -/
  datagrams : List Bytes := []
  /-- The packets that were sorted as RTP and as RTCP. -/
  sorted : UDPPacketKind → List Bytes := fun _ => []
  /-- The packets that listeners were looked up for. -/
  dispatched : UDPPacketKind → List Bytes := fun _ => []
  /-- The calls that were begun. -/
  called : List (ListenerCall κ) := []
  socketErrors : ℕ := 0

namespace UDPTransport

/-- `start_reader`. Where a thread cannot be started, all is undone. A transport that is closed is
not followed beyond what is on the way then: a reader of it hands nothing over. -/
def startReader (t : UDPTransport κ) (spawned : Bool) : UDPTransport κ :=
  if t.readerRunning || t.closed || !spawned then t
  else { t with
    readerRunning := true, dispatchTx := true, channel := [], reader := .idle,
    dispatcher := .waiting }

/-- An error of the socket. -/
def countError (t : UDPTransport κ) : UDPTransport κ :=
  if t.closed then t
  else { t with
    stats := { t.stats with invalidPacketsReceived := t.stats.invalidPacketsReceived + 1 }
    socketErrors := t.socketErrors + 1 }

/-- A datagram, cut off at the size of the buffer, behind the packets that the reader has. -/
def takeDatagram (t : UDPTransport κ) (packets : List Bytes) (data : Bytes) : UDPTransport κ :=
  let packet := data.take UDP_PACKET_BUFFER_SIZE
  { t with reader := .receiving (packets ++ [packet]), datagrams := t.datagrams ++ [packet] }

/-- A `recv` of the reader. -/
def receive (t : UDPTransport κ) (answer : Recv) : UDPTransport κ :=
  match t.reader with
  | .idle =>
    if !t.readerRunning then { t with reader := .stopped }
    else match answer with
      | .packet data => t.takeDatagram [] data
      | .retry => t
      | .error _ => t.countError
  | .receiving packets =>
    if packets.length < UDP_RECV_BATCH_SIZE then
      match answer with
      | .packet data => t.takeDatagram packets data
      | .retry => { t with reader := .received packets }
      | .error _ => { t.countError with reader := .received packets }
    else { t with reader := .received packets }
  | _ => t

/-- Whether the pings take a packet, and what they make of it. -/
def askPing (ping : Option PingState) (packet : Bytes) (now : ℕ) : Bool × Option PingState :=
  match ping with
  | none => (false, none)
  | some ping => ((ping.handlePacket packet now).1, some (ping.handlePacket packet now).2)

/-- A packet is counted as one of control. -/
def countControl (t : UDPTransport κ) : UDPTransport κ :=
  { t with
    stats := { t.stats with controlPacketsReceived := t.stats.controlPacketsReceived + 1 } }

/-- What the loop of `handle_udp_packets` does with a packet that the pings have left. -/
def sortPacket (t : UDPTransport κ) (packet : Bytes) (packets : List Bytes)
    (batch : UDPDispatchBatch) : UDPTransport κ :=
  let t := { t with reader := .handling packets batch }
  if isNativeControlPacket packet then t.countControl
  else match classifyUdpPacket packet with
    | some kind =>
      { t with
        stats := t.stats.countSorted kind
        reader := .handling packets (batch.push packet kind)
        sorted := Function.update t.sorted kind (t.sorted kind ++ [packet]) }
    | none =>
      { t with
        stats := { t.stats with invalidPacketsReceived := t.stats.invalidPacketsReceived + 1 } }

/-- A step of `handle_udp_packets` or `queue_udp_dispatch`. -/
def advanceReader (t : UDPTransport κ) (now : ℕ) : UDPTransport κ :=
  match t.reader with
  | .received packets =>
    if t.closed || !t.readerRunning then { t with reader := .idle }
    else { t with reader := .handling packets {} }
  | .handling (packet :: packets) batch =>
    { t with
      stats := { t.stats with packetsReceived := t.stats.packetsReceived + 1 }
      reader := .counted packet packets batch }
  | .counted packet packets batch =>
    let (answered, ping) := askPing t.ping packet now
    { t with
      ping, reader := if answered then .answered packets batch else .asked packet packets batch }
  | .answered packets batch => { t.countControl with reader := .handling packets batch }
  | .asked packet packets batch => t.sortPacket packet packets batch
  | .handling [] batch =>
    { t with reader := if batch.packetCount = 0 then .idle else .queueing batch }
  | .queueing batch => { t with reader := if t.dispatchTx then .holding batch else .idle }
  | .holding batch =>
    let pending := t.stats.dispatchQueuePending + 1
    { t with
      stats := { t.stats with dispatchQueuePending := pending }
      reader := .raising batch pending }
  | .raising batch pending =>
    { t with
      stats := { t.stats with
        dispatchQueueMaxPending := max t.stats.dispatchQueueMaxPending pending }
      reader := .sending batch }
  | .sending batch =>
    if t.dispatcher.isAlive then
      { t with channel := t.channel ++ [batch], reader := .counting batch.packetCount }
    else { t with
      stats := { t.stats with dispatchQueuePending := t.stats.dispatchQueuePending - 1 }
      reader := .idle }
  | .counting packetCount =>
    { t with
      stats := { t.stats with dispatchBatchesQueued := t.stats.dispatchBatchesQueued + 1 }
      reader := .countingPackets packetCount }
  | .countingPackets packetCount =>
    { t with
      stats := { t.stats with
        dispatchPacketsQueued := t.stats.dispatchPacketsQueued + packetCount }
      reader := .idle }
  | _ => t

/-- Whether a sender of the channel is left. -/
def hasSender (t : UDPTransport κ) : Bool := t.dispatchTx || t.reader.hasSender

/-- A step of `run_udp_dispatcher`. A call of a listener returns or raises. -/
def advanceDispatcher (t : UDPTransport κ) (returned : Bool) : UDPTransport κ :=
  match t.dispatcher with
  | .waiting =>
    match t.channel with
    | batch :: channel => { t with channel, dispatcher := .received batch }
    | [] => if t.hasSender then t else { t with dispatcher := .stopped }
  | .received batch =>
    { t with
      stats := { t.stats with dispatchQueuePending := t.stats.dispatchQueuePending - 1 }
      dispatcher := .checking batch }
  | .checking batch =>
    { t with dispatcher := if t.closed then .stopped else .dispatching .rtp batch }
  | .dispatching kind batch =>
    { t with
      dispatcher :=
        .calling kind batch (dispatchCalls kind (batch.packets kind) t.registry.listeners)
      dispatched := Function.update t.dispatched kind (t.dispatched kind ++ batch.packets kind) }
  | .calling kind batch (call :: calls) =>
    { t with dispatcher := .inCall kind batch calls, called := t.called ++ [call] }
  | .inCall kind batch calls =>
    { t with
      stats :=
        if returned then { t.stats with callbacksCalled := t.stats.callbacksCalled + 1 }
        else { t.stats with callbackErrors := t.stats.callbackErrors + 1 }
      dispatcher := .calling kind batch calls }
  | .calling .rtp batch [] => { t with dispatcher := .dispatching .rtcp batch }
  | .calling .rtcp batch [] => { t with dispatcher := .counting batch.packetCount }
  | .counting packetCount =>
    { t with
      stats := { t.stats with dispatchBatchesDispatched := t.stats.dispatchBatchesDispatched + 1 }
      dispatcher := .countingPackets packetCount }
  | .countingPackets packetCount =>
    { t with
      stats := { t.stats with
        dispatchPacketsDispatched := t.stats.dispatchPacketsDispatched + packetCount }
      dispatcher := .waiting }
  | .stopped => t

/-- The steps of `close`, which come in this order. -/
inductive Closing
  | mark
  | stopPing
  | stopReader
  | dropSender

def close (t : UDPTransport κ) : Closing → UDPTransport κ
  | .mark => { t with closed := true }
  | .stopPing => if t.closed then { t with ping := none } else t
  | .stopReader => if t.closed then { t with readerRunning := false } else t
  | .dropSender => if t.closed && !t.readerRunning then { t with dispatchTx := false } else t

inductive Action (κ : Type)
  | startReader (spawned : Bool)
  | receive (answer : Recv)
  | advanceReader (now : ℕ)
  | advanceDispatcher (returned : Bool)
  | addListener (callback : κ) (rtp rtcp batch : Bool)
  | removeListener (id : ℕ)
  /-- What the ping thread does, and `start_ping` and `stop_ping`. -/
  | setPing (ping : Option PingState)
  | close (closing : Closing)

def step (t : UDPTransport κ) : Action κ → UDPTransport κ
  | .startReader spawned => t.startReader spawned
  | .receive answer => t.receive answer
  | .advanceReader now => t.advanceReader now
  | .advanceDispatcher returned => t.advanceDispatcher returned
  | .addListener callback rtp rtcp batch =>
    { t with registry := (t.registry.addListener callback rtp rtcp batch).2 }
  | .removeListener id => { t with registry := t.registry.removeListener id }
  | .setPing ping => { t with ping }
  | .close closing => t.close closing

def run (actions : List (Action κ)) : UDPTransport κ := actions.foldl step {}

/-! ## What the threads leave alone -/

/-- The part of the state that the reader does not touch. -/
structure SameDispatch (t t' : UDPTransport κ) : Prop where
  registry : t'.registry = t.registry
  dispatcher : t'.dispatcher = t.dispatcher
  dispatched : t'.dispatched = t.dispatched
  called : t'.called = t.called
  closed : t'.closed = t.closed
  readerRunning : t'.readerRunning = t.readerRunning
  dispatchTx : t'.dispatchTx = t.dispatchTx

theorem receive_frame (t : UDPTransport κ) (answer : Recv) : t.SameDispatch (t.receive answer) := by
  unfold receive countError takeDatagram
  constructor <;> grind

theorem sortPacket_frame (t : UDPTransport κ) (packet : Bytes) (packets : List Bytes)
    (batch : UDPDispatchBatch) : t.SameDispatch (t.sortPacket packet packets batch) := by
  unfold sortPacket countControl
  constructor <;> grind

theorem advanceReader_frame (t : UDPTransport κ) (now : ℕ) :
    t.SameDispatch (t.advanceReader now) := by
  have hsort := sortPacket_frame t
  unfold advanceReader countControl
  constructor <;> grind [SameDispatch]

theorem advanceDispatcher_registry (t : UDPTransport κ) (returned : Bool) :
    (t.advanceDispatcher returned).registry = t.registry := by
  unfold advanceDispatcher
  grind

theorem advanceDispatcher_datagrams (t : UDPTransport κ) (returned : Bool) :
    (t.advanceDispatcher returned).datagrams = t.datagrams := by
  unfold advanceDispatcher
  grind

theorem close_registry (t : UDPTransport κ) (closing : Closing) :
    (t.close closing).registry = t.registry := by
  unfold close
  grind

/-! ## Listeners -/

/-- Ids are given once. -/
structure Numbered (registry : NativeUDPTransport κ) : Prop where
  nodup : (registry.listeners.map UDPListener.id).Nodup
  lt_next : ∀ listener ∈ registry.listeners, listener.id < registry.nextListenerId

theorem Numbered.addListener {registry : NativeUDPTransport κ} (h : Numbered registry)
    (callback : κ) (rtp rtcp batch : Bool) :
    Numbered (registry.addListener callback rtp rtcp batch).2 := by
  constructor
  · simp only [NativeUDPTransport.addListener, List.map_append, List.map_cons, List.map_nil]
    refine List.nodup_append.2 ⟨h.nodup, List.nodup_singleton _, ?_⟩
    intro id hid id' hid' heq
    obtain ⟨listener, hlistener, rfl⟩ := List.mem_map.1 hid
    exact (h.lt_next listener hlistener).ne (heq.trans (List.mem_singleton.1 hid'))
  · intro listener hlistener
    rcases List.mem_append.1 hlistener with hold | hnew
    · exact Nat.lt_succ_of_lt (h.lt_next listener hold)
    · rw [List.mem_singleton.1 hnew]
      exact Nat.lt_succ_self _

theorem Numbered.removeListener {registry : NativeUDPTransport κ} (h : Numbered registry)
    (id : ℕ) : Numbered (registry.removeListener id) where
  nodup := h.nodup.sublist (List.filter_sublist.map _)
  lt_next listener hlistener := h.lt_next listener (List.mem_of_mem_filter hlistener)

/-- The threads leave the registry alone. -/
theorem Numbered.step {t : UDPTransport κ} (h : Numbered t.registry) (action : Action κ) :
    Numbered (t.step action).registry := by
  cases action with
  | startReader spawned =>
    rw [UDPTransport.step, startReader]
    split <;> exact h
  | receive answer => exact (receive_frame t answer).registry ▸ h
  | advanceReader now => exact (advanceReader_frame t now).registry ▸ h
  | advanceDispatcher returned => exact advanceDispatcher_registry t returned ▸ h
  | addListener callback rtp rtcp batch => exact h.addListener callback rtp rtcp batch
  | removeListener id => exact h.removeListener id
  | setPing ping => exact h
  | close closing => exact close_registry t closing ▸ h

/-- The packets that some calls hand to a listener. -/
def packetsTo (id : ℕ) (kind : UDPPacketKind) (calls : List (ListenerCall κ)) : List Bytes :=
  (calls.filter fun call => call.listener = id ∧ call.kind = kind).flatMap ListenerCall.packets

@[simp] theorem packetsTo_nil (id : ℕ) (kind : UDPPacketKind) :
    packetsTo id kind ([] : List (ListenerCall κ)) = [] := rfl

theorem packetsTo_append (id : ℕ) (kind : UDPPacketKind) (calls calls' : List (ListenerCall κ)) :
    packetsTo id kind (calls ++ calls') = packetsTo id kind calls ++ packetsTo id kind calls' := by
  rw [packetsTo, List.filter_append, List.flatMap_append, packetsTo, packetsTo]

variable {id : ℕ} {kind kind' : UDPPacketKind} {packets : List Bytes}
variable {listeners : List (UDPListener κ)} {t : UDPTransport κ}

theorem packetsTo_callsFor (listener : UDPListener κ) :
    packetsTo id kind (callsFor kind' packets listener) =
      if listener.id = id ∧ kind' = kind then packets else [] := by
  unfold callsFor packetsTo
  by_cases hmatch : listener.id = id ∧ kind' = kind
  · rw [if_pos hmatch]
    split
    · simp [hmatch]
    · simp [List.filter_map, hmatch, Function.comp_def, List.flatMap_map]
  · rw [if_neg hmatch]
    split
    · simp [hmatch]
    · simp [List.filter_map, hmatch, Function.comp_def]

/-- Whether a listener with an id is there that gets the packets of a kind. -/
def Listening (id : ℕ) (kind : UDPPacketKind) (listeners : List (UDPListener κ)) : Prop :=
  ∃ listener ∈ listeners, listener.id = id ∧ Wants kind listener

instance (id : ℕ) (kind : UDPPacketKind) (listeners : List (UDPListener κ)) :
    Decidable (Listening id kind listeners) :=
  inferInstanceAs (Decidable (∃ _ ∈ listeners, _))

theorem listening_cons {listener : UDPListener κ} :
    Listening id kind (listener :: listeners) ↔
      listener.id = id ∧ Wants kind listener ∨ Listening id kind listeners := by
  simp [Listening]

theorem Listening.mem_ids (h : Listening id kind listeners) :
    id ∈ listeners.map UDPListener.id := by
  obtain ⟨listener, hmem, rfl, -⟩ := h
  exact List.mem_map_of_mem hmem

/-- **A listener that is there is handed the packets once**, and another one none. -/
theorem packetsTo_dispatchCalls (hnodup : (listeners.map UDPListener.id).Nodup) :
    packetsTo id kind (dispatchCalls kind' packets listeners) =
      if kind' = kind ∧ Listening id kind listeners then packets else [] := by
  unfold dispatchCalls
  cases packets with
  | nil => simp
  | cons packet packets =>
    rw [if_neg (by simp)]
    induction listeners with
    | nil => simp [Listening]
    | cons listener listeners ih =>
      obtain ⟨hfresh, hrest⟩ := List.nodup_cons.1 hnodup
      have ih := ih hrest
      cases hwants : Wants kind' listener with
      | false =>
        rw [List.filter_cons_of_neg (by simp [hwants]), ih]
        refine if_congr (and_congr_right fun hkind => ?_) rfl rfl
        rw [listening_cons, ← hkind, hwants]
        simp
      | true =>
        rw [List.filter_cons_of_pos hwants, List.flatMap_cons, packetsTo_append,
          packetsTo_callsFor, ih]
        by_cases hmatch : listener.id = id ∧ kind' = kind
        · obtain ⟨rfl, rfl⟩ := hmatch
          have hnot : ¬ Listening listener.id kind' listeners := fun h => hfresh h.mem_ids
          rw [if_pos ⟨rfl, rfl⟩, if_neg (fun h => hnot h.2), List.append_nil,
            if_pos ⟨rfl, listening_cons.2 (.inl ⟨rfl, hwants⟩)⟩]
        · rw [if_neg hmatch, List.nil_append]
          refine if_congr (and_congr_right fun hkind => ?_) rfl rfl
          rw [listening_cons, or_iff_right fun h => hmatch ⟨h.1, hkind⟩]

/-- The packets that a listener was given. -/
def given (t : UDPTransport κ) (id : ℕ) (kind : UDPPacketKind) : List Bytes :=
  packetsTo id kind t.called

/-- The packets that the calls that are still to be made hand to a listener. -/
def due (t : UDPTransport κ) (id : ℕ) (kind : UDPPacketKind) : List Bytes :=
  match t.dispatcher with
  | .calling _ _ calls | .inCall _ _ calls => packetsTo id kind calls
  | _ => []

/-- The packets that a listener was given or is to be given. -/
def assigned (t : UDPTransport κ) (id : ℕ) (kind : UDPPacketKind) : List Bytes :=
  t.given id kind ++ t.due id kind

/-- A transport whose threads have not been started. -/
structure Unstarted (t : UDPTransport κ) : Prop where
  dispatcher : t.dispatcher = .stopped
  reader : t.reader = .stopped
  channel : t.channel = []
  datagrams : t.datagrams = []
  sorted : ∀ kind, t.sorted kind = []
  dispatched : ∀ kind, t.dispatched kind = []

/-- The threads run while the transport is open, once they have been started. -/
structure Lifecycle (t : UDPTransport κ) : Prop where
  unstarted : t.readerRunning = false → t.closed = false → t.Unstarted
  started : t.readerRunning = true → t.closed = false →
    t.dispatchTx = true ∧ t.dispatcher.isAlive = true

/-- The packets that a step looks listeners up for. -/
def lookedUp (t : UDPTransport κ) (kind : UDPPacketKind) : Action κ → List Bytes
  | .advanceDispatcher _ =>
    match t.dispatcher with
    | .dispatching kind' batch => if kind' = kind then batch.packets kind else []
    | _ => []
  | _ => []

/-- A step that looks up no listener. -/
theorem assigned_of_eq {t t' : UDPTransport κ} (hcalled : t'.called = t.called)
    (hdispatcher : t'.dispatcher = t.dispatcher) (id : ℕ) (kind : UDPPacketKind) :
    t'.assigned id kind = t.assigned id kind := by
  rw [assigned, assigned, given, given, due, due, hcalled, hdispatcher]

theorem advanceDispatcher_assigned (hnumbered : Numbered t.registry) (returned : Bool) (id : ℕ)
    (kind : UDPPacketKind) :
    (t.advanceDispatcher returned).dispatched kind =
        t.dispatched kind ++ t.lookedUp kind (.advanceDispatcher returned) ∧
      (t.advanceDispatcher returned).assigned id kind = t.assigned id kind ++
        if Listening id kind t.registry.listeners then
          t.lookedUp kind (.advanceDispatcher returned) else [] := by
  cases hdispatcher : t.dispatcher with
  | waiting =>
    cases hchannel : t.channel with
    | nil => cases hsender : t.hasSender <;>
        simp [advanceDispatcher, hdispatcher, hchannel, hsender, lookedUp, assigned, given, due]
    | cons batch channel =>
      simp [advanceDispatcher, hdispatcher, hchannel, lookedUp, assigned, given, due]
  | received batch => simp [advanceDispatcher, hdispatcher, lookedUp, assigned, given, due]
  | checking batch =>
    cases hclosed : t.closed <;>
      simp [advanceDispatcher, hdispatcher, hclosed, lookedUp, assigned, given, due]
  | dispatching kind' batch =>
    have hcalls : packetsTo id kind
        (dispatchCalls kind' (batch.packets kind') t.registry.listeners) =
          if kind' = kind ∧ Listening id kind t.registry.listeners then batch.packets kind'
          else [] := packetsTo_dispatchCalls hnumbered.nodup
    simp only [advanceDispatcher, hdispatcher, lookedUp, assigned, given, due, hcalls]
    by_cases hkind : kind' = kind
    · subst hkind
      simp
    · simp [hkind, Ne.symm hkind]
  | calling kind' batch calls =>
    cases calls with
    | nil => cases kind' <;>
        simp [advanceDispatcher, hdispatcher, lookedUp, assigned, given, due]
    | cons call calls =>
      have hsplit := packetsTo_append id kind [call] calls
      simp only [List.singleton_append] at hsplit
      simp [advanceDispatcher, hdispatcher, lookedUp, assigned, given, due, packetsTo_append,
        hsplit]
  | inCall kind' batch calls =>
    simp [advanceDispatcher, hdispatcher, lookedUp, assigned, given, due]
  | counting packetCount =>
    simp [advanceDispatcher, hdispatcher, lookedUp, assigned, given, due]
  | countingPackets packetCount =>
    simp [advanceDispatcher, hdispatcher, lookedUp, assigned, given, due]
  | stopped => simp [advanceDispatcher, hdispatcher, lookedUp, assigned, given, due]

theorem close_frame (t : UDPTransport κ) (closing : Closing) :
    (t.close closing).dispatcher = t.dispatcher ∧ (t.close closing).dispatched = t.dispatched ∧
      (t.close closing).called = t.called := by
  unfold close
  grind

/-- **What a step assigns**: the packets that listeners are looked up for, to those that are
there. -/
theorem step_assigned (hnumbered : Numbered t.registry) (hlife : t.Lifecycle) (action : Action κ)
    (id : ℕ) (kind : UDPPacketKind) :
    (t.step action).dispatched kind = t.dispatched kind ++ t.lookedUp kind action ∧
      (t.step action).assigned id kind = t.assigned id kind ++
        if Listening id kind t.registry.listeners then t.lookedUp kind action else [] := by
  have hnone {t' : UDPTransport κ} (hdispatched : t'.dispatched = t.dispatched)
      (hassigned : t'.assigned id kind = t.assigned id kind)
      (hlooked : t.lookedUp kind action = []) :
      t'.dispatched kind = t.dispatched kind ++ t.lookedUp kind action ∧
        t'.assigned id kind = t.assigned id kind ++
          if Listening id kind t.registry.listeners then t.lookedUp kind action else [] := by
    rw [hdispatched, hassigned, hlooked, ite_self]
    exact ⟨(List.append_nil _).symm, (List.append_nil _).symm⟩
  cases action with
  | startReader spawned =>
    rw [UDPTransport.step, startReader]
    split
    · exact hnone rfl rfl rfl
    · rename_i hstart
      simp only [Bool.or_eq_true, not_or, Bool.not_eq_true] at hstart
      have hunstarted := hlife.unstarted hstart.1.1 hstart.1.2
      refine hnone rfl ?_ rfl
      simp only [assigned, given, due, hunstarted.dispatcher]
  | receive answer =>
    have hframe := receive_frame t answer
    exact hnone hframe.dispatched (assigned_of_eq hframe.called hframe.dispatcher id kind) rfl
  | advanceReader now =>
    have hframe := advanceReader_frame t now
    exact hnone hframe.dispatched (assigned_of_eq hframe.called hframe.dispatcher id kind) rfl
  | advanceDispatcher returned => exact advanceDispatcher_assigned hnumbered returned id kind
  | addListener callback rtp rtcp batch => exact hnone rfl rfl rfl
  | removeListener id => exact hnone rfl rfl rfl
  | setPing ping => exact hnone rfl rfl rfl
  | close closing =>
    obtain ⟨hdispatcher, hdispatched, hcalled⟩ := close_frame t closing
    exact hnone hdispatched (assigned_of_eq hcalled hdispatcher id kind) rfl

/-! ## The life of the threads -/

theorem Lifecycle.new : ({} : UDPTransport κ).Lifecycle where
  unstarted _ _ := ⟨rfl, rfl, rfl, rfl, fun _ => rfl, fun _ => rfl⟩
  started h _ := absurd h (by simp)

theorem receive_of_stopped (h : t.reader = .stopped) (answer : Recv) : t.receive answer = t := by
  unfold receive
  rw [h]

theorem advanceReader_of_stopped (h : t.reader = .stopped) (now : ℕ) :
    t.advanceReader now = t := by
  rw [advanceReader, h]

theorem advanceDispatcher_of_stopped (h : t.dispatcher = .stopped) (returned : Bool) :
    t.advanceDispatcher returned = t := by
  rw [advanceDispatcher, h]

/-- The flags that a step of the dispatcher leaves alone, and that it ends for a reason. -/
theorem advanceDispatcher_frame (t : UDPTransport κ) (returned : Bool) :
    (t.advanceDispatcher returned).closed = t.closed ∧
      (t.advanceDispatcher returned).readerRunning = t.readerRunning ∧
      (t.advanceDispatcher returned).dispatchTx = t.dispatchTx ∧
      (t.advanceDispatcher returned).reader = t.reader ∧
      (t.advanceDispatcher returned).sorted = t.sorted ∧
      (t.closed = false → t.dispatchTx = true → t.dispatcher.isAlive = true →
        (t.advanceDispatcher returned).dispatcher.isAlive = true) := by
  unfold advanceDispatcher hasSender Dispatcher.isAlive
  grind

theorem Lifecycle.step (h : t.Lifecycle) (action : Action κ) : (t.step action).Lifecycle := by
  cases action with
  | startReader spawned =>
    rw [UDPTransport.step, startReader]
    split
    · exact h
    · exact ⟨fun hrunning _ => absurd hrunning (by simp), fun _ _ => ⟨rfl, rfl⟩⟩
  | receive answer =>
    have hframe := receive_frame t answer
    constructor
    · intro hrunning hclosed
      have hunstarted := h.unstarted (hframe.readerRunning ▸ hrunning) (hframe.closed ▸ hclosed)
      rw [UDPTransport.step, receive_of_stopped hunstarted.reader]
      exact hunstarted
    · intro hrunning hclosed
      rw [UDPTransport.step, hframe.dispatchTx, hframe.dispatcher]
      exact h.started (hframe.readerRunning ▸ hrunning) (hframe.closed ▸ hclosed)
  | advanceReader now =>
    have hframe := advanceReader_frame t now
    constructor
    · intro hrunning hclosed
      have hunstarted := h.unstarted (hframe.readerRunning ▸ hrunning) (hframe.closed ▸ hclosed)
      rw [UDPTransport.step, advanceReader_of_stopped hunstarted.reader]
      exact hunstarted
    · intro hrunning hclosed
      rw [UDPTransport.step, hframe.dispatchTx, hframe.dispatcher]
      exact h.started (hframe.readerRunning ▸ hrunning) (hframe.closed ▸ hclosed)
  | advanceDispatcher returned =>
    obtain ⟨hclosed', hrunning', htx, -, -, halive⟩ := advanceDispatcher_frame t returned
    constructor
    · intro hrunning hclosed
      have hunstarted := h.unstarted (hrunning' ▸ hrunning) (hclosed' ▸ hclosed)
      rw [UDPTransport.step, advanceDispatcher_of_stopped hunstarted.dispatcher]
      exact hunstarted
    · intro hrunning hclosed
      have hclosed : t.closed = false := hclosed' ▸ hclosed
      obtain ⟨htx', halive'⟩ := h.started (hrunning' ▸ hrunning) hclosed
      exact ⟨htx.trans htx', halive hclosed htx' halive'⟩
  | addListener callback rtp rtcp batch =>
    exact ⟨fun hr hc => { h.unstarted hr hc with }, h.started⟩
  | removeListener id => exact ⟨fun hr hc => { h.unstarted hr hc with }, h.started⟩
  | setPing ping => exact ⟨fun hr hc => { h.unstarted hr hc with }, h.started⟩
  | close closing =>
    cases closing with
    | mark => exact ⟨fun _ hc => absurd hc (by simp [UDPTransport.step, close]),
        fun _ hc => absurd hc (by simp [UDPTransport.step, close])⟩
    | stopPing =>
      rw [UDPTransport.step, close]
      split
      · exact ⟨fun hr hc => { h.unstarted hr hc with }, h.started⟩
      · exact h
    | stopReader =>
      rw [UDPTransport.step, close]
      split
      · rename_i hclosed
        exact ⟨fun _ hc => absurd (hclosed.symm.trans hc) (by simp),
          fun hr _ => absurd hr (by simp)⟩
      · exact h
    | dropSender =>
      rw [UDPTransport.step, close]
      split
      · rename_i hclosed
        have hclosed := (Bool.and_eq_true_iff.1 hclosed).1
        exact ⟨fun _ hc => absurd (hclosed.symm.trans hc) (by simp),
          fun _ hc => absurd (hclosed.symm.trans hc) (by simp)⟩
      · exact h

end UDPTransport

end NativeVoice.Transport
