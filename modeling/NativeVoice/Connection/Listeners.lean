import Mathlib.Data.List.Induction
import Mathlib.Data.List.Nodup
import Mathlib.Logic.Function.Basic
import NativeVoice.Lib.Transducer

/-!
# Socket listeners

The callbacks that `_ConnectionState` of `src/discord/ext/native_voice/client.py` registers on its
`NativeUDPTransport` (`src/src/python/net.rs`). The ids that it records count the registrations of
one transport, and it goes on with them when the socket is recreated.

* `listener_registry_iff`: the recorded callbacks are the registered ones in all states of a run if
  and only if no socket is made while a callback is recorded.
-/

namespace NativeVoice.Connection

open Lib.Transducer

variable {κ : Type} [DecidableEq κ]

/-! ## The transport -/

def UDP_LISTENER_RTP : UInt8 := 1
def UDP_LISTENER_RTCP : UInt8 := 2

structure UDPListener (κ : Type) where
  id : ℕ
  flags : UInt8
  batch : Bool
  callback : κ
  deriving DecidableEq

/-- The fields of a transport that its listeners are kept in. -/
structure NativeUDPTransport (κ : Type) where
  nextListenerId : ℕ := 1
  listeners : List (UDPListener κ) := []
  deriving DecidableEq

namespace NativeUDPTransport

def addListener (t : NativeUDPTransport κ) (callback : κ) (rtp rtcp batch : Bool) :
    ℕ × NativeUDPTransport κ :=
  let flags := (if rtp then UDP_LISTENER_RTP else 0) ||| if rtcp then UDP_LISTENER_RTCP else 0
  (t.nextListenerId, {
    nextListenerId := t.nextListenerId + 1
    listeners := t.listeners ++ [{ id := t.nextListenerId, flags, batch, callback }] })

def removeListener (t : NativeUDPTransport κ) (id : ℕ) : NativeUDPTransport κ :=
  { t with listeners := t.listeners.filter fun listener => listener.id ≠ id }

end NativeUDPTransport

/-! ## The connection -/

/-- The socket, if there is one yet, and the recorded ids. -/
structure ConnectionState (κ : Type) where
  socket : Option (NativeUDPTransport κ) := none
  udpListenerIds : κ → Option ℕ := fun _ => none

namespace ConnectionState

/-- Registering a callback; without a socket this raises. -/
def addListener (s : ConnectionState κ) (callback : κ) (rtp rtcp batch : Bool) :
    ConnectionState κ :=
  match s.socket with
  | none => s
  | some socket =>
    let (id, socket) := socket.addListener callback rtp rtcp batch
    { socket := some socket
      udpListenerIds := Function.update s.udpListenerIds callback (some id) }

def addRtpListener (s : ConnectionState κ) (callback : κ) (batch : Bool) : ConnectionState κ :=
  s.addListener callback true false batch

def addRtcpListener (s : ConnectionState κ) (callback : κ) : ConnectionState κ :=
  s.addListener callback false true false

def addSocketListener (s : ConnectionState κ) (callback : κ) : ConnectionState κ :=
  s.addListener callback true true false

def removeSocketListener (s : ConnectionState κ) (callback : κ) : ConnectionState κ :=
  match s.udpListenerIds callback with
  | none => s
  | some listenerId =>
    { socket := s.socket.map fun socket => socket.removeListener listenerId
      udpListenerIds := Function.update s.udpListenerIds callback none }

/-- `_recreate_socket`, where making a socket may fail; the old one is closed then. -/
def recreateSocket (s : ConnectionState κ) (bound : Bool) : ConnectionState κ :=
  if bound then { s with socket := some {} } else s

/-- The listeners of the current socket. -/
def listeners (s : ConnectionState κ) : List (UDPListener κ) :=
  (s.socket.map NativeUDPTransport.listeners).getD []

end ConnectionState

inductive Op (κ : Type)
  | addRtpListener (callback : κ) (batch : Bool)
  | addRtcpListener (callback : κ)
  | addSocketListener (callback : κ)
  | removeSocketListener (callback : κ)
  | recreateSocket (bound : Bool)

namespace Op

/-- The callback that is registered. -/
def added : Op κ → Option κ
  | addRtpListener callback _ => some callback
  | addRtcpListener callback => some callback
  | addSocketListener callback => some callback
  | removeSocketListener _ => none
  | recreateSocket _ => none

end Op

namespace ConnectionState

def step (s : ConnectionState κ) : Op κ → ConnectionState κ
  | .addRtpListener callback batch => s.addRtpListener callback batch
  | .addRtcpListener callback => s.addRtcpListener callback
  | .addSocketListener callback => s.addSocketListener callback
  | .removeSocketListener callback => s.removeSocketListener callback
  | .recreateSocket bound => s.recreateSocket bound

def run (ops : List (Op κ)) : ConnectionState κ := ops.foldl step {}

/-- Every callback that is registered in a run is not recorded then. -/
def Fresh (ops : List (Op κ)) : Prop :=
  ∀ pre op post, ops = pre ++ op :: post → ∀ callback ∈ op.added,
    (run pre).udpListenerIds callback = none

theorem run_concat (ops : List (Op κ)) (op : Op κ) : run (ops ++ [op]) = (run ops).step op :=
  List.foldl_concat ..

theorem Fresh.nil : Fresh ([] : List (Op κ)) := forall_split_nil

theorem Fresh.concat {ops : List (Op κ)} {op : Op κ} (h : Fresh ops)
    (hop : ∀ callback ∈ op.added, (run ops).udpListenerIds callback = none) :
    Fresh (ops ++ [op]) :=
  forall_split_concat h hop

theorem Fresh.left {pre post : List (Op κ)} (h : Fresh (pre ++ post)) : Fresh pre :=
  forall_split_left h

/-! ## The registry -/

/-- Every recorded callback is registered exactly once, under the recorded id. -/
def Registered (s : ConnectionState κ) : Prop :=
  ∀ callback id, s.udpListenerIds callback = some id →
    (s.listeners.filter fun listener => listener.callback = callback).map UDPListener.id = [id]

/-- Removing a callback unregisters it and no other one. -/
def RemovesOnly (s : ConnectionState κ) (callback : κ) : Prop :=
  (s.removeSocketListener callback).listeners =
    s.listeners.filter fun listener => listener.callback ≠ callback

/-- The two tables agree, as long as no socket is made while a callback is recorded: the listeners
are the recorded callbacks under their ids, and ids are given once. -/
structure Agrees (s : ConnectionState κ) : Prop where
  recorded : ∀ callback id, s.udpListenerIds callback = some id ↔
    ∃ listener ∈ s.listeners, listener.callback = callback ∧ listener.id = id
  nodup : (s.listeners.map UDPListener.id).Nodup
  lt_next : ∀ socket ∈ s.socket, ∀ listener ∈ socket.listeners,
    listener.id < socket.nextListenerId

variable {s : ConnectionState κ}

theorem addListener_of_none (h : s.socket = none) (callback : κ) (rtp rtcp batch : Bool) :
    s.addListener callback rtp rtcp batch = s := by
  simp [addListener, h]

theorem addListener_of_some {socket : NativeUDPTransport κ} (h : s.socket = some socket)
    (callback : κ) (rtp rtcp batch : Bool) : ∃ flags, s.addListener callback rtp rtcp batch = {
      socket := some {
        nextListenerId := socket.nextListenerId + 1
        listeners := socket.listeners ++ [⟨socket.nextListenerId, flags, batch, callback⟩] }
      udpListenerIds :=
        Function.update s.udpListenerIds callback (some socket.nextListenerId) } :=
  ⟨_, by simp only [addListener, h, NativeUDPTransport.addListener]; rfl⟩

theorem removeSocketListener_of_none {callback : κ} (h : s.udpListenerIds callback = none) :
    s.removeSocketListener callback = s := by
  simp [removeSocketListener, h]

theorem udpListenerIds_removeSocketListener {callback : κ} {id : ℕ}
    (h : s.udpListenerIds callback = some id) : (s.removeSocketListener callback).udpListenerIds =
      Function.update s.udpListenerIds callback none := by
  simp only [removeSocketListener, h]

theorem socket_removeSocketListener {callback : κ} {id : ℕ}
    (h : s.udpListenerIds callback = some id) : (s.removeSocketListener callback).socket =
      s.socket.map fun socket => socket.removeListener id := by
  simp only [removeSocketListener, h]

theorem listeners_removeSocketListener {callback : κ} {id : ℕ}
    (h : s.udpListenerIds callback = some id) : (s.removeSocketListener callback).listeners =
      s.listeners.filter fun listener => listener.id ≠ id := by
  simp only [removeSocketListener, h, listeners]
  cases s.socket <;> rfl

namespace Agrees

omit [DecidableEq κ] in
theorem init : Agrees ({} : ConnectionState κ) where
  recorded := by simp [listeners]
  nodup := List.nodup_nil
  lt_next := by simp

omit [DecidableEq κ] in
theorem exists_of_recorded (h : Agrees s) {callback : κ} {id : ℕ}
    (hid : s.udpListenerIds callback = some id) :
    ∃ listener ∈ s.listeners, listener.callback = callback ∧ listener.id = id :=
  (h.recorded callback id).1 hid

omit [DecidableEq κ] in
theorem recorded_of_mem (h : Agrees s) {listener : UDPListener κ} (hl : listener ∈ s.listeners) :
    s.udpListenerIds listener.callback = some listener.id :=
  (h.recorded listener.callback listener.id).2 ⟨listener, hl, rfl, rfl⟩

omit [DecidableEq κ] in
/-- A listener of a recorded callback has the recorded id, and no other listener has. -/
theorem callback_eq_iff (h : Agrees s) {callback : κ} {id : ℕ}
    (hid : s.udpListenerIds callback = some id) {listener : UDPListener κ}
    (hl : listener ∈ s.listeners) : listener.callback = callback ↔ listener.id = id := by
  constructor
  · rintro rfl
    exact Option.some.inj ((h.recorded_of_mem hl).symm.trans hid)
  · intro heq
    obtain ⟨listener', hl', hcallback, hid'⟩ := h.exists_of_recorded hid
    have hsame : listener = listener' :=
      List.inj_on_of_nodup_map h.nodup hl hl' (heq.trans hid'.symm)
    rw [hsame, hcallback]

theorem registered (h : Agrees s) : Registered s := by
  intro callback id hid
  have hnodup : ((s.listeners.filter fun listener => listener.callback = callback).map
      UDPListener.id).Nodup :=
    h.nodup.sublist (List.filter_sublist.map _)
  refine List.perm_singleton.1
    ((List.perm_ext_iff_of_nodup hnodup (List.nodup_singleton id)).2 fun other => ?_)
  simp only [List.mem_map, List.mem_filter, decide_eq_true_eq, List.mem_singleton]
  constructor
  · rintro ⟨listener, ⟨hl, hcallback⟩, rfl⟩
    exact (h.callback_eq_iff hid hl).1 hcallback
  · rintro rfl
    obtain ⟨listener, hl, hcallback, hid'⟩ := h.exists_of_recorded hid
    exact ⟨listener, ⟨hl, hcallback⟩, hid'⟩

theorem removesOnly (h : Agrees s) (callback : κ) : RemovesOnly s callback := by
  unfold RemovesOnly
  cases hid : s.udpListenerIds callback with
  | none =>
    rw [removeSocketListener_of_none hid]
    refine (List.filter_eq_self.2 fun listener hl => ?_).symm
    have hne : listener.callback ≠ callback := by
      rintro rfl
      exact absurd (hid.symm.trans (h.recorded_of_mem hl)) (by simp)
    simpa using hne
  | some id =>
    rw [listeners_removeSocketListener hid]
    refine List.filter_congr fun listener hl => ?_
    simp [h.callback_eq_iff hid hl]

/-! ### Steps -/

theorem addListener (h : Agrees s) {callback : κ} (hfresh : s.udpListenerIds callback = none)
    (rtp rtcp batch : Bool) : Agrees (s.addListener callback rtp rtcp batch) := by
  cases hsocket : s.socket with
  | none => rwa [addListener_of_none hsocket]
  | some socket =>
    have hlisteners : s.listeners = socket.listeners := by simp [listeners, hsocket]
    have hlt : ∀ listener ∈ s.listeners, listener.id < socket.nextListenerId :=
      hlisteners ▸ h.lt_next socket hsocket
    obtain ⟨flags, hadd⟩ := addListener_of_some hsocket callback rtp rtcp batch
    rw [hadd]
    refine ⟨fun other id => ?_, ?_, ?_⟩
    · simp only [listeners, Option.map_some, Option.getD_some, List.mem_append,
        List.mem_singleton, or_and_right, exists_or, exists_eq_left]
      rw [← hlisteners]
      rcases eq_or_ne other callback with rfl | hne
      · have hnone :
            ¬∃ listener ∈ s.listeners, listener.callback = other ∧ listener.id = id := by
          rw [← h.recorded, hfresh]
          exact Option.some_ne_none id ∘ Eq.symm
        simp [hnone]
      · rw [Function.update_of_ne hne, h.recorded]
        simp [hne.symm]
    · simp only [listeners, Option.map_some, Option.getD_some, List.map_append, List.map_cons,
        List.map_nil]
      rw [← hlisteners, ← List.concat_eq_append]
      refine h.nodup.concat fun hmem => ?_
      obtain ⟨listener, hl, hid⟩ := List.mem_map.1 hmem
      exact absurd (hlt listener hl) (by omega)
    · rintro _ ⟨⟩ listener hl
      rw [← hlisteners] at hl
      rcases List.mem_append.1 hl with hl | hl
      · exact Nat.lt_succ_of_lt (hlt listener hl)
      · rw [List.mem_singleton.1 hl]
        exact Nat.lt_succ_self _

theorem removeSocketListener (h : Agrees s) (callback : κ) :
    Agrees (s.removeSocketListener callback) := by
  cases hid : s.udpListenerIds callback with
  | none => rwa [removeSocketListener_of_none hid]
  | some id =>
    have hlisteners := listeners_removeSocketListener hid
    refine ⟨fun other otherId => ?_, ?_, ?_⟩
    · rw [hlisteners, udpListenerIds_removeSocketListener hid]
      simp only [List.mem_filter, decide_eq_true_eq]
      rcases eq_or_ne other callback with rfl | hne
      · simp only [Function.update_self, reduceCtorEq, false_iff]
        rintro ⟨listener, ⟨hl, hremoved⟩, hcallback, -⟩
        exact hremoved ((h.callback_eq_iff hid hl).1 hcallback)
      · rw [Function.update_of_ne hne, h.recorded]
        refine exists_congr fun listener => ⟨?_, ?_⟩
        · rintro ⟨hl, rfl, rfl⟩
          exact ⟨⟨hl, fun heq => hne ((h.callback_eq_iff hid hl).2 heq)⟩, rfl, rfl⟩
        · rintro ⟨⟨hl, -⟩, hcallback, hid'⟩
          exact ⟨hl, hcallback, hid'⟩
    · rw [hlisteners]
      exact h.nodup.sublist (List.filter_sublist.map _)
    · intro socket hsocket listener hl
      rw [socket_removeSocketListener hid] at hsocket
      obtain ⟨old, hold, rfl⟩ := Option.map_eq_some_iff.1 hsocket
      exact h.lt_next old hold listener (List.mem_filter.1 hl).1

omit [DecidableEq κ] in
/-- A socket made while nothing is recorded has no listeners, as the records say. -/
theorem recreateSocket (h : Agrees s) {bound : Bool}
    (hnone : bound = true → ∀ callback, s.udpListenerIds callback = none) :
    Agrees (s.recreateSocket bound) := by
  cases bound with
  | false => exact h
  | true =>
    exact {
      recorded := by simp [ConnectionState.recreateSocket, listeners, hnone rfl]
      nodup := List.nodup_nil
      lt_next := by simp [ConnectionState.recreateSocket] }

/-- A step keeps the tables in agreement if it registers no recorded callback and makes no socket
while a callback is recorded. -/
theorem step (h : Agrees s) (op : Op κ)
    (hfresh : ∀ callback ∈ op.added, s.udpListenerIds callback = none)
    (hnone : op = .recreateSocket true → ∀ callback, s.udpListenerIds callback = none) :
    Agrees (s.step op) := by
  cases op with
  | addRtpListener callback batch => exact h.addListener (hfresh callback rfl) true false batch
  | addRtcpListener callback => exact h.addListener (hfresh callback rfl) false true false
  | addSocketListener callback => exact h.addListener (hfresh callback rfl) true true false
  | removeSocketListener callback => exact h.removeSocketListener callback
  | recreateSocket bound => exact h.recreateSocket fun hbound => hnone (hbound ▸ rfl)

theorem run {ops : List (Op κ)} (hfresh : Fresh ops)
    (hnone : ∀ pre post, ops = pre ++ .recreateSocket true :: post → ∀ callback,
      (ConnectionState.run pre).udpListenerIds callback = none) :
    Agrees (ConnectionState.run ops) := by
  induction ops using List.reverseRecOn with
  | nil => exact init
  | append_singleton ops op ih =>
    rw [run_concat]
    refine (ih (hfresh.left) fun pre post hops => ?_).step op ?_ ?_
    · exact hnone pre (post ++ [op]) (by rw [hops]; simp)
    · exact hfresh ops op [] rfl
    · rintro rfl
      exact hnone ops [] rfl

end Agrees

/-! ## Runs -/

/-- **Listener registry.** In a run that registers no recorded callback, every state has the
recorded callbacks registered exactly once under their ids, and removes one callback at a time, if
and only if no socket is made while a callback is recorded. -/
theorem listener_registry_iff (ops : List (Op κ)) (hfresh : Fresh ops) :
    (∀ pre post, ops = pre ++ post →
      Registered (run pre) ∧ ∀ callback, RemovesOnly (run pre) callback) ↔
    ∀ pre post, ops = pre ++ .recreateSocket true :: post → ∀ callback,
      (run pre).udpListenerIds callback = none := by
  constructor
  · intro h pre post hops callback
    by_contra hid
    obtain ⟨id, hid⟩ := Option.ne_none_iff_exists'.1 hid
    have hregistered := (h (pre ++ [.recreateSocket true]) post (by rw [hops]; simp)).1
    rw [run_concat] at hregistered
    exact absurd (hregistered callback id hid) (List.cons_ne_nil _ _ ∘ Eq.symm)
  · rintro h pre post rfl
    have hagrees : Agrees (run pre) :=
      .run hfresh.left fun pre' post' hpre => h pre' (post' ++ post) (by rw [hpre]; simp)
    exact ⟨hagrees.registered, hagrees.removesOnly⟩

/-- A callback is registered and removed, and another one is registered on a new socket. -/
theorem listener_registry_iff_removed :
    let ops : List (Op ℕ) := [.recreateSocket true, .addRtpListener 1 true,
      .removeSocketListener 1, .recreateSocket true, .addRtcpListener 2]
    ∀ pre post, ops = pre ++ post →
      Registered (run pre) ∧ ∀ callback, RemovesOnly (run pre) callback := by
  intro ops
  have hfresh : Fresh ops :=
    .concat (.concat (.concat (.concat (.concat .nil (by decide)) (by decide)) (by decide))
      (by decide)) (by decide)
  refine (listener_registry_iff ops hfresh).2 fun pre post hops callback => ?_
  have hpre : pre = [] ∨ pre = ops.take 3 := by
    rcases pre with _ | ⟨a, _ | ⟨b, _ | ⟨c, _ | ⟨d, _ | ⟨e, pre⟩⟩⟩⟩⟩ <;> simp_all [ops]
  rcases hpre with rfl | rfl
  · rfl
  · have hids : (run (ops.take 3)).udpListenerIds =
        Function.update (Function.update (fun _ => none) 1 (some 1)) 1 none := rfl
    rw [hids, Function.update_idem]
    rcases eq_or_ne callback 1 with rfl | hne
    · rw [Function.update_self]
    · rw [Function.update_of_ne hne]

/-- The ids of the new transport start again, so that the callback of the old one keeps an id that
is the other callback's now. -/
theorem stale_listener :
    let ops : List (Op ℕ) := [.recreateSocket true, .addRtpListener 1 true, .recreateSocket true,
      .addRtcpListener 2]
    Fresh ops ∧ ¬Registered (run (ops.take 3)) ∧ ¬Registered (run ops) ∧
      ((run ops).removeSocketListener 1).listeners = [] ∧ ¬RemovesOnly (run ops) 1 := by
  refine ⟨.concat (.concat (.concat (.concat .nil (by decide)) (by decide)) (by decide))
    (by decide), ?_, ?_, by decide, ?_⟩
  · exact fun h => absurd (h 1 1 rfl) (by decide)
  · exact fun h => absurd (h 1 1 rfl) (by decide)
  · unfold RemovesOnly
    decide

end ConnectionState

end NativeVoice.Connection
