import Mathlib.Data.List.Induction
import Mathlib.Data.List.Nodup
import Mathlib.Logic.Function.Basic
import NativeVoice.Lib.Transducer
import NativeVoice.Transport.RoundTrip

/-!
# Nonces of the threads of a client

The threads of a client share the `TransportCrypto` that `_get_crypto` of
`src/discord/ext/native_voice/client.py` builds and keeps. Every new one counts its nonces from the
same value.

* `nonces_nodup`: no two encryptions of a run use one nonce under one key, if a `TransportCrypto` is
  only built while no other one of its mode and key is in use.
* `nonce_reused`: two threads that find none both build one, and reuse a nonce.
-/

namespace NativeVoice.Transport

open Lib.Transducer

/-! ## The threads -/

/-- What `_crypto_state` holds, `(mode, secret_key)`. -/
abbrev CryptoState := TransportEncryptionMode × Bytes

/-- The statement of `_get_crypto` that a thread executes next, with the value of its local
variable, or the `TransportCrypto` that it was given. -/
inductive Pc
  | start
  | test (state : CryptoState)
  | construct (state : CryptoState)
  | assignState (state : CryptoState)
  | ret
  | holding (crypto : ℕ)
  deriving DecidableEq

/-- An encryption that took place: the object, and the key and nonce that its cipher was given. -/
structure Encryption where
  crypto : ℕ
  key : Bytes
  nonce : Bytes
  deriving DecidableEq

/-- The client: the attributes that `_get_crypto` reads and writes, where an object is named by its
place in the list of all that were built. -/
structure Client (τ : Type) where
  mode : TransportEncryptionMode
  secretKey : Bytes
  crypto : Option ℕ := none
  cryptoState : Option CryptoState := none
  objects : List TransportCrypto := []
  pc : τ → Pc := fun _ => .start
  encryptions : List Encryption := []

/-- A step of a thread, or a change of the session. A thread in `holding` may encrypt any number of
packets before it goes on. -/
inductive Act (τ : Type)
  | statement (thread : τ)
  | encrypt (thread : τ) (header payload : Bytes)
  | setMode (mode : TransportEncryptionMode)
  | setSecretKey (key : Bytes)

namespace Client

variable {τ : Type} [DecidableEq τ] (aead : Aead)

def goto (s : Client τ) (t : τ) (pc : Pc) : Client τ := { s with pc := Function.update s.pc t pc }

/-- `_get_crypto`, one statement. -/
def getCrypto (s : Client τ) (t : τ) : Client τ :=
  match s.pc t with
  | .start => s.goto t (.test (s.mode, s.secretKey))
  | .test state =>
    if s.crypto = none ∨ s.cryptoState ≠ some state then s.goto t (.construct state)
    else s.goto t .ret
  | .construct state =>
    match TransportCrypto.new state.1 state.2 with
    | .error _ => s.goto t .start
    | .ok crypto =>
      { s.goto t (.assignState state) with
        crypto := some s.objects.length
        objects := s.objects ++ [crypto] }
  | .assignState state => { s.goto t .ret with cryptoState := some state }
  | .ret =>
    match s.crypto with
    | none => s.goto t .start
    | some i => s.goto t (.holding i)
  | .holding _ => s.goto t .start

/-- `encrypt_rtp` on the object that a thread was given, under its lock. -/
def encrypt (s : Client τ) (t : τ) (header payload : Bytes) : Client τ :=
  match s.pc t with
  | .holding i =>
    match s.objects[i]? with
    | none => s
    | some c =>
      { s with
        objects := s.objects.set i (c.encryptRtp aead header payload).2
        encryptions := s.encryptions ++ [⟨i, c.key, makeNonce c.mode c.nonce⟩] }
  | _ => s

def step (s : Client τ) : Act τ → Client τ
  | .statement t => s.getCrypto t
  | .encrypt t header payload => s.encrypt aead t header payload
  | .setMode mode => { s with mode := mode }
  | .setSecretKey key => { s with secretKey := key }

/-- A run of a client that starts with no `TransportCrypto`. -/
def run (mode : TransportEncryptionMode) (key : Bytes) (acts : List (Act τ)) : Client τ :=
  acts.foldl (step aead) { mode := mode, secretKey := key }

/-- The nonces that were used, with their keys. -/
def nonces (s : Client τ) : List (Bytes × Bytes) := s.encryptions.map fun e => (e.key, e.nonce)

/-- The encryptions of an object. -/
def count (s : Client τ) (i : ℕ) : ℕ := s.encryptions.countP fun e => e.crypto = i

def encryptionsUnder (s : Client τ) (key : Bytes) : ℕ := s.encryptions.countP fun e => e.key = key

/-- An object has encrypted, or a thread was given it. -/
def InUse (s : Client τ) (i : ℕ) : Prop :=
  (∃ e ∈ s.encryptions, e.crypto = i) ∨ ∃ t, s.pc t = .holding i

/-- An object is in use, or is given to the next thread that asks for it. -/
def Live (s : Client τ) (i : ℕ) : Prop := s.InUse i ∨ s.crypto = some i

/-- If a step builds a `TransportCrypto`, then none of its mode and key is in use. -/
def BuildsUnused (s : Client τ) (act : Act τ) : Prop :=
  ∀ t state, act = .statement t → s.pc t = .construct state →
    ∀ i c, s.objects[i]? = some c → s.InUse i → (c.mode, c.key) ≠ state

/-! ## Encryptions -/

/-- The state after an encryption with the object `c` at place `i`. -/
def encrypted (s : Client τ) (i : ℕ) (c : TransportCrypto) : Client τ :=
  { s with
    objects := s.objects.set i { c with nonce := c.nonce + 1 }
    encryptions := s.encryptions ++ [⟨i, c.key, makeNonce c.mode c.nonce⟩] }

section encrypted

variable {s : Client τ} {i : ℕ} {c : TransportCrypto}

omit [DecidableEq τ] in
theorem encrypt_cases (s : Client τ) (aead : Aead) (t : τ) (header payload : Bytes) :
    s.encrypt aead t header payload = s ∨
    ∃ i c, s.pc t = .holding i ∧ s.objects[i]? = some c ∧
      s.encrypt aead t header payload = s.encrypted i c := by
  unfold encrypt
  split
  · rename_i i hpc
    split
    · exact .inl rfl
    · rename_i c hc
      exact .inr ⟨i, c, hpc, hc, rfl⟩
  · exact .inl rfl

omit [DecidableEq τ] in
theorem count_encrypted (j : ℕ) :
    (s.encrypted i c).count j = s.count j + if i = j then 1 else 0 := by
  simp [count, encrypted, List.countP_append, List.countP_singleton]

omit [DecidableEq τ] in
theorem nonces_encrypted :
    (s.encrypted i c).nonces = s.nonces ++ [(c.key, makeNonce c.mode c.nonce)] := by
  simp [nonces, encrypted]

omit [DecidableEq τ] in
theorem encryptionsUnder_le_encrypted (key : Bytes) :
    s.encryptionsUnder key ≤ (s.encrypted i c).encryptionsUnder key := by
  simp [encryptionsUnder, encrypted, List.countP_append]

omit [DecidableEq τ] in
theorem getElem?_encrypted (hc : s.objects[i]? = some c) (j : ℕ) :
    (s.encrypted i c).objects[j]? =
      if i = j then some { c with nonce := c.nonce + 1 } else s.objects[j]? := by
  have hlt := (List.getElem?_eq_some_iff.1 hc).1
  rw [encrypted, List.getElem?_set, if_pos hlt]

omit [DecidableEq τ] in
/-- An object keeps its mode and its key. -/
theorem exists_of_encrypted (hc : s.objects[i]? = some c) {j : ℕ} {d : TransportCrypto}
    (hd : (s.encrypted i c).objects[j]? = some d) :
    ∃ d', s.objects[j]? = some d' ∧ (d'.mode, d'.key) = (d.mode, d.key) := by
  rw [getElem?_encrypted hc] at hd
  split at hd
  · rename_i heq
    obtain rfl := Option.some.inj hd
    exact ⟨c, heq ▸ hc, rfl⟩
  · exact ⟨d, hd, rfl⟩

omit [DecidableEq τ] in
theorem live_of_encrypted {t : τ} (hpc : s.pc t = .holding i) {j : ℕ}
    (hj : (s.encrypted i c).Live j) : s.Live j := by
  rcases hj with (⟨e, he, rfl⟩ | hheld) | hcrypto
  · rcases List.mem_append.1 he with he | he
    · exact .inl (.inl ⟨e, he, rfl⟩)
    · rw [List.mem_singleton.1 he]
      exact .inl (.inr ⟨t, hpc⟩)
  · exact .inl (.inr hheld)
  · exact .inr hcrypto

end encrypted

/-! ## The invariant -/

/-- Objects count their encryptions, and the live ones differ in their mode or their key. -/
structure Apart (s : Client τ) : Prop where
  crypto_lt : ∀ i ∈ s.crypto, i < s.objects.length
  holding_lt : ∀ t i, s.pc t = .holding i → i < s.objects.length
  nonce_eq : ∀ i c, s.objects[i]? = some c →
    c.nonce = INITIAL_LITE_NONCE + UInt32.ofNat (s.count i)
  logged : ∀ e ∈ s.encryptions, ∃ c, s.objects[e.crypto]? = some c ∧ e.key = c.key ∧
    ∃ n < s.count e.crypto, e.nonce = makeNonce c.mode (INITIAL_LITE_NONCE + UInt32.ofNat n)
  apart : ∀ i j c d, s.Live i → s.Live j →
    s.objects[i]? = some c → s.objects[j]? = some d → (c.mode, c.key) = (d.mode, d.key) → i = j

theorem new_eq_ok {mode : TransportEncryptionMode} {key : Bytes} {c : TransportCrypto}
    (h : TransportCrypto.new mode key = .ok c) :
    c.mode = mode ∧ c.key = key ∧ c.nonce = INITIAL_LITE_NONCE := by
  unfold TransportCrypto.new at h
  split at h
  · simp at h
  · obtain rfl := Except.ok.inj h
    exact ⟨rfl, rfl, rfl⟩

theorem getElem?_concat_eq_some {α : Type} {l : List α} {a b : α} {i : ℕ} :
    (l ++ [a])[i]? = some b ↔ l[i]? = some b ∨ i = l.length ∧ a = b := by
  grind

theorem add_ofNat_succ (x : UInt32) (n : ℕ) :
    x + UInt32.ofNat (n + 1) = x + UInt32.ofNat n + 1 := by
  rw [UInt32.ofNat_add, UInt32.add_assoc]
  rfl

namespace Apart

variable {s : Client τ} {aead : Aead}

omit [DecidableEq τ] in
theorem init (mode : TransportEncryptionMode) (key : Bytes) :
    Apart ({ mode := mode, secretKey := key } : Client τ) where
  crypto_lt := by simp
  holding_lt := by simp
  nonce_eq := by simp
  logged := by simp
  apart := by simp

/-- A thread goes on to a statement, or is given the object of the client. -/
theorem goto (h : Apart s) (t : τ) (pc : Pc) (hpc : ∀ i, pc = .holding i → s.crypto = some i) :
    Apart (s.goto t pc) := by
  have hlive : ∀ i, (s.goto t pc).Live i → s.Live i := by
    rintro i ((hused | ⟨t', ht'⟩) | hi)
    · exact .inl (.inl hused)
    · rcases eq_or_ne t' t with rfl | hne
      · exact .inr (hpc i ((Function.update_self ..).symm.trans ht'))
      · exact .inl (.inr ⟨t', (Function.update_of_ne hne ..).symm.trans ht'⟩)
    · exact .inr hi
  refine ⟨h.crypto_lt, fun t' i ht' => ?_, h.nonce_eq, h.logged, fun i j c d hi hj => ?_⟩
  · rcases eq_or_ne t' t with rfl | hne
    · exact h.crypto_lt i (hpc i ((Function.update_self ..).symm.trans ht'))
    · exact h.holding_lt t' i ((Function.update_of_ne hne ..).symm.trans ht')
  · exact h.apart i j c d (hlive i hi) (hlive j hj)

omit [DecidableEq τ] in
theorem count_of_length_le (h : Apart s) {i : ℕ} (hi : s.objects.length ≤ i) : s.count i = 0 := by
  refine List.countP_eq_zero.2 fun e he => ?_
  obtain ⟨c, hc, -⟩ := h.logged e he
  have hlt := (List.getElem?_eq_some_iff.1 hc).1
  simp only [decide_eq_true_eq]
  omega

omit [DecidableEq τ] in
theorem lt_of_inUse (h : Apart s) {i : ℕ} (hi : s.InUse i) : i < s.objects.length := by
  rcases hi with ⟨e, he, rfl⟩ | ⟨t, ht⟩
  · obtain ⟨c, hc, -⟩ := h.logged e he
    exact (List.getElem?_eq_some_iff.1 hc).1
  · exact h.holding_lt t i ht

omit [DecidableEq τ] in
theorem setCryptoState (h : Apart s) (state : Option CryptoState) :
    Apart { s with cryptoState := state } :=
  ⟨h.crypto_lt, h.holding_lt, h.nonce_eq, h.logged, h.apart⟩

omit [DecidableEq τ] in
/-- A new object is the only live one of its mode and key, if none of them is in use. -/
theorem construct (h : Apart s) {crypto : TransportCrypto}
    (hnonce : crypto.nonce = INITIAL_LITE_NONCE)
    (hunused : ∀ i c, s.objects[i]? = some c → s.InUse i →
      (c.mode, c.key) ≠ (crypto.mode, crypto.key)) :
    Apart { s with
      crypto := some s.objects.length
      objects := s.objects ++ [crypto] } := by
  refine ⟨?_, fun t i ht => ?_, fun i c hc => ?_, fun e he => ?_,
    fun i j c d hi hj hc hd hstate => ?_⟩
  · rintro _ ⟨⟩
    simp
  · have := h.holding_lt t i ht
    rw [List.length_append]
    omega
  · rcases getElem?_concat_eq_some.1 hc with hc | ⟨rfl, rfl⟩
    · exact h.nonce_eq i c hc
    · have hcount : s.count s.objects.length = 0 := h.count_of_length_le le_rfl
      exact hnonce.trans (hcount ▸ rfl)
  · obtain ⟨c, hc, hkey, hn⟩ := h.logged e he
    exact ⟨c, getElem?_concat_eq_some.2 (.inl hc), hkey, hn⟩
  · have hcase : ∀ k, Live { s with
        crypto := some s.objects.length
        objects := s.objects ++ [crypto] } k → s.InUse k ∨ k = s.objects.length :=
      fun k => Or.imp_right fun hk => (Option.some.inj hk).symm
    have hold : ∀ {k e}, s.InUse k → (s.objects ++ [crypto])[k]? = some e →
        s.objects[k]? = some e := by
      intro k e hk he
      rcases getElem?_concat_eq_some.1 he with he | ⟨rfl, -⟩
      · exact he
      · exact absurd (h.lt_of_inUse hk) (lt_irrefl _)
    have hnew : ∀ {e}, (s.objects ++ [crypto])[s.objects.length]? = some e → crypto = e :=
      fun he => Option.some.inj (List.getElem?_concat_length.symm.trans he)
    rcases hcase i hi with hi | rfl <;> rcases hcase j hj with hj | rfl
    · exact h.apart i j c d (.inl hi) (.inl hj) (hold hi hc) (hold hj hd) hstate
    · exact absurd (hnew hd ▸ hstate) (hunused i c (hold hi hc) hi)
    · exact absurd (hnew hc ▸ hstate.symm) (hunused j d (hold hj hd) hj)
    · rfl

omit [DecidableEq τ] in
/-- The object that a thread was given counts on. -/
theorem encrypt (h : Apart s) (t : τ) (header payload : Bytes) :
    Apart (s.encrypt aead t header payload) := by
  rcases encrypt_cases s aead t header payload with heq | ⟨i, c, hpc, hc, heq⟩
  · rwa [heq]
  rw [heq]
  have hlen : (s.encrypted i c).objects.length = s.objects.length := List.length_set
  refine ⟨fun j hj => ?_, fun t' j ht' => ?_, fun j d hd => ?_, fun e he => ?_,
    fun j k d e hj hk hd he hstate => ?_⟩
  · exact hlen ▸ h.crypto_lt j hj
  · exact hlen ▸ h.holding_lt t' j ht'
  · rw [getElem?_encrypted hc] at hd
    rw [count_encrypted]
    split at hd
    · rename_i heq
      obtain rfl := Option.some.inj hd
      subst heq
      rw [if_pos rfl, add_ofNat_succ, ← h.nonce_eq i c hc]
    · rename_i hne
      rw [if_neg hne]
      exact h.nonce_eq j d hd
  · rw [count_encrypted, getElem?_encrypted hc]
    rcases List.mem_append.1 he with he | he
    · obtain ⟨c', hc', hkey, n, hn, hnonce⟩ := h.logged e he
      split
      · rename_i heq
        obtain rfl : c = c' := Option.some.inj (hc.symm.trans (heq ▸ hc'))
        exact ⟨_, rfl, hkey, n, by omega, hnonce⟩
      · exact ⟨c', hc', hkey, n, by omega, hnonce⟩
    · obtain rfl := List.mem_singleton.1 he
      rw [if_pos rfl, if_pos rfl]
      refine ⟨_, rfl, rfl, s.count i, Nat.lt_succ_self _, ?_⟩
      rw [← h.nonce_eq i c hc]
  · obtain ⟨d', hd', hdstate⟩ := exists_of_encrypted hc hd
    obtain ⟨e', he', hestate⟩ := exists_of_encrypted hc he
    exact h.apart j k d' e' (live_of_encrypted hpc hj) (live_of_encrypted hpc hk) hd' he'
      (hdstate.trans (hstate.trans hestate.symm))

/-! ### Steps -/

theorem getCrypto (h : Apart s) {t : τ} (hunused : s.BuildsUnused (.statement t)) :
    Apart (s.getCrypto t) := by
  unfold Client.getCrypto
  cases hpc : s.pc t with
  | start => exact h.goto t (.test _) (by simp)
  | test state =>
    by_cases hstale : s.crypto = none ∨ s.cryptoState ≠ some state
    · simpa only [if_pos hstale] using h.goto t (.construct state) (by simp)
    · simpa only [if_neg hstale] using h.goto t .ret (by simp)
  | construct state =>
    cases hnew : TransportCrypto.new state.1 state.2 with
    | error =>
      simp only [hnew]
      exact h.goto t .start (by simp)
    | ok crypto =>
      simp only [hnew]
      obtain ⟨hmode, hkey, hnonce⟩ := new_eq_ok hnew
      refine (h.construct hnonce fun i c hc hi => ?_).goto t (.assignState state) (by simp)
      rw [hmode, hkey]
      exact hunused t state rfl hpc i c hc hi
  | assignState state => exact (h.setCryptoState (some state)).goto t .ret (by simp)
  | ret =>
    cases hcrypto : s.crypto with
    | none => exact h.goto t .start (by simp)
    | some i => exact h.goto t (.holding i) fun j hj => by rw [hcrypto, Pc.holding.inj hj]
  | holding i => exact h.goto t .start (by simp)

theorem step (h : Apart s) {act : Act τ} (hunused : s.BuildsUnused act) :
    Apart (s.step aead act) := by
  cases act with
  | statement t => exact h.getCrypto hunused
  | encrypt t header payload => exact h.encrypt t header payload
  | setMode mode => exact ⟨h.crypto_lt, h.holding_lt, h.nonce_eq, h.logged, h.apart⟩
  | setSecretKey key => exact ⟨h.crypto_lt, h.holding_lt, h.nonce_eq, h.logged, h.apart⟩

omit [DecidableEq τ] in
theorem count_le (h : Apart s) {i : ℕ} {c : TransportCrypto} (hc : s.objects[i]? = some c) :
    s.count i ≤ s.encryptionsUnder c.key := by
  refine List.countP_mono_left fun e he heq => ?_
  obtain ⟨c', hc', hkey, -⟩ := h.logged e he
  rw [decide_eq_true_eq] at heq ⊢
  rw [heq, hc] at hc'
  rw [hkey, Option.some.inj hc']

omit [DecidableEq τ] in
/-- The next nonce of an object in use is a new one under its key. -/
theorem nonce_not_mem (h : Apart s) {t : τ} {i : ℕ} {c : TransportCrypto}
    (hpc : s.pc t = .holding i) (hc : s.objects[i]? = some c)
    (hbound : s.encryptionsUnder c.key < 2 ^ 32) :
    (c.key, makeNonce c.mode c.nonce) ∉ s.nonces := by
  intro hmem
  obtain ⟨e, he, heq⟩ := List.mem_map.1 hmem
  obtain ⟨d, hd, hkey, n, hn, hnonce⟩ := h.logged e he
  obtain ⟨hkey', hnonce'⟩ := Prod.mk.inj heq
  obtain ⟨hmode, hvalue⟩ := makeNonce_inj.1 (hnonce.symm.trans hnonce')
  have hsame : e.crypto = i :=
    h.apart e.crypto i d c (.inl (.inl ⟨e, he, rfl⟩)) (.inl (.inr ⟨t, hpc⟩)) hd hc
      (Prod.ext hmode (hkey.symm.trans hkey'))
  have hcount := h.count_le hc
  rw [hsame] at hn
  rw [h.nonce_eq i c hc, UInt32.add_right_inj] at hvalue
  have := congrArg UInt32.toNat hvalue
  simp only [UInt32.toNat_ofNat'] at this
  omega

end Apart

/-! ## Runs -/

theorem run_concat (mode : TransportEncryptionMode) (key : Bytes) (acts : List (Act τ))
    (act : Act τ) : run aead mode key (acts ++ [act]) = (run aead mode key acts).step aead act :=
  List.foldl_concat ..

/-- Every step of a run that builds a `TransportCrypto` finds none of its mode and key in use. -/
def NoneRebuilt (mode : TransportEncryptionMode) (key : Bytes) (acts : List (Act τ)) : Prop :=
  ∀ pre act post, acts = pre ++ act :: post → (run aead mode key pre).BuildsUnused act

variable {aead}

omit [DecidableEq τ] in
theorem BuildsUnused.of_objects_nil {s : Client τ} (h : s.objects = []) {act : Act τ} :
    s.BuildsUnused act := by
  intro t state _ _ i c hc
  simp [h] at hc

omit [DecidableEq τ] in
theorem BuildsUnused.of_pc {s : Client τ} {t : τ} (pc : Pc) (h : s.pc t = pc)
    (hpc : ∀ state, pc ≠ .construct state) : s.BuildsUnused (.statement t) := by
  rintro _ state ⟨⟩ hstate
  exact absurd (h.symm.trans hstate) (hpc state)

omit [DecidableEq τ] in
theorem BuildsUnused.encrypt {s : Client τ} {t : τ} {header payload : Bytes} :
    s.BuildsUnused (.encrypt t header payload) :=
  fun _ _ h => absurd h (by simp)

theorem NoneRebuilt.nil {mode : TransportEncryptionMode} {key : Bytes} :
    NoneRebuilt aead mode key ([] : List (Act τ)) :=
  forall_split_nil

theorem NoneRebuilt.concat {mode : TransportEncryptionMode} {key : Bytes} {acts : List (Act τ)}
    {act : Act τ} (h : NoneRebuilt aead mode key acts)
    (hact : (run aead mode key acts).BuildsUnused act) :
    NoneRebuilt aead mode key (acts ++ [act]) :=
  forall_split_concat h hact

theorem NoneRebuilt.left {mode : TransportEncryptionMode} {key : Bytes} {pre post : List (Act τ)}
    (h : NoneRebuilt aead mode key (pre ++ post)) : NoneRebuilt aead mode key pre :=
  forall_split_left h

theorem NoneRebuilt.last {mode : TransportEncryptionMode} {key : Bytes} {acts : List (Act τ)}
    {act : Act τ} (h : NoneRebuilt aead mode key (acts ++ [act])) :
    (run aead mode key acts).BuildsUnused act :=
  h acts act [] rfl

theorem apart_run {mode : TransportEncryptionMode} {key : Bytes} {acts : List (Act τ)}
    (h : NoneRebuilt aead mode key acts) : Apart (run aead mode key acts) := by
  induction acts using List.reverseRecOn with
  | nil => exact .init mode key
  | append_singleton acts act ih =>
    rw [run_concat]
    exact (ih h.left).step h.last

theorem encryptions_getCrypto (s : Client τ) (t : τ) :
    (s.getCrypto t).encryptions = s.encryptions := by
  unfold getCrypto
  split
  · rfl
  · split <;> rfl
  · split <;> rfl
  · rfl
  · split <;> rfl
  · rfl

/-- A step is an encryption with an object that a thread holds, or it encrypts nothing. -/
theorem encryptions_step (aead : Aead) (s : Client τ) (act : Act τ) :
    (s.step aead act).encryptions = s.encryptions ∨
    ∃ t i c, s.pc t = .holding i ∧ s.objects[i]? = some c ∧
      s.step aead act = s.encrypted i c := by
  cases act with
  | statement t => exact .inl (encryptions_getCrypto s t)
  | encrypt t header payload =>
    rcases encrypt_cases s aead t header payload with heq | ⟨i, c, hpc, hc, heq⟩
    · exact .inl (congrArg encryptions heq)
    · exact .inr ⟨t, i, c, hpc, hc, heq⟩
  | setMode mode => exact .inl rfl
  | setSecretKey key => exact .inl rfl

/-- **Nonces are unique.** In a run in which a `TransportCrypto` is only built while no other one of
its mode and key is in use, and fewer than `2 ^ 32` encryptions take place under each key, no two
encryptions have the same key and nonce. -/
theorem nonces_nodup (aead : Aead) (mode : TransportEncryptionMode) (key : Bytes)
    (acts : List (Act τ)) (hbuilt : NoneRebuilt aead mode key acts)
    (hbound : ∀ key', (run aead mode key acts).encryptionsUnder key' < 2 ^ 32) :
    (run aead mode key acts).nonces.Nodup := by
  induction acts using List.reverseRecOn with
  | nil => exact List.nodup_nil
  | append_singleton acts act ih =>
    have hapart := apart_run hbuilt.left
    rw [run_concat] at hbound ⊢
    rcases encryptions_step aead (run aead mode key acts) act with heq | ⟨t, i, c, hpc, hc, heq⟩
    · simp only [encryptionsUnder, nonces, heq] at hbound ⊢
      exact ih hbuilt.left hbound
    · rw [heq] at hbound ⊢
      have hle : ∀ key', (run aead mode key acts).encryptionsUnder key' < 2 ^ 32 := fun key' =>
        Nat.lt_of_le_of_lt (encryptionsUnder_le_encrypted key') (hbound key')
      rw [nonces_encrypted, ← List.concat_eq_append]
      exact (ih hbuilt.left hle).concat (hapart.nonce_not_mem hpc hc (hle c.key))

/-- The threads of a client. -/
inductive Thread
  | audioPlayer
  | videoSender
  | receive
  | nackRetry
  deriving DecidableEq

/-- The audio player builds the `TransportCrypto` and encrypts with it, and the video sender finds
it there. -/
theorem nonces_nodup_shared :
    let acts : List (Act Thread) :=
      [.statement .audioPlayer, .statement .audioPlayer, .statement .audioPlayer,
        .statement .audioPlayer, .statement .audioPlayer, .encrypt .audioPlayer [1] [2],
        .statement .videoSender, .statement .videoSender, .statement .videoSender,
        .encrypt .videoSender [1] [2]]
    (run tagOnly .aeadAes256GcmRtpSize (List.replicate 32 7) acts).nonces.Nodup := by
  intro acts
  refine nonces_nodup tagOnly .aeadAes256GcmRtpSize (List.replicate 32 7) acts ?_ ?_
  · refine .concat (.concat (.concat (.concat (.concat (.concat (.concat (.concat (.concat (.concat
      .nil ?_) ?_) ?_) ?_) ?_) ?_) ?_) ?_) ?_) ?_
    · exact .of_objects_nil rfl
    · exact .of_objects_nil rfl
    · exact .of_objects_nil rfl
    · exact .of_pc (.assignState _) rfl (by simp)
    · exact .of_pc .ret rfl (by simp)
    · exact .encrypt
    · exact .of_pc .start rfl (by simp)
    · exact .of_pc (.test _) rfl (by simp)
    · exact .of_pc .ret rfl (by simp)
    · exact .encrypt
  · exact fun key => Nat.lt_of_le_of_lt List.countP_le_length (by decide)

/-- **A nonce is reused.** Two threads read the client before one of them has built a
`TransportCrypto`, so that both build one, and both objects start from one nonce. -/
theorem nonce_reused :
    let builds (t : Thread) : List (Act Thread) :=
      [.statement t, .statement t, .statement t, .encrypt t [1] [2]]
    let acts : List (Act Thread) :=
      [.statement .audioPlayer, .statement .videoSender, .statement .audioPlayer,
        .statement .videoSender] ++ builds .audioPlayer ++ builds .videoSender
    let s := run tagOnly .aeadAes256GcmRtpSize (List.replicate 32 7) acts
    (∀ key, s.encryptionsUnder key < 2 ^ 32) ∧ ¬s.nonces.Nodup := by
  intro builds acts s
  refine ⟨fun key => Nat.lt_of_le_of_lt List.countP_le_length ?_, ?_⟩
  · decide
  · decide

end Client

end NativeVoice.Transport
