import AdbBridge.Lib.Machine
import AdbBridge.Types.Bytes

/-!
# A pairing session

Two peers that know the same password pair in two rounds (`pairing_connection.cpp`): each sends
its SPAKE2 message and makes a cipher of the key material it gets from the other's, and then
each sends its `PeerInfo` under that cipher. The machine `session` has both of them, and what
is on its way from one to the other over a TLS connection that neither loses nor reorders
anything.

The two ciphers have the same key, and each counts its own encryptions from zero
(`aes_128_gcm.cpp`). So the first encryption of one peer has the key and the nonce of the first
encryption of the other, and the two are apart only if the peers have the same information.

The cryptography comes as parameters: of SPAKE2 only that two parties with one password agree.
-/

namespace AdbBridge.PairingConnection

open List

/-! ### Cryptography -/

/-- The two sides of a session. -/
inductive Role
  | client
  | server
  deriving DecidableEq

/-- The other side. -/
def Role.other : Role → Role
  | .client => .server
  | .server => .client

/-- What the libraries compute. A party of SPAKE2 has a secret of its own. -/
structure Crypto where
  spake2Msg : Role → Bytes → ℕ → Bytes
  spake2Process : Role → Bytes → ℕ → Bytes → Option Bytes
  /-- Two parties with one password get the same key material. -/
  spake2_agree : ∀ pswd x y,
    spake2Process .client pswd x (spake2Msg .server pswd y)
      = spake2Process .server pswd y (spake2Msg .client pswd x)
  hkdf : Bytes → Bytes
  /-- `EVP_AEAD_CTX_seal`, from a key, a nonce and a plaintext. -/
  aeadSeal : Bytes → Bytes → Bytes → Option Bytes
  aeadOpen : Bytes → Bytes → Bytes → Option Bytes

/-- `kMaxPeerInfoSize`. -/
def kMaxPeerInfoSize : ℕ := 8192

/-- The bytes of a `PeerInfo`. -/
def PeerInfo : Type := { bs : Bytes // bs.length = kMaxPeerInfoSize }

/-- What the two peers bring to a session. The password is the one with the key material of the
TLS connection behind it. -/
structure Setup where
  crypto : Crypto
  password : Role → Bytes
  secret : Role → ℕ
  peerInfo : Role → PeerInfo

/-- `Aes128Gcm`. -/
structure Cipher where
  key : Bytes
  encSequence : ℕ := 0
  decSequence : ℕ := 0
  deriving DecidableEq

/-- The nonce for a sequence number: its eight bytes, and zeros up to the length of a nonce. -/
def nonce (sequence : ℕ) : Bytes :=
  bytesOfUint32 (sequence % 2 ^ 32) ++ bytesOfUint32 (sequence / 2 ^ 32) ++ bytesOfUint32 0

/-! ### The session -/

/-- `PairingPacket.Type`. -/
inductive PacketType
  | spake2Msg
  | peerInfo
  deriving DecidableEq

/-- A header and its payload. -/
structure Packet where
  version : ℕ
  type : PacketType
  payload : Bytes
  deriving DecidableEq

/-- Where the worker of a peer is. -/
inductive Phase
  | ready
  /-- It has sent its SPAKE2 message. -/
  | sentMsg
  /-- Its cipher is there. -/
  | exchangingPeerInfo
  /-- It has sent its `PeerInfo`. -/
  | sentInfo
  /-- `NotifyResult` has been called, with the information of the peer or without. -/
  | stopped (theirInfo : Option Bytes)
  deriving DecidableEq

/-- `PairingConnectionCtx`, and what is on its way to it. -/
structure Ctx where
  phase : Phase := .ready
  cipher : Option Cipher := none
  inbox : List Packet := []
  deriving DecidableEq

/-- An encryption that was performed. -/
structure Encryption where
  role : Role
  key : Bytes
  nonce : Bytes
  plaintext : Bytes
  deriving DecidableEq

structure Session where
  peer : Role → Ctx := fun _ => {}
  encryptions : List Encryption := []

namespace Session

variable (k : Setup) (s : Session) (r : Role)

def upd (f : Ctx → Ctx) : Session :=
  { s with peer := Function.update s.peer r (f (s.peer r)) }

/-- Something goes wrong: `NotifyResult(nullptr)`. -/
def fail : Session := s.upd r ({ · with phase := .stopped none })

/-- Write a packet to the other side. -/
def send (p : Packet) : Session := s.upd r.other fun c => { c with inbox := c.inbox ++ [p] }

/-- `kCurrentKeyHeaderVersion`, the only version there is. -/
def kCurrentKeyHeaderVersion : ℕ := 1

/-- `kMaxPayloadSize`. -/
def kMaxPayloadSize : ℕ := kMaxPeerInfoSize * 2

/-- `SPAKE2_MAX_MSG_SIZE`. -/
def spake2MaxMsgSize : ℕ := 32

/-- `ReadHeader` and `CheckHeaderType`. -/
def acceptable (expected : PacketType) (p : Packet) : Bool :=
  p.version == kCurrentKeyHeaderVersion && p.payload != [] &&
    p.payload.length ≤ kMaxPayloadSize && p.type == expected

/-- `SetupTlsConnection` and the writes of `DoExchangeMsgs`. -/
def start (ok : Bool) : Session :=
  if ok then
    (s.upd r ({ · with phase := .sentMsg })).send r
      ⟨kCurrentKeyHeaderVersion, .spake2Msg,
        k.crypto.spake2Msg r (k.password r) (k.secret r)⟩
  else s.fail r

/-- `InitCipher`. -/
def initCipher (theirMsg : Bytes) : Option Cipher :=
  if spake2MaxMsgSize < theirMsg.length then none
  else (k.crypto.spake2Process r (k.password r) (k.secret r) theirMsg).map fun material =>
    { key := k.crypto.hkdf material }

/-- The rest of `DoExchangeMsgs`, with the first packet that has arrived. -/
def readMsg : Session :=
  match (s.peer r).inbox with
  | [] => s.fail r
  | p :: inbox =>
    let s := s.upd r ({ · with inbox := inbox })
    if acceptable .spake2Msg p then
      match initCipher k r p.payload with
      | none => s.fail r
      | some cipher =>
        s.upd r ({ · with phase := .exchangingPeerInfo, cipher := some cipher })
    else s.fail r

/-- `Encrypt` and the writes of `DoExchangePeerInfo`. -/
def sendInfo (ok : Bool) : Session :=
  match (s.peer r).cipher with
  | none => s.fail r
  | some cipher =>
    match k.crypto.aeadSeal cipher.key (nonce cipher.encSequence) (k.peerInfo r).1 with
    | none => s.fail r
    | some encrypted =>
      let s : Session := { s.upd r ({ · with
            cipher := some { cipher with encSequence := cipher.encSequence + 1 } }) with
          encryptions := s.encryptions
            ++ [⟨r, cipher.key, nonce cipher.encSequence, (k.peerInfo r).1⟩] }
      if ok then
        (s.upd r ({ · with phase := .sentInfo })).send r
          ⟨kCurrentKeyHeaderVersion, .peerInfo, encrypted⟩
      else s.fail r

/-- The rest of `DoExchangePeerInfo`, with the first packet that has arrived. -/
def readInfo : Session :=
  match (s.peer r).cipher, (s.peer r).inbox with
  | some cipher, p :: inbox =>
    let s := s.upd r ({ · with inbox := inbox })
    if acceptable .peerInfo p then
      match k.crypto.aeadOpen cipher.key (nonce cipher.decSequence) p.payload with
      | none => s.fail r
      | some decrypted =>
        let s := s.upd r ({ · with
          cipher := some { cipher with decSequence := cipher.decSequence + 1 } })
        if decrypted.length = kMaxPeerInfoSize then
          s.upd r ({ · with phase := .stopped (some decrypted) })
        else s.fail r
    else s.fail r
  | _, _ => s.fail r

end Session

/-- The steps of a session. A connection can break at any time, which ends a read. -/
inductive Op
  | start (r : Role) (ok : Bool)
  | readMsg (r : Role)
  | sendInfo (r : Role) (ok : Bool)
  | readInfo (r : Role)
  | broken (r : Role)
  deriving DecidableEq

/-- What a step does. -/
def Op.step (k : Setup) (s : Session) : Op → Session
  | .start r ok => s.start k r ok
  | .readMsg r => s.readMsg k r
  | .sendInfo r ok => s.sendInfo k r ok
  | .readInfo r => s.readInfo k r
  | .broken r => s.fail r

/-- When a step can be taken. A read waits for something to arrive. -/
def Op.Enabled (s : Session) : Op → Prop
  | .start r _ => (s.peer r).phase = .ready
  | .readMsg r => (s.peer r).phase = .sentMsg ∧ (s.peer r).inbox ≠ []
  | .sendInfo r _ => (s.peer r).phase = .exchangingPeerInfo
  | .readInfo r => (s.peer r).phase = .sentInfo ∧ (s.peer r).inbox ≠ []
  | .broken r => (s.peer r).phase = .sentMsg ∨ (s.peer r).phase = .sentInfo

/-- A session of two peers. -/
def session (k : Setup) : Machine Session Op where
  init s := s = {}
  enabled s op := op.Enabled s
  step := Op.step k

/-! ### What is on its way -/

namespace Session

variable {k : Setup} {s s' : Session} {r q : Role}

@[simp]
theorem peer_upd_self (f : Ctx → Ctx) : (s.upd r f).peer r = f (s.peer r) := by simp [upd]

@[simp]
theorem peer_upd_other (f : Ctx → Ctx) : (s.upd r f).peer r.other = s.peer r.other := by
  cases r <;> rfl

@[simp]
theorem encryptions_upd (f : Ctx → Ctx) : (s.upd r f).encryptions = s.encryptions := rfl

@[simp]
theorem encryptions_send (p : Packet) : (s.send r p).encryptions = s.encryptions := rfl

theorem upd_upd (f g : Ctx → Ctx) : (s.upd r f).upd r g = s.upd r (g ∘ f) := by
  simp [upd]

/-- The message that a peer sends first. -/
def msgPacket (k : Setup) (r : Role) : Packet :=
  ⟨kCurrentKeyHeaderVersion, .spake2Msg, k.crypto.spake2Msg r (k.password r) (k.secret r)⟩

/-- A peer that has no cipher yet and has not given up. -/
def Awaiting (s : Session) (r : Role) : Prop :=
  (s.peer r).phase = .ready ∨ (s.peer r).phase = .sentMsg

/-- A peer that has sent nothing, and will not if it has not started. -/
def Silent (s : Session) (r : Role) : Prop :=
  (s.peer r).phase = .ready ∨ ∃ i, (s.peer r).phase = .stopped i

/-- What holds of a peer in a session. -/
structure PeerInv (k : Setup) (s : Session) (r : Role) : Prop where
  /-- The first thing that arrives is the message of the other side. -/
  inbox : s.Awaiting r → (s.peer r).inbox = [] ∧ s.Silent r.other ∨
    ∃ rest, (s.peer r).inbox = msgPacket k r.other :: rest
  /-- The key comes from that message. -/
  key : ∀ c, (s.peer r).cipher = some c → ∃ material,
    k.crypto.spake2Process r (k.password r) (k.secret r) (msgPacket k r.other).payload
      = some material ∧ c.key = k.crypto.hkdf material
  /-- A peer about to encrypt has not done so before. -/
  unused : (s.peer r).phase = .exchangingPeerInfo →
    (∀ c, (s.peer r).cipher = some c → c.encSequence = 0) ∧ ∀ e ∈ s.encryptions, e.role ≠ r
  awaiting : s.Awaiting r → (s.peer r).cipher = none ∧ ∀ e ∈ s.encryptions, e.role ≠ r
  /-- What it has encrypted is its information, under the first nonce. -/
  encrypted : ∀ e ∈ s.encryptions, e.role = r → e.plaintext = (k.peerInfo r).1 ∧
    e.nonce = nonce 0 ∧ (s.peer r).cipher.map Cipher.key = some e.key

theorem other_other (r : Role) : r.other.other = r := by cases r <;> rfl

theorem eq_or_other (r q : Role) : q = r ∨ q = r.other := by
  cases r <;> cases q <;> simp [Role.other]

/-- A step of the other side: it may send something, but not before its message. -/
theorem PeerInv.frame (h : PeerInv k s q) (hphase : (s'.peer q).phase = (s.peer q).phase)
    (hcipher : (s'.peer q).cipher = (s.peer q).cipher)
    (hlog : ∀ e ∈ s'.encryptions, e ∈ s.encryptions ∨ e.role ≠ q)
    (hin : (s'.peer q).inbox = (s.peer q).inbox ∧ (s.Silent q.other → s'.Silent q.other) ∨
      ∃ p, (s'.peer q).inbox = (s.peer q).inbox ++ [p] ∧
        (p = msgPacket k q.other ∨ ¬ s.Silent q.other)) : PeerInv k s' q := by
  have hmem : ∀ e ∈ s'.encryptions, e.role = q → e ∈ s.encryptions :=
    fun e he hq => (hlog e he).resolve_right (fun hne => hne hq)
  have hawait : s'.Awaiting q → s.Awaiting q := by
    rw [Awaiting, Awaiting, hphase]
    exact id
  refine ⟨fun ha => ?_, ?_, fun hp => ?_, fun ha => ?_, fun e he hq => ?_⟩
  · rcases hin with ⟨hsame, hsilent⟩ | ⟨p, happ, hp⟩
    · rw [hsame]
      exact (h.inbox (hawait ha)).imp_left fun h => ⟨h.1, hsilent h.2⟩
    · rw [happ]
      right
      rcases h.inbox (hawait ha) with ⟨hnil, hsilent⟩ | ⟨rest, hrest⟩
      · -- nothing has arrived, so what arrives now is the first thing that was sent
        rcases hp with rfl | hp
        · exact ⟨[], by rw [hnil]; rfl⟩
        · exact absurd hsilent hp
      · exact ⟨rest ++ [p], by rw [hrest]; rfl⟩
  · rw [hcipher]
    exact h.key
  · rw [hphase] at hp
    rw [hcipher]
    exact ⟨(h.unused hp).1, fun e he hq => (h.unused hp).2 e (hmem e he hq) hq⟩
  · rw [hcipher]
    exact ⟨(h.awaiting (hawait ha)).1,
      fun e he hq => (h.awaiting (hawait ha)).2 e (hmem e he hq) hq⟩
  · rw [hcipher]
    exact h.encrypted e (hmem e he hq) hq

/-- A peer that has stopped keeps what it has. -/
theorem PeerInv.stopped (h : PeerInv k s r) {i : Option Bytes}
    (hphase : (s'.peer r).phase = .stopped i)
    (hcipher : (s'.peer r).cipher.map Cipher.key = (s.peer r).cipher.map Cipher.key)
    (hlog : s'.encryptions = s.encryptions) : PeerInv k s' r := by
  refine ⟨fun ha => ?_, fun c hc => ?_, fun hp => ?_, fun ha => ?_, fun e he hq => ?_⟩
  · rcases ha with ha | ha <;> rw [hphase] at ha <;> cases ha
  · rw [hc, Option.map_some] at hcipher
    obtain ⟨c', hc', hkey⟩ := Option.map_eq_some_iff.mp hcipher.symm
    obtain ⟨material, hm, heq⟩ := h.key c' hc'
    exact ⟨material, hm, hkey.symm.trans heq⟩
  · rw [hphase] at hp
    cases hp
  · rcases ha with ha | ha <;> rw [hphase] at ha <;> cases ha
  · rw [hlog] at he
    rw [hcipher]
    exact h.encrypted e he hq

/-- What holds of a session. -/
def Inv (k : Setup) (s : Session) : Prop := ∀ r, PeerInv k s r

/-- A step of one peer, seen from both. -/
theorem Inv.of_both (h : PeerInv k s' r) (h' : PeerInv k s' r.other) : Inv k s' := by
  intro q
  rcases eq_or_other r q with rfl | rfl
  · exact h
  · exact h'

theorem Inv.fail (h : Inv k s) (r : Role) : Inv k (s.fail r) := by
  refine .of_both ((h r).stopped (i := none) (by simp [Session.fail]) (by simp [Session.fail])
    rfl) ((h r.other).frame ?_ ?_ (fun e he => .inl he) (.inl ⟨?_, fun _ => ?_⟩))
  · simp [Session.fail]
  · simp [Session.fail]
  · simp [Session.fail]
  · rw [other_other]
    exact .inr ⟨none, by simp [Session.fail]⟩

@[simp]
theorem peer_send_self (p : Packet) : (s.send r p).peer r = s.peer r := by
  cases r <;> rfl

@[simp]
theorem peer_send_other (p : Packet) :
    (s.send r p).peer r.other = { s.peer r.other with inbox := (s.peer r.other).inbox ++ [p] } := by
  simp [send]

theorem Inv.start (h : Inv k s) (hready : (s.peer r).phase = .ready) (ok : Bool) :
    Inv k (s.start k r ok) := by
  cases ok with
  | false => exact h.fail r
  | true =>
    have hr := h r
    have ha : s.Awaiting r := .inl hready
    refine .of_both ⟨fun _ => ?_, ?_, ?_, fun _ => ?_, ?_⟩
      ((h r.other).frame ?_ ?_ (fun e he => .inl he) (.inr ⟨msgPacket k r, ?_, .inl ?_⟩))
    · simpa [Session.start, Silent] using hr.inbox ha
    · simpa [Session.start] using hr.key
    · simp [Session.start]
    · simpa [Session.start] using hr.awaiting ha
    · simpa [Session.start] using hr.encrypted
    · simp [Session.start]
    · simp [Session.start]
    · simp [Session.start, msgPacket]
    · rw [other_other]

theorem not_silent (h : (s.peer r).phase = .sentMsg ∨ (s.peer r).phase = .exchangingPeerInfo ∨
    (s.peer r).phase = .sentInfo) : ¬ s.Silent r := by
  rintro (hs | ⟨i, hs⟩) <;> rcases h with h | h | h <;> rw [h] at hs <;> cases hs

/-- A peer that reads changes only itself. -/
theorem Inv.of_read (h : Inv k s) (hr : PeerInv k s' r) (hlog : s'.encryptions = s.encryptions)
    (hother : s'.peer r.other = s.peer r.other) (hspoke : ¬ s.Silent r) : Inv k s' := by
  refine .of_both hr ((h r.other).frame (by rw [hother]) (by rw [hother]) ?_
    (.inl ⟨by rw [hother], fun hs => ?_⟩))
  · intro e he
    rw [hlog] at he
    exact .inl he
  · rw [other_other] at hs
    exact absurd hs hspoke

theorem Inv.readMsg (h : Inv k s) (hphase : (s.peer r).phase = .sentMsg)
    (hin : (s.peer r).inbox ≠ []) : Inv k (s.readMsg k r) := by
  have hspoke : ¬ s.Silent r := not_silent (.inl hphase)
  have ha : s.Awaiting r := .inr hphase
  obtain ⟨rest, hrest⟩ : ∃ rest, (s.peer r).inbox = msgPacket k r.other :: rest :=
    ((h r).inbox ha).resolve_left fun hnil => hin hnil.1
  have hstop : Inv k ((s.upd r ({ · with inbox := rest })).fail r) :=
    h.of_read ((h r).stopped (i := none) (by simp [Session.fail]) (by simp [Session.fail]) rfl)
      rfl (by simp [Session.fail]) hspoke
  rw [Session.readMsg, hrest]
  dsimp only
  split_ifs
  · split
    · exact hstop
    · next c hc =>
      rw [initCipher] at hc
      split_ifs at hc
      obtain ⟨material, hm, rfl⟩ := Option.map_eq_some_iff.mp hc
      refine h.of_read ⟨?_, ?_, fun _ => ⟨?_, ?_⟩, ?_, fun e he hq => ?_⟩ rfl (by simp) hspoke
      · simp [Awaiting]
      · intro c' hc'
        obtain rfl : _ = c' := by simpa using hc'
        exact ⟨material, hm, rfl⟩
      · intro c' hc'
        obtain rfl : _ = c' := by simpa using hc'
        rfl
      · exact ((h r).awaiting ha).2
      · simp [Awaiting]
      · exact absurd hq (((h r).awaiting ha).2 e he)
  · exact hstop

theorem Inv.readInfo (h : Inv k s) (hphase : (s.peer r).phase = .sentInfo) :
    Inv k (s.readInfo k r) := by
  have hspoke : ¬ s.Silent r := not_silent (.inr (.inr hphase))
  have hstop : ∀ (f : Ctx → Ctx) i, (f (s.peer r)).phase = .stopped i →
      (f (s.peer r)).cipher.map Cipher.key = (s.peer r).cipher.map Cipher.key →
      Inv k (s.upd r f) := fun f i hi hkey =>
    h.of_read ((h r).stopped (i := i) (by simpa using hi) (by simpa using hkey) rfl) rfl
      (by simp) hspoke
  rw [Session.readInfo]
  split
  · next c p inbox hc hin =>
    simp only [Session.fail, upd_upd]
    split_ifs
    · split
      · exact hstop _ none rfl rfl
      · split_ifs
        · exact hstop _ _ rfl (by simp [hc])
        · exact hstop _ none rfl (by simp [hc])
    · exact hstop _ none rfl rfl
  · exact hstop _ none rfl rfl

/-- A peer that encrypts its information: it has not done so before, and does not again. -/
theorem Inv.of_encrypt (h : Inv k s) (hphase : (s.peer r).phase = .exchangingPeerInfo) {c : Cipher}
    (hc : (s.peer r).cipher = some c)
    (hlog : s'.encryptions = s.encryptions ++ [⟨r, c.key, nonce 0, (k.peerInfo r).1⟩])
    (hkey : (s'.peer r).cipher.map Cipher.key = some c.key)
    (hphase' : (s'.peer r).phase = .sentInfo ∨ (s'.peer r).phase = .stopped none)
    (hother : s'.peer r.other = s.peer r.other ∨ ∃ p, s'.peer r.other
      = { s.peer r.other with inbox := (s.peer r.other).inbox ++ [p] }) : Inv k s' := by
  have hr := h r
  have hspoke : ¬ s.Silent r.other.other := by
    rw [other_other]
    exact not_silent (.inr (.inl hphase))
  have hnot : ¬ s'.Awaiting r := by
    rintro (ha | ha) <;> rcases hphase' with hp | hp <;> rw [hp] at ha <;> cases ha
  have hne : r ≠ r.other := by cases r <;> decide
  refine .of_both ⟨fun ha => absurd ha hnot, fun c' hc' => ?_, fun hp => ?_,
    fun ha => absurd ha hnot, fun e he hq => ?_⟩ ?_
  · obtain ⟨material, hm, heq⟩ := hr.key c hc
    rw [hc', Option.map_some, Option.some.injEq] at hkey
    exact ⟨material, hm, hkey.trans heq⟩
  · rcases hphase' with hp' | hp' <;> rw [hp'] at hp <;> cases hp
  · rw [hlog] at he
    rcases mem_append.mp he with he | he
    · exact absurd hq ((hr.unused hphase).2 e he)
    · obtain rfl := mem_singleton.mp he
      exact ⟨rfl, rfl, hkey⟩
  · have hmem : ∀ e ∈ s'.encryptions, e ∈ s.encryptions ∨ e.role ≠ r.other := by
      intro e he
      rw [hlog] at he
      refine (mem_append.mp he).imp_right fun he => ?_
      obtain rfl := mem_singleton.mp he
      exact hne
    rcases hother with hsame | ⟨p, hsent⟩
    · exact (h r.other).frame (by rw [hsame]) (by rw [hsame]) hmem
        (.inl ⟨by rw [hsame], fun hs => absurd hs hspoke⟩)
    · exact (h r.other).frame (by rw [hsent]) (by rw [hsent]) hmem
        (.inr ⟨p, by rw [hsent], .inr hspoke⟩)

theorem Inv.sendInfo (h : Inv k s) (hphase : (s.peer r).phase = .exchangingPeerInfo) (ok : Bool) :
    Inv k (s.sendInfo k r ok) := by
  rw [Session.sendInfo]
  split
  · exact h.fail r
  · next c hc =>
    split
    · exact h.fail r
    · have hseq := ((h r).unused hphase).1 c hc
      rw [hseq]
      cases ok with
      | true => exact h.of_encrypt hphase hc rfl (by simp) (.inl (by simp)) (.inr ⟨_, by simp; rfl⟩)
      | false =>
        exact h.of_encrypt hphase hc rfl (by simp [Session.fail]) (.inr (by simp [Session.fail]))
          (.inl (by simp [Session.fail]))

theorem inv_of_reach (h : (session k).Reach s) : Inv k s := by
  refine h.inv (P := Inv k) ?_ ?_
  · rintro s rfl r
    exact ⟨fun _ => .inl ⟨rfl, .inl rfl⟩, by simp, by simp, by simp, by simp⟩
  · rintro s op - hs hen
    cases op with
    | start r ok => exact hs.start hen ok
    | readMsg r => exact hs.readMsg hen.1 hen.2
    | sendInfo r ok => exact hs.sendInfo hen ok
    | readInfo r => exact hs.readInfo hen.1
    | broken r => exact hs.fail r

end Session

/-! ### Keys and nonces -/

/-- No two encryptions have the same key and the same nonce, unless their plaintexts are equal. -/
def NoReuse (es : List Encryption) : Prop :=
  ∀ e ∈ es, ∀ e' ∈ es, e.key = e'.key → e.nonce = e'.nonce → e.plaintext = e'.plaintext

/-- A peer has encrypted something. -/
def Session.Encrypted (s : Session) (r : Role) : Prop := ∃ e ∈ s.encryptions, e.role = r

/-- The key of a peer, once it has one. -/
def Session.key (s : Session) (r : Role) : Option Bytes := (s.peer r).cipher.map Cipher.key

namespace Session

variable {k : Setup} {s : Session}

/-- Peers with one password have one key. -/
theorem Inv.key_eq (h : Inv k s) (hpass : k.password .client = k.password .server)
    (hc : s.Encrypted .client) (hs : s.Encrypted .server) : s.key .client = s.key .server := by
  have hcipher : ∀ r, s.Encrypted r → ∃ c, (s.peer r).cipher = some c := by
    rintro r ⟨e, he, hr⟩
    obtain ⟨c, hc, -⟩ := Option.map_eq_some_iff.mp ((h r).encrypted e he hr).2.2
    exact ⟨c, hc⟩
  obtain ⟨c, hc⟩ := hcipher .client hc
  obtain ⟨c', hc'⟩ := hcipher .server hs
  obtain ⟨m, hm, heq⟩ := (h .client).key c hc
  obtain ⟨m', hm', heq'⟩ := (h .server).key c' hc'
  have hagree := k.crypto.spake2_agree (k.password .client) (k.secret .client) (k.secret .server)
  simp only [msgPacket, Role.other] at hm hm'
  rw [hpass] at hm hm' hagree
  have hmm : m = m' := Option.some.inj (hm.symm.trans (hagree.trans hm'))
  rw [Session.key, Session.key, hc, hc', Option.map_some, Option.map_some, heq, heq', hmm]

/-- Two encryptions of one peer are of the same plaintext. -/
theorem Inv.plaintext_eq (h : Inv k s) {e e' : Encryption} (he : e ∈ s.encryptions)
    (he' : e' ∈ s.encryptions) (hrole : e.role = e'.role) : e.plaintext = e'.plaintext := by
  rw [((h e.role).encrypted e he rfl).1, ((h e'.role).encrypted e' he' rfl).1, hrole]

end Session

/-- **A session uses no nonce twice** exactly if the two peers have the same information, or do
not both get as far as to encrypt theirs, or have different keys. With one password, they have
the same key. -/
theorem noReuse_iff (k : Setup) (s : Session) (h : (session k).Reach s) :
    (NoReuse s.encryptions ↔ (s.Encrypted .client → s.Encrypted .server →
      s.key .client = s.key .server → k.peerInfo .client = k.peerInfo .server)) ∧
    (k.password .client = k.password .server → s.Encrypted .client → s.Encrypted .server →
      s.key .client = s.key .server) := by
  have hinv := Session.inv_of_reach h
  refine ⟨⟨?_, fun hinfo e he e' he' hkey _ => ?_⟩, hinv.key_eq⟩
  · rintro hno ⟨e, he, hrole⟩ ⟨e', he', hrole'⟩ hkey
    obtain ⟨hplain, hnonce, hk⟩ := (hinv .client).encrypted e he hrole
    obtain ⟨hplain', hnonce', hk'⟩ := (hinv .server).encrypted e' he' hrole'
    have hkeys : e.key = e'.key := Option.some.inj (hk.symm.trans (hkey.trans hk'))
    have heq := hno e he e' he' hkeys (hnonce.trans hnonce'.symm)
    exact Subtype.ext (hplain.symm.trans (heq.trans hplain'))
  · -- the two are of one peer, or of the two peers
    have hcross : ∀ e ∈ s.encryptions, ∀ e' ∈ s.encryptions, e.role = .client →
        e'.role = .server → e.key = e'.key → e.plaintext = e'.plaintext := by
      intro e he e' he' hrole hrole' hkey
      obtain ⟨hplain, -, hk⟩ := (hinv .client).encrypted e he hrole
      obtain ⟨hplain', -, hk'⟩ := (hinv .server).encrypted e' he' hrole'
      have hkeys : s.key .client = s.key .server := by
        rw [Session.key, hk, Session.key, hk', hkey]
      rw [hplain, hplain', hinfo ⟨e, he, hrole⟩ ⟨e', he', hrole'⟩ hkeys]
    cases hrole : e.role <;> cases hrole' : e'.role
    · exact hinv.plaintext_eq he he' (hrole.trans hrole'.symm)
    · exact hcross e he e' he' hrole hrole' hkey
    · exact (hcross e' he' e he hrole' hrole hkey.symm).symm
    · exact hinv.plaintext_eq he he' (hrole.trans hrole'.symm)

/-! ### Two peers with different information -/

/-- A string with zeros behind it, as far as `n` bytes go. -/
def padded (n : ℕ) (s : Bytes) : Bytes := (s ++ List.replicate n 0).take n

/-- Cryptography without secrets, but with messages, keys and tags of the lengths that SPAKE2 with
Curve25519, HKDF and AES-128-GCM have. This is enough to follow a session. -/
def plainCrypto : Crypto where
  spake2Msg _ _ _ := padded 32 [1]
  spake2Process _ pswd _ msg := if msg.length = 32 then some (padded 64 pswd) else none
  spake2_agree _ _ _ := rfl
  hkdf material := padded 16 material
  aeadSeal key _ plaintext := some (plaintext ++ padded 16 key)
  aeadOpen key _ ciphertext :=
    let plaintext := ciphertext.take (ciphertext.length - 16)
    if ciphertext = plaintext ++ padded 16 key then some plaintext else none

/-- Information made of one byte. -/
def uniformInfo (b : UInt8) : PeerInfo := ⟨List.replicate kMaxPeerInfoSize b, by simp⟩

/-- Two peers with the password `[7]`, and information of their own. -/
def plainSetup (client server : UInt8) : Setup where
  crypto := plainCrypto
  password _ := [7]
  secret _ := 0
  peerInfo
    | .client => uniformInfo client
    | .server => uniformInfo server

/-- The steps of a session up to the second encryption. -/
def twoEncryptions : List Op :=
  [.start .client true, .start .server true, .readMsg .client, .readMsg .server,
    .sendInfo .client true, .sendInfo .server true]

theorem legal_twoEncryptions (a b : UInt8) : (session (plainSetup a b)).Legal {} twoEncryptions :=
  ⟨rfl, rfl, ⟨rfl, cons_ne_nil _ _⟩, ⟨rfl, cons_ne_nil _ _⟩, rfl, rfl, trivial⟩

theorem encryptions_twoEncryptions (a b : UInt8) :
    ((session (plainSetup a b)).run {} twoEncryptions).encryptions
      = [⟨.client, padded 16 [7], nonce 0, (uniformInfo a).1⟩,
        ⟨.server, padded 16 [7], nonce 0, (uniformInfo b).1⟩] :=
  rfl

/-- Two peers with the same information. -/
theorem noReuse_iff_same : NoReuse ((session (plainSetup 1 1)).run {} twoEncryptions).encryptions :=
  (noReuse_iff (plainSetup 1 1) _
    ((Machine.Reach.init rfl).run (legal_twoEncryptions 1 1))).1.mpr fun _ _ _ => rfl

/-- Two peers with different information **encrypt it under one key and one nonce**. -/
theorem reuse_of_different_info :
    (session (plainSetup 1 2)).Reach ((session (plainSetup 1 2)).run {} twoEncryptions) ∧
      (plainSetup 1 2).password .client = (plainSetup 1 2).password .server ∧
      ¬ NoReuse ((session (plainSetup 1 2)).run {} twoEncryptions).encryptions := by
  refine ⟨(Machine.Reach.init rfl).run (legal_twoEncryptions 1 2), rfl, fun hno => ?_⟩
  rw [encryptions_twoEncryptions] at hno
  have heq := hno _ mem_cons_self _ (mem_cons_of_mem _ mem_cons_self) rfl rfl
  rcases (replicate_inj.mp heq).2 with h | h
  · exact absurd h (by decide)
  · exact absurd h (by decide)

end AdbBridge.PairingConnection
