import LinkMesh.Client.Conn

/-!
# Datagrams that open under no key

`handle_peer_data` finds or creates the session of a datagram's source, and
notes what a direct packet tells about the link, before it decrypts. This
module says what is left of that when decryption fails: nothing for a known
source behind the relay, a greeting for an unknown one, and on the direct path
at most the endpoint, the transport and the liveness of the source's session.

* `handlePeerData_unopened` — one such datagram, on every path;
* `onlyGreeted_flood`       — any number of them through the relay: all
  sessions and indexes stay, and every session they add is keyed by the static
  secret of its source.
-/

namespace LinkMesh

variable {Ct : Type}

/-- The datagram opens under none of the keys there are for its source. -/
def OpensUnderNoKey (cfg : Config) (C : Crypto Ct) (srcPub : RawKey) (ct : Ct) (c : Client Ct) :
    Prop :=
  match c.peers[srcPub]? with
  | some s => C.decrypt s.currentKey ct = none ∧ C.decrypt s.handshakeKey ct = none
  | none => C.decrypt (C.sharedSecret cfg.localPriv srcPub) ct = none

/-- The same session, but for the endpoint, the transport and when the peer was
last heard of. The transport stays too when hole punching is off. -/
structure PeerSession.SameButLink (cfg : Config) (s s' : PeerSession) : Prop where
  rest : s' = { s with
    endpoint := s'.endpoint
    transport := s'.transport
    lastSeen := s'.lastSeen
    lastDirect := s'.lastDirect }
  transport : cfg.holePunchEnabled = false → s'.transport = s.transport

/-- A direct packet was noted: of the session `s` of its source the link, and
for its address the source. Nothing else changed. -/
structure LinkNoted (cfg : Config) (srcPub : RawKey) (src : SocketAddr) (s : PeerSession)
    (c c' : Client Ct) : Prop where
  session : ∃ s', s.SameButLink cfg s' ∧
    c' = { c with peers := c.peers.insert srcPub s', addrIndex := c'.addrIndex }
  other : ∀ a, a ≠ src → c'.addrIndex[a]? = c.addrIndex[a]?
  known : c.addrIndex[src]? = some srcPub → c'.addrIndex = c.addrIndex

section Stranger

variable (cfg : Config) (C : Crypto Ct) (env : Env) (srcPub : RawKey) (c : Client Ct)

/-- The session made for an unknown source. -/
def strangerSession : PeerSession :=
  .new srcPub "" (C.sharedSecret cfg.localPriv srcPub) none (env.draw c.draws).rk
    (C.publicKey (env.draw c.draws).rk) (env.draw c.draws).salt env.now

/-- The HELLO sent to an unknown source, under the static secret. -/
def strangerHello : Sealing where
  key := C.sharedSecret cfg.localPriv srcPub
  nonce := (env.draw (c.draws + 1)).nonce
  plain := .hello 0 (C.publicKey (env.draw c.draws).rk) (env.draw c.draws).salt cfg.localIp

/-- The client once it has greeted an unknown source: a session for it, and one
HELLO through the relay under the long-term keys. -/
def greeted : Client Ct :=
  let ct := (strangerHello cfg C env srcPub c).ct C
  let n := if env.sendOk c.sent.length then C.len ct else 0
  { c with
    peers := c.peers.insert srcPub { strangerSession cfg C env srcPub c with txBytes := n }
    txBytes := c.txBytes + n
    draws := c.draws + 2
    sent := c.sent ++ [(cfg.relayAddr, .relay srcPub cfg.localPub ct)] }

end Stranger

variable {cfg : Config} {C : Crypto Ct} {env : Env} {srcPub pk : RawKey} {ct : Ct} {direct : Bool}
  {src : SocketAddr} {c c' c'' : Client Ct}

-- ---------------------------------------------------------------------------
-- One datagram
-- ---------------------------------------------------------------------------

theorem greetStranger_relayed (hNone : c.peers[srcPub]? = none) :
    greetStranger cfg C env srcPub false src c = greeted cfg C env srcPub c := by
  have hRecent : ¬ cfg.relayRecoverStale < env.now - env.now := by omega
  simp only [greetStranger, hNone, getOrCreateSession, Client.draw, Bool.false_eq_true, if_false,
    Std.ExtTreeMap.getElem?_insert_self, Option.bind_some]
  -- the new session was heard of just now, and knows no relay routing key
  simp only [KeyState.buildHelloCt, PeerSession.new, DataPlane.new, Option.bind_eq_bind,
    Option.bind_some, Option.pure_def, relaySend, Std.ExtTreeMap.getElem?_insert_self, hRecent,
    if_false, sendCounted, Client.sendTo]
  unfold greeted
  dsimp only
  split
  · simp only [bumpTx, Client.update, SeqMap.modify_insert, Nat.zero_add]
    rfl
  · rfl

theorem greetStranger_direct (hNone : c.peers[srcPub]? = none) :
    greetStranger cfg C env srcPub true src c =
      { c with
        peers := c.peers.insert srcPub
          { strangerSession cfg C env srcPub c with endpoint := some src }
        addrIndex := c.addrIndex.insert src srcPub
        draws := c.draws + 1 } := by
  simp only [greetStranger, hNone, getOrCreateSession, Client.draw, if_true, Client.update,
    SeqMap.modify_insert]
  rfl

theorem noteDirect_eq {s : PeerSession} (hs : c.peers[srcPub]? = some s) :
    noteDirect cfg env srcPub src c =
      { c with
        peers := c.peers.insert srcPub (heardDirect cfg env src s)
        addrIndex := c.addrIndex.insert src srcPub } := by
  simp only [noteDirect, Client.update, SeqMap.modify_eq_insert hs]

theorem sameButLink_heardDirect {s : PeerSession} {endpoint : Option SocketAddr} :
    s.SameButLink cfg (heardDirect cfg env src { s with endpoint }) where
  rest := rfl
  transport hOff := by simp only [heardDirect, hOff, Bool.false_eq_true, if_false]

theorem linkNoted_of_eq {s s' : PeerSession} (hs : s.SameButLink cfg s') :
    LinkNoted cfg srcPub src s c
      { c with peers := c.peers.insert srcPub s', addrIndex := c.addrIndex.insert src srcPub } where
  session := ⟨s', hs, rfl⟩
  other a ha := by rw [SeqMap.getElem?_insert, if_neg ha]
  known := SeqMap.insert_eq_self

theorem openPeerData_eq_none {s : KeyState} :
    s.openPeerData C ct = none ↔
      C.decrypt s.currentKey ct = none ∧ C.decrypt s.handshakeKey ct = none := by
  unfold KeyState.openPeerData
  cases hCurrent : C.decrypt s.currentKey ct with
  | some p => simp
  | none =>
    by_cases hKey : s.handshakeKey = s.currentKey
    · simp [hKey, hCurrent]
    · simp [hKey]

/-- When decryption fails, nothing is handed to a handler. -/
theorem handlePeerData_eq {s : PeerSession}
    (hs : (greetStranger cfg C env srcPub direct src c).peers[srcPub]? = some s)
    (hCurrent : C.decrypt s.currentKey ct = none) (hHand : C.decrypt s.handshakeKey ct = none) :
    handlePeerData cfg C env srcPub ct direct src c =
      (if direct then noteDirect cfg env srcPub src (greetStranger cfg C env srcPub direct src c)
        else greetStranger cfg C env srcPub direct src c) := by
  unfold handlePeerData
  dsimp only
  generalize greetStranger cfg C env srcPub direct src c = c₁ at hs ⊢
  cases direct with
  | false =>
    simp only [Bool.false_eq_true, if_false, hs, openPeerData_eq_none.mpr ⟨hCurrent, hHand⟩]
  | true =>
    have hNoted : (noteDirect cfg env srcPub src c₁).peers[srcPub]? =
        some (heardDirect cfg env src s) := by
      rw [noteDirect_eq hs]
      exact Std.ExtTreeMap.getElem?_insert_self
    have hOpen : (heardDirect cfg env src s).openPeerData C ct = none :=
      openPeerData_eq_none.mpr ⟨hCurrent, hHand⟩
    simp only [if_true, hNoted, hOpen]

/--
**What a datagram that opens under no key changes.** A relayed one, nothing
when its source has a session, and nothing but the greeting when it has none.
A direct one, the link of its source's session, which is made first if there
is none.
-/
theorem handlePeerData_unopened (env : Env) (src : SocketAddr)
    (h : OpensUnderNoKey cfg C srcPub ct c) :
    (∀ s, c.peers[srcPub]? = some s →
      handlePeerData cfg C env srcPub ct false src c = c ∧
      LinkNoted cfg srcPub src s c (handlePeerData cfg C env srcPub ct true src c)) ∧
    (c.peers[srcPub]? = none →
      handlePeerData cfg C env srcPub ct false src c = greeted cfg C env srcPub c ∧
      LinkNoted cfg srcPub src (strangerSession cfg C env srcPub c) { c with draws := c.draws + 1 }
        (handlePeerData cfg C env srcPub ct true src c)) := by
  unfold OpensUnderNoKey at h
  constructor
  · intro s hs
    rw [hs] at h
    -- a known source is not greeted
    have hStays : ∀ direct, greetStranger cfg C env srcPub direct src c = c :=
      fun _ => greetStranger_of_mem hs
    have hThere : ∀ direct,
        (greetStranger cfg C env srcPub direct src c).peers[srcPub]? = some s := by
      intro direct
      rw [hStays, hs]
    constructor
    · rw [handlePeerData_eq (hThere false) h.1 h.2, hStays]
      rfl
    · rw [handlePeerData_eq (hThere true) h.1 h.2, hStays, if_pos rfl, noteDirect_eq hs]
      exact linkNoted_of_eq sameButLink_heardDirect
  · intro hNone
    rw [hNone] at h
    constructor
    -- both keys of a new session are the static secret, under which it stays shut
    · have hThere : (greetStranger cfg C env srcPub false src c).peers[srcPub]? =
          (greeted cfg C env srcPub c).peers[srcPub]? := by rw [greetStranger_relayed hNone]
      rw [handlePeerData_eq (hThere.trans Std.ExtTreeMap.getElem?_insert_self) h h,
        greetStranger_relayed hNone]
      rfl
    · have hThere : (greetStranger cfg C env srcPub true src c).peers[srcPub]? =
          some { strangerSession cfg C env srcPub c with endpoint := some src } := by
        rw [greetStranger_direct hNone]
        exact Std.ExtTreeMap.getElem?_insert_self
      rw [handlePeerData_eq hThere h h, if_pos rfl, noteDirect_eq hThere,
        greetStranger_direct hNone]
      simp only [SeqMap.insert_insert]
      exact linkNoted_of_eq sameButLink_heardDirect

/-- A random draw for every use. -/
def sampleEnv : Env where
  now := 100
  draw n := ⟨30 + n, 7 + n, (n, n)⟩
  sendOk _ := true
  isIp _ := true

/-- Alice before she knows any peer. -/
def aliceAlone : Client (RawKey × Nonce × Plain) where
  peers := ∅
  ipIndex := ∅
  addrIndex := ∅
  rkIndex := ∅
  txBytes := 0
  rxBytes := 0
  draws := 0
  sent := []
  tun := []
  queries := []

/-- Alice once Bob has written to her through the relay. -/
def aliceWithBob : Client (RawKey × Nonce × Plain) :=
  greeted aliceCfg symbolic sampleEnv 1 aliceAlone

/-- A datagram under a key nobody holds. -/
def forged : RawKey × Nonce × Plain := (999, (0, 0), .ack 0 5)

/-- A forged datagram from Bob's key, through the relay, changes nothing. -/
theorem handlePeerData_unopened_sample : OpensUnderNoKey aliceCfg symbolic 1 forged aliceWithBob ∧
    handlePeerData aliceCfg symbolic sampleEnv 1 forged false 90 aliceWithBob = aliceWithBob := by
  have hBob : ∃ s, aliceWithBob.peers[1]? = some s ∧
      symbolic.decrypt s.currentKey forged = none ∧ symbolic.decrypt s.handshakeKey forged = none :=
    ⟨_, Std.ExtTreeMap.getElem?_insert_self, by decide +kernel, by decide +kernel⟩
  obtain ⟨s, hs, hKeys⟩ := hBob
  have hClosed : OpensUnderNoKey aliceCfg symbolic 1 forged aliceWithBob := by
    rw [OpensUnderNoKey, hs]
    exact hKeys
  exact ⟨hClosed, ((handlePeerData_unopened sampleEnv 90 hClosed).1 s hs).1⟩

/-- A forged datagram from a key Alice does not know adds a session for it. -/
theorem forged_stranger_adds_session : OpensUnderNoKey aliceCfg symbolic 1 forged aliceAlone ∧
    1 ∉ aliceAlone.peers ∧
    1 ∈ (handlePeerData aliceCfg symbolic sampleEnv 1 forged false 90 aliceAlone).peers := by
  refine ⟨?_, ?_, ?_⟩
  · have hNone : aliceAlone.peers[1]? = none := by decide +kernel
    rw [OpensUnderNoKey, hNone]
    decide +kernel
  · decide +kernel
  · decide +kernel

-- ---------------------------------------------------------------------------
-- Any number of relayed datagrams
-- ---------------------------------------------------------------------------

/-- From `c` to `c'` nothing was added but sessions keyed by the static secret
of their peer, and the HELLOs that greet these. -/
structure OnlyGreeted (cfg : Config) (C : Crypto Ct) (c c' : Client Ct) : Prop where
  kept : ∀ (k : RawKey) s, c.peers[k]? = some s → c'.peers[k]? = some s
  added : ∀ (k : RawKey) s, c.peers[k]? = none → c'.peers[k]? = some s →
    s.currentKey = C.sharedSecret cfg.localPriv k ∧ s.handshakeKey = C.sharedSecret cfg.localPriv k
  ipIndex : c'.ipIndex = c.ipIndex
  addrIndex : c'.addrIndex = c.addrIndex
  rkIndex : c'.rkIndex = c.rkIndex
  rxBytes : c'.rxBytes = c.rxBytes
  tun : c'.tun = c.tun
  queries : c'.queries = c.queries

namespace OnlyGreeted

theorem refl : OnlyGreeted cfg C c c where
  kept _ _ hs := hs
  added k s hNone hs := by
    rw [hNone] at hs
    cases hs
  ipIndex := rfl
  addrIndex := rfl
  rkIndex := rfl
  rxBytes := rfl
  tun := rfl
  queries := rfl

theorem trans (h : OnlyGreeted cfg C c c') (h' : OnlyGreeted cfg C c' c'') :
    OnlyGreeted cfg C c c'' where
  kept k s hs := h'.kept k s (h.kept k s hs)
  added k s hNone hs := by
    cases hMid : c'.peers[k]? with
    | none => exact h'.added k s hMid hs
    | some s' =>
      cases (h'.kept k s' hMid).symm.trans hs
      exact h.added k s hNone hMid
  ipIndex := h'.ipIndex.trans h.ipIndex
  addrIndex := h'.addrIndex.trans h.addrIndex
  rkIndex := h'.rkIndex.trans h.rkIndex
  rxBytes := h'.rxBytes.trans h.rxBytes
  tun := h'.tun.trans h.tun
  queries := h'.queries.trans h.queries

/-- What opened under no key before a greeting opens under none after it. -/
theorem opensUnderNoKey (h : OnlyGreeted cfg C c c') (hClosed : OpensUnderNoKey cfg C pk ct c) :
    OpensUnderNoKey cfg C pk ct c' := by
  unfold OpensUnderNoKey at hClosed ⊢
  cases hs : c.peers[pk]? with
  | some s =>
    rw [hs] at hClosed
    rw [h.kept pk s hs]
    exact hClosed
  | none =>
    rw [hs] at hClosed
    cases hs' : c'.peers[pk]? with
    | none => exact hClosed
    | some s' =>
      obtain ⟨hCurrent, hHand⟩ := h.added pk s' hs hs'
      dsimp only at hClosed ⊢
      rw [hCurrent, hHand]
      exact ⟨hClosed, hClosed⟩

end OnlyGreeted

theorem onlyGreeted_greeted (hNone : c.peers[srcPub]? = none) :
    OnlyGreeted cfg C c (greeted cfg C env srcPub c) where
  kept k s hs := by
    have hk : k ≠ srcPub := by
      rintro rfl
      rw [hNone] at hs
      cases hs
    exact SeqMap.getElem?_insert.trans ((if_neg hk).trans hs)
  added k s hNoneK hs := by
    have hInsert := SeqMap.getElem?_insert.symm.trans hs
    split at hInsert
    · rename_i hk
      cases hInsert
      rw [hk]
      exact ⟨rfl, rfl⟩
    · rw [hNoneK] at hInsert
      cases hInsert
  ipIndex := rfl
  addrIndex := rfl
  rkIndex := rfl
  rxBytes := rfl
  tun := rfl
  queries := rfl

theorem onlyGreeted_handlePeerData (h : OpensUnderNoKey cfg C srcPub ct c) :
    OnlyGreeted cfg C c (handlePeerData cfg C env srcPub ct false src c) := by
  obtain ⟨hKnown, hStranger⟩ := handlePeerData_unopened env src h
  cases hs : c.peers[srcPub]? with
  | some s =>
    rw [(hKnown s hs).1]
    exact .refl
  | none =>
    rw [(hStranger hs).1]
    exact onlyGreeted_greeted hs

/-- The ciphertexts of a relayed datagram, each with the key in front of it. -/
def Datagram.parts : Datagram Ct → List (RawKey × Ct)
  | .direct _ => []
  | .relay _ srcPub ct => [(srcPub, ct)]
  | .relayRk _ srcRk ct => [(srcRk, ct)]
  | .relayBatch _ subframes => subframes.filterMap id

/-- No part of the datagram opens, whether the key in front of it is taken for
a long-term key or for a relay routing key. -/
def Unopened (cfg : Config) (C : Crypto Ct) (pkt : Datagram Ct) (c : Client Ct) : Prop :=
  ∀ part ∈ pkt.parts, ∀ pk, pk = part.1 ∨ c.rkIndex[part.1]? = some pk →
    OpensUnderNoKey cfg C pk part.2 c

theorem OnlyGreeted.unopened {pkt : Datagram Ct} (h : OnlyGreeted cfg C c c')
    (hClosed : Unopened cfg C pkt c) : Unopened cfg C pkt c' := by
  intro part hPart pk hpk
  rw [h.rkIndex] at hpk
  exact h.opensUnderNoKey (hClosed part hPart pk hpk)

theorem resolveSubframe_cases (key : RawKey) : resolveSubframe key c = key ∨
    c.rkIndex[key]? = some (resolveSubframe key c) := by
  unfold resolveSubframe
  split
  · exact .inl rfl
  · cases hRk : c.rkIndex[key]? with
    | none => exact .inl rfl
    | some pk => exact .inr rfl

/-- The subframes of a batch, one after the other. -/
theorem onlyGreeted_batch {dest : RawKey} (subframes : List (Option (RawKey × Ct)))
    (h : Unopened cfg C (.relayBatch dest subframes) c) :
    OnlyGreeted cfg C c (subframes.foldl (handleSubframe cfg C env src) c) := by
  induction subframes generalizing c with
  | nil => exact .refl
  | cons sf subframes ih =>
    rw [List.foldl_cons]
    cases sf with
    | none => exact ih h
    | some part =>
      obtain ⟨key, ct⟩ := part
      have hHead : OnlyGreeted cfg C c (handleSubframe cfg C env src c (some (key, ct))) :=
        onlyGreeted_handlePeerData
          (h (key, ct) (List.mem_cons_self ..) _ (resolveSubframe_cases key))
      have hTail : Unopened cfg C (.relayBatch dest subframes) c :=
        fun part hPart => h part (List.mem_cons_of_mem _ hPart)
      exact hHead.trans (ih (hHead.unopened hTail))

theorem onlyGreeted_handleUdp {pkt : Datagram Ct} (hRelayed : ∀ ct, pkt ≠ .direct ct)
    (h : Unopened cfg C pkt c) : OnlyGreeted cfg C c (handleUdp cfg C env src pkt c) := by
  unfold handleUdp
  cases pkt with
  | direct ct => exact absurd rfl (hRelayed ct)
  | relay dest srcPub ct =>
    dsimp only
    split
    · exact .refl
    · exact onlyGreeted_handlePeerData (h (srcPub, ct) (List.mem_singleton.mpr rfl) _ (.inl rfl))
  | relayRk dest srcRk ct =>
    dsimp only
    split
    · exact .refl
    · split
      · rename_i hRk
        exact onlyGreeted_handlePeerData (h (srcRk, ct) (List.mem_singleton.mpr rfl) _ (.inr hRk))
      · exact .refl
  | relayBatch dest subframes =>
    dsimp only
    split
    · exact .refl
    · exact onlyGreeted_batch subframes h

/--
**A flood of forged datagrams.** However many relayed datagrams arrive, from
whatever address: as long as no part of them opens, every session and every
index stays as it was, and nothing reaches the TUN.
-/
theorem onlyGreeted_flood (flood : List (Env × SocketAddr × Datagram Ct))
    (hRelayed : ∀ d ∈ flood, ∀ ct, d.2.2 ≠ .direct ct)
    (h : ∀ d ∈ flood, Unopened cfg C d.2.2 c) :
    OnlyGreeted cfg C c
      (flood.foldl (fun c (env, src, pkt) => handleUdp cfg C env src pkt c) c) := by
  induction flood generalizing c with
  | nil => exact .refl
  | cons d flood ih =>
    have hHead : OnlyGreeted cfg C c (handleUdp cfg C d.1 d.2.1 d.2.2 c) :=
      onlyGreeted_handleUdp (hRelayed d (List.mem_cons_self ..)) (h d (List.mem_cons_self ..))
    exact hHead.trans (ih (fun d' hd' => hRelayed d' (List.mem_cons_of_mem _ hd'))
      fun d' hd' => hHead.unopened (h d' (List.mem_cons_of_mem _ hd')))

end LinkMesh
