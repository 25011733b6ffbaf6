import LinkMesh.Client.Indexes
import LinkMesh.Pair.World

/-!
# The contacts of a client

What the handlers of a client do, seen from its sessions. Of each peer a client
has the session of the moment, or none, and behind it the history of all it has
had. A handler is a list of acts: locked sections on sessions, sessions that
begin, and sessions that end. What it sends are frames that these sections
sealed, and what it hands to the TUN is what they delivered.

`Performs` says so of a handler, and what it was asked to send and which routing
keys it drew beside it.

## Results

* `performs_*`               — the acts of each handler.
* `performs_handlePeerData`  — a tunnel packet opens on the session of its source
  and runs the section of its content, between acts of the client's own.
-/

namespace LinkMesh

variable {Ct : Type}

-- ---------------------------------------------------------------------------
-- Acts
-- ---------------------------------------------------------------------------

inductive Act where
  /-- a session begins, unless there is one -/
  | create (pk : RawKey) (now : Instant) (d : Draw)
  | run (pk : RawKey) (e : Event)
  | remove (pk : RawKey)
  /-- a frame is sealed by a session with the peer that was removed -/
  | stale (pk : RawKey) (f : Sealing)

namespace Act

/-- Whether the client acts on its own, not for a received frame. -/
def isLocal : Act → Bool
  | .run _ e => e.isLocal
  | _ => true

/-- Whether the client acts on its own, on sessions that go on. -/
def isOwn : Act → Bool
  | .create .. => true
  | .run _ e => e.isLocal
  | _ => false

/-- The private routing key that may be drawn. -/
def drawnRk : Act → Option RawKey
  | .create _ _ d => some d.rk
  | .run _ e => e.drawnRk
  | .remove _ => none
  | .stale .. => none

def peer : Act → RawKey
  | .create pk _ _ => pk
  | .run pk _ => pk
  | .remove pk => pk
  | .stale pk _ => pk

end Act

/-- The latest session with each peer and its history, the peers with which there
is a session now, and the payloads handed to the TUN, each with its source. -/
structure Contacts where
  node : RawKey → Option Node
  live : RawKey → Bool
  heard : List (RawKey × Bytes)

/-- The values that go with the peer, in their order. -/
def ofPeer (pk : RawKey) (xs : List (RawKey × Bytes)) : List Bytes :=
  (xs.filter fun x => x.1 = pk).map Prod.snd

/-- `PeerSession::new`, as the handlers call it. -/
def beginning (cfg : Config) (C : Crypto Ct) (pk : RawKey) (now : Instant) (d : Draw) : DataPlane :=
  .new pk (C.sharedSecret cfg.localPriv pk) d.rk (C.publicKey d.rk) d.salt now

namespace Contacts

def empty : Contacts := ⟨fun _ => none, fun _ => false, []⟩

/-- The session with a peer, if there is one now. -/
def session (l : Contacts) (pk : RawKey) : Option Node := if l.live pk then l.node pk else none

def plane (l : Contacts) (pk : RawKey) : Option DataPlane := (l.session pk).map Node.dp

/-- A session that begins, behind it the history of those before. -/
def renew (dp : DataPlane) : Option Node → Node
  | none => .start dp
  | some n => n.restart dp

def next (cfg : Config) (C : Crypto Ct) (l : Contacts) : Act → Contacts
  | .create pk now d =>
    match l.session pk with
    | some _ => l
    | none =>
      { l with
        node := Function.update l.node pk (some (renew (beginning cfg C pk now d) (l.node pk)))
        live := Function.update l.live pk true }
  | .run pk e =>
    match l.session pk with
    | none => l
    | some n =>
      { l with
        node := Function.update l.node pk (some (n.step cfg C e))
        heard := l.heard ++ (n.dp.step cfg C e).2.delivered.map fun p => (pk, p) }
  | .remove pk => { l with live := Function.update l.live pk false }
  | .stale pk f =>
    match l.node pk with
    | none => l
    | some n => { l with node := Function.update l.node pk (some { n with sealed := n.sealed ++ [f] }) }

def run (cfg : Config) (C : Crypto Ct) (l : Contacts) (as : List Act) : Contacts := as.foldl (next cfg C) l

/-- The datagram was sealed by one of the sessions. -/
def Sealed (C : Crypto Ct) (l : Contacts) (ct : Ct) : Prop :=
  ∃ pk n, l.node pk = some n ∧ ∃ f ∈ n.sealed, f.ct C = ct

/-- Of the packets `asked` for each peer, in their order, some were stored for it
and some after these are held back, none of them once the handshake is complete. -/
def Owes (l : Contacts) (asked : List (RawKey × Bytes)) : Prop :=
  ∀ pk n, l.node pk = some n →
    (n.stored.map Prod.snd ++ n.dp.pending).Sublist (ofPeer pk asked) ∧
      (n.dp.established = true → n.dp.pending = [])

variable {cfg : Config} {C : Crypto Ct} {l : Contacts} {pk k : RawKey} {e : Event} {n : Node} {ct : Ct}
  {as bs : List Act}

theorem run_append : l.run cfg C (as ++ bs) = (l.run cfg C as).run cfg C bs := List.foldl_append

theorem node_of_session (h : l.session pk = some n) : l.node pk = some n := by
  unfold session at h
  split at h
  · exact h
  · cases h

theorem node_run (h : l.session pk = some n) :
    (l.next cfg C (.run pk e)).node k = if k = pk then some (n.step cfg C e) else l.node k := by
  simp only [next, h, Function.update_apply]

theorem node_create {now : Instant} {d : Draw} (h : l.session pk = none) :
    (l.next cfg C (.create pk now d)).node k =
      if k = pk then some (renew (beginning cfg C pk now d) (l.node pk)) else l.node k := by
  simp only [next, h, Function.update_apply]

theorem node_stale {f : Sealing} (h : l.node pk = some n) :
    (l.next cfg C (.stale pk f)).node k = if k = pk then some { n with sealed := n.sealed ++ [f] } else l.node k := by
  simp only [next, h, Function.update_apply]

/-- The session that a section ran on. -/
theorem session_run (h : l.session pk = some n) :
    (l.next cfg C (.run pk e)).session pk = some (n.step cfg C e) := by
  have hLive : l.live pk = true := by
    by_contra hNot
    simp [session, hNot] at h
  simp only [next, h]
  simp [session, hLive]

/-- A section leaves the sessions with others alone. -/
theorem session_run_ne (h : k ≠ pk) : (l.next cfg C (.run pk e)).session k = l.session k := by
  cases hs : l.session pk with
  | none => simp only [next, hs]
  | some n =>
    simp only [next, hs]
    simp only [session, Function.update_of_ne h]

theorem plane_run : (l.next cfg C (.run pk e)).plane k =
    if k = pk then (l.plane k).map fun s => (s.step cfg C e).1 else l.plane k := by
  unfold plane
  by_cases hk : k = pk
  · subst hk
    rw [if_pos rfl]
    cases hs : l.session k with
    | none => simp [next, hs]
    | some n => simp [session_run hs]
  · rw [if_neg hk, session_run_ne hk]

theorem plane_create {now : Instant} {d : Draw} (h : l.plane pk = none) :
    (l.next cfg C (.create pk now d)).plane k =
      if k = pk then some (beginning cfg C pk now d) else l.plane k := by
  have hNone : l.session pk = none := Option.map_eq_none_iff.mp h
  unfold plane
  simp only [next, hNone]
  by_cases hk : k = pk
  · subst hk
    cases hn : l.node k with
    | none => simp [session, renew, Node.start]
    | some n => simp [session, renew, Node.restart]
  · simp only [session, Function.update_of_ne hk, if_neg hk]

theorem plane_remove : (l.next cfg C (.remove pk)).plane k = if k = pk then none else l.plane k := by
  by_cases hk : k = pk
  · subst hk
    simp [next, plane, session]
  · simp [next, plane, session, hk]

/-- The rule for what is said of the session with each peer by itself. -/
theorem each_next {P : RawKey → Node → Prop} {a : Act} (h : ∀ pk n, l.node pk = some n → P pk n)
    (hStart : ∀ pk now d, P pk (.start (beginning cfg C pk now d)))
    (hRestart : ∀ pk now d n, P pk n → P pk (n.restart (beginning cfg C pk now d)))
    (hRun : ∀ pk e n, a = .run pk e → P pk n → P pk (n.step cfg C e))
    (hStale : ∀ pk f n, a = .stale pk f → P pk n → P pk { n with sealed := n.sealed ++ [f] }) :
    ∀ pk n, (l.next cfg C a).node pk = some n → P pk n := by
  intro k m hm
  cases a with
  | create pk now d =>
    cases hs : l.session pk with
    | some n =>
      simp only [next, hs] at hm
      exact h k m hm
    | none =>
      rw [node_create hs] at hm
      split at hm
      · rename_i hk
        subst hk
        cases hm
        cases hn : l.node k with
        | none => exact hStart k now d
        | some n => exact hRestart k now d n (h k n hn)
      · exact h k m hm
  | run pk e =>
    cases hs : l.session pk with
    | none =>
      simp only [next, hs] at hm
      exact h k m hm
    | some n =>
      rw [node_run hs] at hm
      split at hm
      · rename_i hk
        subst hk
        cases hm
        exact hRun k e n rfl (h k n (node_of_session hs))
      · exact h k m hm
  | remove pk => exact h k m hm
  | stale pk f =>
    cases hn : l.node pk with
    | none =>
      simp only [next, hn] at hm
      exact h k m hm
    | some n =>
      rw [node_stale hn] at hm
      split at hm
      · rename_i hk
        subst hk
        cases hm
        exact hStale k f n rfl (h k n hn)
      · exact h k m hm

/-- Frames that were sealed stay so. -/
theorem Sealed.next (h : l.Sealed C ct) (a : Act) : (l.next cfg C a).Sealed C ct := by
  obtain ⟨pk, n, hn, f, hf, hct⟩ := h
  -- the node is the same, or one with more behind it
  have hKept : ∀ {k : RawKey} {m : Node}, (l.node k = some n → f ∈ m.sealed) →
      ∃ n', Function.update l.node k (some m) pk = some n' ∧ f ∈ n'.sealed := by
    intro k m hm
    by_cases hk : pk = k
    · subst hk
      exact ⟨m, Function.update_self .., hm hn⟩
    · exact ⟨n, (Function.update_of_ne hk ..).trans hn, hf⟩
  cases a with
  | create k now d =>
    cases hs : l.session k with
    | some m =>
      simp only [Contacts.next, hs]
      exact ⟨pk, n, hn, f, hf, hct⟩
    | none =>
      simp only [Contacts.next, hs]
      obtain ⟨n', hn', hf'⟩ := hKept (k := k) (m := renew (beginning cfg C k now d) (l.node k)) (by
        intro hk
        rw [hk]
        exact hf)
      exact ⟨pk, n', hn', f, hf', hct⟩
  | run k e =>
    cases hs : l.session k with
    | none =>
      simp only [Contacts.next, hs]
      exact ⟨pk, n, hn, f, hf, hct⟩
    | some m =>
      simp only [Contacts.next, hs]
      obtain ⟨n', hn', hf'⟩ := hKept (k := k) (m := m.step cfg C e) (by
        intro hk
        rw [node_of_session hs] at hk
        cases hk
        exact List.mem_append_left _ hf)
      exact ⟨pk, n', hn', f, hf', hct⟩
  | remove k => exact ⟨pk, n, hn, f, hf, hct⟩
  | stale k g =>
    cases hs : l.node k with
    | none =>
      simp only [Contacts.next, hs]
      exact ⟨pk, n, hn, f, hf, hct⟩
    | some m =>
      simp only [Contacts.next, hs]
      obtain ⟨n', hn', hf'⟩ := hKept (k := k) (m := { m with sealed := m.sealed ++ [g] }) (by
        intro hk
        cases hs.symm.trans hk
        exact List.mem_append_left _ hf)
      exact ⟨pk, n', hn', f, hf', hct⟩

theorem Sealed.run (h : l.Sealed C ct) (as : List Act) : (l.run cfg C as).Sealed C ct := by
  induction as generalizing l with
  | nil => exact h
  | cons a as ih => exact ih (h.next a)

/-- What a section seals. -/
theorem sealed_run {s : DataPlane} {f : Sealing} (hs : l.plane pk = some s)
    (hf : f ∈ (s.step cfg C e).2.sealed) : (l.next cfg C (.run pk e)).Sealed C (f.ct C) := by
  obtain ⟨n, hn, rfl⟩ := Option.map_eq_some_iff.mp hs
  refine ⟨pk, _, node_of_session (session_run hn), f, ?_, rfl⟩
  exact List.mem_append_right _ hf

end Contacts

-- ---------------------------------------------------------------------------
-- A client and its contacts
-- ---------------------------------------------------------------------------

/-- The ciphertexts in a datagram. -/
def Datagram.cts : Datagram Ct → List Ct
  | .direct ct => [ct]
  | .relay _ _ ct => [ct]
  | .relayRk _ _ ct => [ct]
  | .relayBatch _ subframes => subframes.filterMap fun sf => sf.map Prod.snd

/-- The client's sessions are those of `l`, all that it sent was sealed by one of
them, and all that the TUN got was delivered by one of them. -/
structure Client.Shows (C : Crypto Ct) (c : Client Ct) (l : Contacts) : Prop where
  plane : ∀ pk, c.plane pk = l.plane pk
  sent : ∀ d ∈ c.sent, ∀ ct ∈ d.2.cts, l.Sealed C ct
  tun : c.tun = l.heard.map Prod.snd

variable {cfg : Config} {C : Crypto Ct} {env : Env} {pk k : RawKey} {e : Event} {ct : Ct}
  {l : Contacts} {c c' c'' : Client Ct}

namespace Client.Shows

/-- The client does something else than a section. -/
theorem of_same (h : c.Shows C l) (hPlane : ∀ k, c'.plane k = c.plane k) (hSent : c'.sent = c.sent)
    (hTun : c'.tun = c.tun) : c'.Shows C l where
  plane k := (hPlane k).trans (h.plane k)
  sent := by
    rw [hSent]
    exact h.sent
  tun := hTun.trans h.tun

/-- A change of a session that leaves its data plane alone. -/
theorem update {f : PeerSession → PeerSession} (h : c.Shows C l)
    (hf : ∀ s, (f s).toDataPlane = s.toDataPlane) : (c.update pk f).Shows C l :=
  h.of_same (Client.plane_update hf) rfl rfl

/-- A frame that was sealed before goes out. -/
theorem of_sends (h : c.Shows C l) (hSends : Sends pk c c')
    (hNew : ∀ d ∈ c'.sent, d ∈ c.sent ∨ d.2.cts = [ct]) (hSealed : l.Sealed C ct) : c'.Shows C l where
  plane k := (hSends.plane k).trans (h.plane k)
  sent d hd ct' hct := by
    rcases hNew d hd with hOld | hOne
    · exact h.sent d hOld ct' hct
    · rw [hOne, List.mem_singleton] at hct
      rw [hct]
      exact hSealed
  tun := hSends.tun.trans h.tun

end Client.Shows

theorem sent_sendCounted {addr : SocketAddr} {dg : Datagram Ct} {n : Nat} :
    (sendCounted env pk addr dg n c).sent = c.sent ++ [(addr, dg)] := by
  unfold sendCounted
  dsimp only
  split <;> rfl

theorem sent_relaySend {d : SocketAddr × Datagram Ct} (hd : d ∈ (relaySend cfg C env pk ct c).sent) :
    d ∈ c.sent ∨ d.2.cts = [ct] := by
  unfold relaySend at hd
  dsimp only at hd
  rw [sent_sendCounted] at hd
  rcases List.mem_append.mp hd with hOld | hNew
  · exact .inl hOld
  · obtain rfl := List.mem_singleton.mp hNew
    right
    split <;> rfl

theorem sent_transportSend {d : SocketAddr × Datagram Ct} (hd : d ∈ (transportSend cfg C env pk ct c).sent) :
    d ∈ c.sent ∨ d.2.cts = [ct] := by
  unfold transportSend at hd
  dsimp only at hd
  split at hd
  · split at hd
    · exact sent_relaySend hd
    · split at hd
      · split at hd
        -- the transport is changed first
        · rcases sent_relaySend hd with hOld | hNew
          · exact .inl hOld
          · exact .inr hNew
        · rw [sent_sendCounted] at hd
          rcases List.mem_append.mp hd with hOld | hNew
          · exact .inl hOld
          · obtain rfl := List.mem_singleton.mp hNew
            exact .inr rfl
      · exact sent_relaySend hd
  · exact sent_relaySend hd
  · exact sent_relaySend hd

namespace Client.Shows

theorem sendTo (env : Env) {addr : SocketAddr} {dg : Datagram Ct} (h : c.Shows C l) (hSealed : ∀ ct ∈ dg.cts, l.Sealed C ct) :
    (c.sendTo env addr dg).1.Shows C l where
  plane := h.plane
  sent d hd ct hct := by
    rcases List.mem_append.mp hd with hOld | hNew
    · exact h.sent d hOld ct hct
    · obtain rfl := List.mem_singleton.mp hNew
      exact hSealed ct hct
  tun := h.tun

theorem relaySend (h : c.Shows C l) (hSealed : l.Sealed C ct) : (relaySend cfg C env pk ct c).Shows C l :=
  h.of_sends sends_relaySend (fun _ => sent_relaySend) hSealed

theorem transportSend (h : c.Shows C l) (hSealed : l.Sealed C ct) :
    (transportSend cfg C env pk ct c).Shows C l :=
  h.of_sends sends_transportSend (fun _ => sent_transportSend) hSealed

theorem transmit {f : Option Sealing} (h : c.Shows C l) (hSealed : ∀ g ∈ f, l.Sealed C (g.ct C)) :
    (transmit cfg C env pk f c).Shows C l := by
  cases f with
  | none => exact h
  | some g => exact h.transportSend (hSealed g rfl)

theorem requery (h : c.Shows C l) : (requery env pk c).Shows C l := by
  refine h.of_same sends_requery.plane ?_ sends_requery.tun
  unfold LinkMesh.requery
  split
  · rfl
  · split <;> rfl

theorem draw (h : c.Shows C l) : (c.draw env).2.Shows C l := h.of_same (fun _ => rfl) rfl rfl

/-- A section is an act. -/
theorem locked {α : Type} {f : DataPlane → DataPlane × α} (h : c.Shows C l)
    (hf : ∀ s, c.plane pk = some s → (f s).1 = (s.step cfg C e).1)
    (hTun : ∀ s : DataPlane, (s.step cfg C e).2.delivered = []) :
    (c.locked pk f).1.Shows C (l.next cfg C (.run pk e)) where
  plane k := by
    rw [Client.plane_locked, Contacts.plane_run, ← h.plane]
    split
    · rename_i hk
      subst hk
      cases hs : c.plane k with
      | none => rfl
      | some s => exact congrArg some (hf s hs)
    · rfl
  sent d hd ct hct := by
    have hSame : (c.locked pk f).1.sent = c.sent := by
      unfold Client.locked
      split <;> rfl
    rw [hSame] at hd
    exact (h.sent d hd ct hct).next _
  tun := by
    have hSame : (c.locked pk f).1.tun = c.tun := by
      unfold Client.locked
      split <;> rfl
    have hHeard : (l.next cfg C (.run pk e)).heard = l.heard := by
      simp only [Contacts.next]
      split
      · rfl
      · simp [hTun]
    rw [hSame, hHeard, h.tun]

/-- A section with the frame it seals. -/
theorem sendSection {f : DataPlane → DataPlane × Option Sealing} (h : c.Shows C l)
    (hf : ∀ s, c.plane pk = some s → (f s).1 = (s.step cfg C e).1 ∧ (s.step cfg C e).2.sealed = (f s).2.toList)
    (hTun : ∀ s : DataPlane, (s.step cfg C e).2.delivered = []) :
    (sendSection cfg C env pk f c).Shows C (l.next cfg C (.run pk e)) := by
  have hLocked : (c.locked pk f).1.Shows C (l.next cfg C (.run pk e)) := h.locked (fun s hs => (hf s hs).1) hTun
  show (LinkMesh.transmit cfg C env pk (c.locked pk f).2.join (c.locked pk f).1).Shows C _
  refine hLocked.transmit ?_
  intro g hg
  unfold Client.locked at hg
  split at hg
  · cases hg
  · rename_i s hs
    have hPlane : c.plane pk = some s.toDataPlane := by
      rw [Client.plane, hs]
      rfl
    refine Contacts.sealed_run ((h.plane pk).symm.trans hPlane) ?_
    rw [(hf _ hPlane).2]
    exact Option.mem_toList.mpr hg

end Client.Shows

-- ---------------------------------------------------------------------------
-- What is owed to the peers
-- ---------------------------------------------------------------------------

/-- Whether the section leaves the packets to be sent alone, and the handshake. -/
def Event.isQuiet : Event → Bool
  | .sealData .. => false
  | .takePending => false
  | .handleHello .. => false
  | _ => true

/-- Only DATA is delivered. -/
theorem step_delivered {s : DataPlane} (h : ∀ d k q p, e ≠ .recvData d k q p) :
    (s.step cfg C e).2.delivered = [] := by
  cases e with
  | resend now seq =>
    simp only [DataPlane.step]
    split
    · rfl
    · split <;> rfl
  | recvData d k q p => exact absurd rfl (h d k q p)
  | _ => rfl

theorem step_quiet {s : DataPlane} (h : e.isQuiet = true) : (s.step cfg C e).2.stored = [] ∧
    (s.step cfg C e).1.pending = s.pending ∧ (s.step cfg C e).1.established = s.established := by
  have hWindow := DataPlane.step_windowStep cfg C s e
  have hKeys := DataPlane.step_keyStep cfg C s e
  have hStored : (s.step cfg C e).2.transfers.stored = (s.step cfg C e).2.stored := rfl
  have hEstablished : (s.step cfg C e).1.toKeyState.established = s.established := by
    generalize (s.step cfg C e).1.toKeyState = keys, DataPlane.handshakes _ = frames at hKeys
    cases hKeys with
    | idle => rfl
    | announce => rfl
    | rotate hSome =>
      obtain ⟨hEst, -, rk, -, rfl, -⟩ := KeyState.maybeRekey_eq_some.mp hSome
      exact hEst.symm
    | rotateCount hSome =>
      obtain ⟨hEst, -, rk, -, rfl, -⟩ := KeyState.maybeRekey_eq_some.mp hSome
      exact hEst.symm
    | accept => cases h
    | follow =>
      unfold KeyState.handleRekey
      split
      · rfl
      · rename_i hGo
        push Not at hGo
        split
        · rfl
        · exact (eq_true_of_ne_false hGo.1).symm
  refine ⟨?_, ?_, hEstablished⟩
  · rw [← hStored]
    generalize (s.step cfg C e).1.toWindow = w, (s.step cfg C e).2.transfers = out at hWindow
    cases hWindow with
    | store => cases h
    | _ => rfl
  · generalize (s.step cfg C e).1.toWindow = w, (s.step cfg C e).2.transfers = out at hWindow
    cases hWindow with
    | hold => cases h
    | hello => cases h
    | take => cases h
    | _ => rfl

/-- A window of packets that is numbered anew holds back what it held back. -/
theorem pending_foldl_push {now : Instant} (ps : List Bytes) (w : Window) :
    (ps.foldl (Window.push now) w).pending = w.pending := by
  induction ps generalizing w with
  | nil => rfl
  | cons p ps ih => exact ih _

/-- A HELLO completes the handshake and stores no packet. -/
theorem step_hello {s : DataPlane} {now : Instant} {d : Draw} {rk : RawKey} {salt : Salt} :
    (s.step cfg C (.handleHello now d rk salt)).2.stored = [] ∧
      (s.step cfg C (.handleHello now d rk salt)).1.pending = s.pending ∧
      (s.step cfg C (.handleHello now d rk salt)).1.established = true := by
  refine ⟨rfl, ?_, rfl⟩
  show (s.toWindow.acceptHello now _ _).pending = s.pending
  unfold Window.acceptHello
  dsimp only
  split
  · split
    · exact pending_foldl_push _ _
    · exact pending_foldl_push _ _
  · split <;> rfl

theorem ofPeer_append {xs ys : List (RawKey × Bytes)} : ofPeer pk (xs ++ ys) = ofPeer pk xs ++ ofPeer pk ys := by
  simp [ofPeer]

theorem ofPeer_map {ps : List Bytes} : ofPeer pk (ps.map fun p => (k, p)) = if k = pk then ps else [] := by
  by_cases hk : k = pk
  · simp [ofPeer, hk, List.filter_map, Function.comp_def]
  · simp [ofPeer, hk]

namespace Contacts.Owes

variable {asked xs ys : List (RawKey × Bytes)}

theorem mono (h : l.Owes xs) : l.Owes (xs ++ ys) := by
  intro k n hn
  obtain ⟨hSub, hHeld⟩ := h k n hn
  rw [ofPeer_append]
  exact ⟨hSub.trans (List.sublist_append_left _ _), hHeld⟩

/-- A section on the session with one peer. -/
theorem run {e : Event} (h : l.Owes xs)
    (hStep : ∀ n, l.session pk = some n → (n.stored.map Prod.snd ++ n.dp.pending).Sublist (ofPeer pk xs) →
      (n.dp.established = true → n.dp.pending = []) →
      ((n.step cfg C e).stored.map Prod.snd ++ (n.step cfg C e).dp.pending).Sublist (ofPeer pk (xs ++ ys)) ∧
        ((n.step cfg C e).dp.established = true → (n.step cfg C e).dp.pending = [])) :
    (l.next cfg C (.run pk e)).Owes (xs ++ ys) := by
  cases hs : l.session pk with
  | none =>
    simp only [Contacts.next, hs]
    exact h.mono
  | some n =>
    intro k m hm
    rw [node_run hs] at hm
    split at hm
    · rename_i hk
      subst hk
      cases hm
      obtain ⟨hSub, hHeld⟩ := h k n (node_of_session hs)
      exact hStep n hs hSub hHeld
    · exact h.mono k m hm

/-- Sessions begin with nothing to send. -/
theorem create {now : Instant} {d : Draw} (h : l.Owes xs) : (l.next cfg C (.create pk now d)).Owes xs := by
  cases hs : l.session pk with
  | some n =>
    simp only [Contacts.next, hs]
    exact h
  | none =>
    intro k m hm
    rw [node_create hs] at hm
    split at hm
    · rename_i hk
      subst hk
      cases hm
      cases hn : l.node k with
      | none => exact ⟨List.nil_sublist _, fun _ => rfl⟩
      | some n =>
        refine ⟨?_, fun _ => rfl⟩
        show (n.stored.map Prod.snd ++ []).Sublist (ofPeer k xs)
        exact ((List.append_sublist_append_left _).mpr (List.nil_sublist _)).trans (h k n hn).1
    · exact h k m hm

theorem quiet (hQuiet : e.isQuiet = true) (h : l.Owes xs) : (l.next cfg C (.run pk e)).Owes xs := by
  have hRun : (l.next cfg C (.run pk e)).Owes (xs ++ []) := by
    refine h.run fun n _ hSub hHeld => ?_
    obtain ⟨hStored, hPending, hEst⟩ : (n.dp.step cfg C e).2.stored = [] ∧
      (n.dp.step cfg C e).1.pending = n.dp.pending ∧ (n.dp.step cfg C e).1.established = n.dp.established :=
        step_quiet hQuiet
    have hSame : (n.step cfg C e).stored = n.stored := by
      show n.stored ++ (n.dp.step cfg C e).2.stored = n.stored
      rw [hStored, List.append_nil]
    rw [hSame, Node.step_dp, hPending, List.append_nil]
    refine ⟨hSub, fun hNow => hHeld ?_⟩
    exact hEst.symm.trans hNow
  rwa [List.append_nil] at hRun

/-- A packet is stored, held back or dropped. -/
theorem sealData {now : Instant} {p : Bytes} (h : l.Owes xs) :
    (l.next cfg C (.run pk (.sealData now p))).Owes (xs ++ [(pk, p)]) := by
  refine h.run fun n _ hSub hHeld => ?_
  have hAsked : ofPeer pk (xs ++ [(pk, p)]) = ofPeer pk xs ++ [p] := by
    rw [ofPeer_append]
    simp [ofPeer]
  rw [hAsked]
  simp only [Node.step, DataPlane.step, DataPlane.sealData]
  split
  · rename_i hNot
    refine ⟨?_, fun hNow => ?_⟩
    · simp only [Option.toList_none, List.map_nil, List.append_nil]
      rw [← List.append_assoc]
      refine List.Sublist.append_right (List.Sublist.trans ?_ hSub) _
      refine (List.append_sublist_append_left _).mpr ?_
      split
      · exact List.tail_sublist _
      · exact List.Sublist.refl _
    · rw [hNot] at hNow
      cases hNow
  · rename_i hEst
    have hNone : n.dp.pending = [] := hHeld (eq_true_of_ne_false hEst)
    rw [hNone, List.append_nil] at hSub
    split
    · simp only [Option.toList_none, List.map_nil, List.append_nil, hNone]
      exact ⟨hSub.trans (List.sublist_append_left _ _), fun _ => trivial⟩
    · simp only [Option.toList_some, List.map_cons, List.map_nil, List.map_append, Window.push, hNone,
        List.append_nil]
      exact ⟨hSub.append_right _, fun _ => trivial⟩

end Contacts.Owes

end LinkMesh
