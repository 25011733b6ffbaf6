import LinkMesh.Server.JoinRuns
import LinkMesh.Server.Site

/-!
# Join codes over whole runs

What a join code is good for (`linkmesh-server/src/mesh.rs` and
`linkmesh-server/src/signaling.rs`): how often it lets a device in, and whether
the IP bound to it is the one that the device gets. The server handles one call
at a time, and calls of the registry may come in between.

A code is known by its hash, as in the registry.

## Results

* `redeemed_once`  — a code is answered with a certificate at most once.
* `bound_ip_never` — an IP that is bound to a code that can be used is granted
  to nobody.
-/

namespace LinkMesh

variable {Ct : Type}

-- ---------------------------------------------------------------------------
-- Spending join codes
-- ---------------------------------------------------------------------------

/-- Join codes are spent and dropped, and none is made. -/
structure Spends (old new : List InviteEntry) : Prop where
  hashes : (new.map (·.codeHash)).Sublist (old.map (·.codeHash))
  origin : ∀ e ∈ new, ∃ e' ∈ old, e.codeHash = e'.codeHash ∧ e.expiresAt = e'.expiresAt ∧
    (e'.used = true → e.used = true)

/-- Every entry of this code is spent, or has run out before the time `now`. -/
def Settled (now : Nat) (invites : List InviteEntry) (hash : String) : Prop :=
  ∀ e ∈ invites, e.codeHash = hash → e.used = true ∨ e.expiresAt < now

theorem Spends.refl (l : List InviteEntry) : Spends l l :=
  ⟨List.Sublist.refl _, fun e he => ⟨e, he, rfl, rfl, id⟩⟩

theorem Spends.settled {old new : List InviteEntry} {hash : String} {now later : Nat}
    (h : Spends old new) (hOld : Settled now old hash) (hLater : now ≤ later) :
    Settled later new hash := by
  intro e he hHash
  obtain ⟨e', he', hSame, hExpires, hUsed⟩ := h.origin e he
  rcases hOld e' he' (hSame.symm.trans hHash) with hSpent | hOut
  · exact .inl (hUsed hSpent)
  · right
    omega

/-- With one entry for each code, the entry that is spent is the only one. -/
theorem settled_modifyFirst {l : List InviteEntry} {hash : String} {now : Nat}
    (h : (l.map (·.codeHash)).Nodup) :
    Settled now (modifyFirst (·.codeHash = hash) ({ · with used := true }) l) hash := by
  induction l with
  | nil => exact fun e he => absurd he List.not_mem_nil
  | cons a l ih =>
    rw [List.map_cons, List.nodup_cons] at h
    obtain ⟨hHead, hTail⟩ := h
    intro e he hHash
    unfold modifyFirst at he
    split at he
    · rename_i hSpent
      have hSpent : a.codeHash = hash := by simpa using hSpent
      rcases List.mem_cons.mp he with rfl | hLater
      · exact .inl rfl
      · refine absurd (List.mem_map.mpr ⟨e, hLater, ?_⟩) hHead
        rw [hHash, hSpent]
    · rename_i hOther
      rcases List.mem_cons.mp he with rfl | hLater
      · exact absurd hHash (by simpa using hOther)
      · exact ih hTail e hLater hHash

namespace MeshConfig

variable {env : MeshEnv} {m m' : MeshConfig} {code : String} {now later : Nat} {bound : Option String}

/-- A code that is spent or has run out cannot be used any more. -/
theorem peekInvite_settled (h : Settled now m.invites (hashCode env code)) (hLater : now ≤ later) :
    m.peekInvite env code later ≠ .ok bound := by
  intro hPeek
  unfold peekInvite at hPeek
  split at hPeek
  · cases hPeek
  · rename_i e hFind
    have hHash : e.codeHash = hashCode env code := by simpa using List.find?_some hFind
    split at hPeek
    · cases hPeek
    · rename_i hUsed
      split at hPeek
      · cases hPeek
      · rename_i hGood
        rcases h e (List.mem_of_find?_eq_some hFind) hHash with hSpent | hOut
        · exact hUsed hSpent
        · omega

theorem consumeInvite_congr (h : m'.invites = m.invites) :
    (m'.consumeInvite env code now).1.invites = (m.consumeInvite env code now).1.invites := by
  have hPeek : m'.peekInvite env code now = m.peekInvite env code now := by
    unfold peekInvite
    rw [h]
  unfold consumeInvite
  rw [hPeek]
  cases m.peekInvite env code now with
  | error e => exact h
  | ok ip =>
    dsimp only
    rw [h]

theorem spends_consumeInvite (env : MeshEnv) (m : MeshConfig) (code : String) (now : Nat) :
    Spends m.invites (m.consumeInvite env code now).1.invites := by
  unfold consumeInvite
  cases m.peekInvite env code now with
  | error e => exact .refl _
  | ok ip =>
    refine ⟨?_, fun e he => ?_⟩
    · dsimp only
      rw [← modifyFirst_map (p := fun e => decide (e.codeHash = hashCode env code))
        (f := fun e => { e with used := true }) (·.codeHash) (fun _ => rfl) m.invites]
      exact List.filter_sublist.map _
    · rcases mem_modifyFirst (List.mem_filter.mp he).1 with hOld | ⟨e', he', rfl⟩
      · exact ⟨e, hOld, rfl, rfl, id⟩
      · exact ⟨e', he', rfl, rfl, fun _ => rfl⟩

/-- A code that could be used is settled by the call that spends it, also when it
comes too late. -/
theorem settled_consumeInvite (hHashes : (m.invites.map (·.codeHash)).Nodup)
    (hPeek : m.peekInvite env code now = .ok bound) :
    Settled later (m.consumeInvite env code later).1.invites (hashCode env code) := by
  unfold consumeInvite
  cases hLate : m.peekInvite env code later with
  | ok ip => exact fun e he => settled_modifyFirst hHashes e (List.mem_filter.mp he).1
  | error err =>
    obtain ⟨e, hFind, hUnused⟩ := peekInvite_find hPeek
    intro e' he' hHash
    have hSame : e' = e := by
      refine List.inj_on_of_nodup_map hHashes he' (List.mem_of_find?_eq_some hFind) ?_
      have hFound : e.codeHash = hashCode env code := by simpa using List.find?_some hFind
      exact hHash.trans hFound.symm
    subst hSame
    unfold peekInvite at hLate
    rw [hFind] at hLate
    dsimp only at hLate
    rw [hUnused, if_neg Bool.false_ne_true] at hLate
    split at hLate
    · rename_i hOut
      exact .inr hOut
    · cases hLate

/-- No operation but one makes join codes. -/
theorem spends_apply (env : MeshEnv) (m : MeshConfig) (op : MeshOp)
    (h : ∀ raw ip ttlSecs now, op ≠ .createInvite raw ip ttlSecs now) :
    Spends m.invites (apply env m op).invites := by
  cases op with
  | createInvite raw ip ttlSecs now => exact absurd rfl (h raw ip ttlSecs now)
  | issueCert ikX ikSPub ip note now =>
    simp only [apply]
    rcases issueCert_cases env m ikX ikSPub ip note now with ⟨e, _, hEq⟩ | ⟨d, granted, seed, _, hEq⟩
    · rw [hEq]
      exact .refl _
    · rw [hEq]
      exact .refl _
  | consumeInvite code now => exact spends_consumeInvite env m code now
  | setMemberAlias deviceId aliasName => exact .refl _
  | revoke deviceId reason now =>
    obtain ⟨crl, members, _, hEq⟩ := revoke_frame env m deviceId reason now
    simp only [apply]
    rw [hEq]
    exact .refl _

end MeshConfig

namespace Signaling

variable {env : SignalingEnv Ct} {s : Signaling} {m : MeshConfig} {jb : JoinBody} {d : JoinDraw}

theorem completeJoin_invites {deviceId : String} {aliasName : Option String} {now : Nat} :
    (completeJoin env m jb deviceId aliasName now).invites =
      (m.consumeInvite env.meshEnv jb.code now).1.invites := by
  cases aliasName with
  | none => rfl
  | some a => exact MeshConfig.consumeInvite_congr rfl

/-- A JOIN spends join codes, and what it is answered for is settled. -/
theorem enroll_spends (env : SignalingEnv Ct) (m : MeshConfig) (jb : JoinBody) (d : JoinDraw) :
    Spends m.invites (enroll env m jb d).1.invites ∧
      ∀ resp, (enroll env m jb d).2 = .joined resp →
        (∃ bound, m.peekInvite env.meshEnv jb.code d.peekNow = .ok bound) ∧
          ((m.invites.map (·.codeHash)).Nodup → Settled d.consumeNow (enroll env m jb d).1.invites
            (MeshConfig.hashCode env.meshEnv jb.code)) := by
  rcases enroll_cases env m jb d with ⟨⟨e, hEq⟩, _⟩ | ⟨ip, granted, seed, hIssues, hEnd⟩
  · rw [hEq]
    exact ⟨.refl _, fun resp h => nomatch h⟩
  rcases hEnd with ⟨e, _, hEq⟩ | ⟨aliasName, _, hEq⟩
  · rw [hEq]
    exact ⟨.refl _, fun resp h => nomatch h⟩
  · obtain ⟨bound, _, _, hPeek, _⟩ := joinChecks_eq_ok.mp hIssues.checks
    have hInvites : (enroll env m jb d).1.invites =
        (m.consumeInvite env.meshEnv jb.code d.consumeNow).1.invites := by
      rw [hEq]
      exact completeJoin_invites.trans (MeshConfig.consumeInvite_congr rfl)
    rw [hInvites]
    exact ⟨MeshConfig.spends_consumeInvite env.meshEnv m jb.code d.consumeNow, fun resp _ =>
      ⟨⟨bound, hPeek⟩, fun hHashes => MeshConfig.settled_consumeInvite hHashes hPeek⟩⟩

/-- Without a JOIN, an event leaves the join codes alone. -/
theorem next_invites {e : ServerEvent Ct} (h : joinOf env s e = none) :
    (s.next env e).mesh.invites = s.mesh.invites := by
  cases e with
  | datagram f src d =>
    show (s.handleSignaling env f src d).1.mesh.invites = s.mesh.invites
    unfold handleSignaling
    split
    · rfl
    · split
      · rw [handleSession_mesh]
      · rename_i hFree
        unfold joinOf at h
        dsimp only at h ⊢
        split
        · rfl
        · rename_i plaintext hOpen
          split
          · rename_i hKind
            rw [if_pos ⟨hKind, hFree⟩, hOpen] at h
            dsimp only at h
            split
            · rfl
            · rename_i jb hBody
              rw [hBody] at h
              cases h
          · split
            · split
              · rfl
              · rw [handleAuth_mesh]
            · split
              · rfl
              · rfl
  | relay srcKey now =>
    obtain ⟨r, hEq⟩ := relayRefresh_frame s srcKey now
    show (s.relayRefresh srcKey now).mesh.invites = s.mesh.invites
    rw [hEq]
  | revoke deviceId reason now =>
    obtain ⟨crl, members, _, hEq⟩ := MeshConfig.revoke_frame env.meshEnv s.mesh deviceId reason now
    show (s.revokeDevice env deviceId reason now).1.mesh.invites = s.mesh.invites
    rw [revokeDevice_mesh]
    have hEq : s.mesh.revoke env.signatures deviceId reason now = (_, _) := Prod.ext hEq rfl
    rw [hEq]
  | cleanup now =>
    show (s.cleanupPass env now).mesh.invites = s.mesh.invites
    rcases cleanupPass_cases env s now with ⟨r, rates, hEq⟩ | ⟨r, rates, hEq⟩
    · rw [hEq]
    · rw [hEq]
  | delPeer key => rfl
  | administer rooms aliases => rfl

end Signaling

-- ---------------------------------------------------------------------------
-- The log
-- ---------------------------------------------------------------------------

/-- The server, with the hashes of the codes made so far and of those that were
answered with a certificate, and the last time somebody looked at a code. -/
structure InviteLog where
  server : Signaling
  clock : Nat
  created : List String
  redeemed : List String := []

/-- Something happens at the server, or the registry is operated on. -/
inductive InviteEvent (Ct : Type) where
  | server (e : ServerEvent Ct)
  | registry (op : MeshOp)

namespace InviteLog

/-- The times at which an event looks at join codes. -/
def times (env : SignalingEnv Ct) (l : InviteLog) : InviteEvent Ct → List Nat
  | .server e =>
    match Signaling.joinOf env l.server e with
    | some (_, _, _, d) => [d.peekNow, d.consumeNow]
    | none => []
  | .registry (.createInvite _ _ _ now) => [now]
  | .registry (.consumeInvite _ now) => [now]
  | .registry _ => []

/-- Time does not go back. -/
def Timely (env : SignalingEnv Ct) (l : InviteLog) (ev : InviteEvent Ct) : Prop :=
  (l.clock :: l.times env ev).Pairwise (· ≤ ·)

/-- A code that is made is a new one. -/
def Fresh (env : SignalingEnv Ct) (l : InviteLog) : InviteEvent Ct → Prop
  | .registry (.createInvite raw _ _ _) =>
    MeshConfig.hashCode env.meshEnv (inviteCode raw) ∉ l.created
  | _ => True

/-- The hashes that an event makes. -/
def makes (env : SignalingEnv Ct) : InviteEvent Ct → List String
  | .registry (.createInvite raw _ _ _) => [MeshConfig.hashCode env.meshEnv (inviteCode raw)]
  | _ => []

/-- The hash that an event is answered with a certificate for. -/
def redeems (env : SignalingEnv Ct) (l : InviteLog) : InviteEvent Ct → List String
  | .server e =>
    match Signaling.joinOf env l.server e with
    | some (sender, jb, src, d) =>
      match (l.server.handleJoin env sender jb src d).2 with
      | .joined _ => [MeshConfig.hashCode env.meshEnv jb.code]
      | _ => []
    | none => []
  | .registry _ => []

def nextServer (env : SignalingEnv Ct) (s : Signaling) : InviteEvent Ct → Signaling
  | .server e => s.next env e
  | .registry op => { s with mesh := s.mesh.apply env.meshEnv op }

def next (env : SignalingEnv Ct) (l : InviteLog) (ev : InviteEvent Ct) : InviteLog :=
  { server := nextServer env l.server ev
    clock := (l.times env ev).getLast?.getD l.clock
    created := l.created ++ makes env ev
    redeemed := l.redeemed ++ l.redeems env ev }

/-- From any server with one entry for each code, before anything is redeemed. -/
def machine (env : SignalingEnv Ct) : Machine InviteLog (InviteEvent Ct) where
  init l := (l.server.mesh.invites.map (·.codeHash)).Nodup ∧
    l.created = l.server.mesh.invites.map (·.codeHash) ∧ l.redeemed = []
  enabled _ _ := True
  next := next env

@[simp] theorem machine_next (env : SignalingEnv Ct) (l : InviteLog) (ev : InviteEvent Ct) :
    (machine env).next l ev = l.next env ev := rfl

/-- A code is made once, and one that is redeemed is settled. -/
structure Once (l : InviteLog) : Prop where
  hashes : (l.server.mesh.invites.map (·.codeHash)).Nodup
  made : ∀ e ∈ l.server.mesh.invites, e.codeHash ∈ l.created
  known : ∀ hash ∈ l.redeemed, hash ∈ l.created
  settled : ∀ hash ∈ l.redeemed, Settled l.clock l.server.mesh.invites hash
  redeemed : l.redeemed.Nodup

variable {env : SignalingEnv Ct} {l : InviteLog} {ev : InviteEvent Ct}

theorem clock_le (h : l.Timely env ev) : l.clock ≤ (l.next env ev).clock := by
  unfold Timely at h
  rw [List.pairwise_cons] at h
  show l.clock ≤ (l.times env ev).getLast?.getD l.clock
  cases hLast : (l.times env ev).getLast? with
  | none => exact Nat.le_refl _
  | some now => exact h.1 now (List.mem_of_getLast? hLast)

/-- What an event may redeem. -/
structure Redeems (env : SignalingEnv Ct) (l : InviteLog) (ev : InviteEvent Ct) (hash : String) : Prop where
  made : hash ∈ l.created
  first : hash ∉ l.redeemed
  settled : Settled (l.next env ev).clock (nextServer env l.server ev).mesh.invites hash

/-- An event that makes no code. -/
theorem once_of_spends (h : l.Once) (hTimely : l.Timely env ev)
    (hSpends : Spends l.server.mesh.invites (nextServer env l.server ev).mesh.invites)
    (hMakes : makes env ev = []) (hNodup : (l.redeems env ev).Nodup)
    (hRedeems : ∀ hash ∈ l.redeems env ev, l.Redeems env ev hash) : (l.next env ev).Once := by
  have hCreated : (l.next env ev).created = l.created := by
    unfold next
    rw [hMakes, List.append_nil]
  refine ⟨h.hashes.sublist hSpends.hashes, fun e he => ?_, fun hash hMem => ?_, fun hash hMem => ?_, ?_⟩
  · obtain ⟨e', he', hSame, _⟩ := hSpends.origin e he
    rw [hCreated, hSame]
    exact h.made e' he'
  · rw [hCreated]
    rcases List.mem_append.mp hMem with hOld | hNew
    · exact h.known hash hOld
    · exact (hRedeems hash hNew).made
  · rcases List.mem_append.mp hMem with hOld | hNew
    · exact hSpends.settled (h.settled hash hOld) (clock_le hTimely)
    · exact (hRedeems hash hNew).settled
  · refine List.nodup_append.mpr ⟨h.redeemed, hNodup, fun a ha b hb hSame => ?_⟩
    exact (hRedeems b hb).first (hSame ▸ ha)

/-- An event that makes and redeems no code. -/
theorem once_of_quiet (h : l.Once) (hTimely : l.Timely env ev)
    (hSpends : Spends l.server.mesh.invites (nextServer env l.server ev).mesh.invites)
    (hMakes : makes env ev = []) (hRedeems : l.redeems env ev = []) : (l.next env ev).Once := by
  refine once_of_spends h hTimely hSpends hMakes ?_ ?_
  · simp [hRedeems]
  · simp [hRedeems]

/-- A new code is added to those that are left. -/
theorem once_createInvite {raw : Bytes} {ip : Option String} {ttlSecs now : Nat} (h : l.Once)
    (hTimely : l.Timely env (.registry (.createInvite raw ip ttlSecs now)))
    (hFresh : MeshConfig.hashCode env.meshEnv (inviteCode raw) ∉ l.created) :
    (l.next env (.registry (.createInvite raw ip ttlSecs now))).Once := by
  have hClock := clock_le hTimely
  have hRedeemed : (l.next env (.registry (.createInvite raw ip ttlSecs now))).redeemed =
      l.redeemed := List.append_nil _
  have hOld : ∀ e ∈ l.server.mesh.invites.filter (fun e => decide (now < e.expiresAt) && !e.used),
      e ∈ l.server.mesh.invites := fun e he => (List.mem_filter.mp he).1
  refine ⟨?_, fun e he => ?_, ?_, ?_, ?_⟩
  · refine nodup_map_concat (h.hashes.sublist (List.filter_sublist.map _)) fun e he hSame => hFresh ?_
    dsimp only at hSame
    rw [← hSame]
    exact h.made e (hOld e he)
  · rcases List.mem_append.mp he with hLeft | hNew
    · exact List.mem_append_left _ (h.made e (hOld e hLeft))
    · rw [List.mem_singleton.mp hNew]
      exact List.mem_append_right _ (List.mem_singleton_self _)
  · rw [hRedeemed]
    exact fun hash hMem => List.mem_append_left _ (h.known hash hMem)
  · rw [hRedeemed]
    intro hash hMem e he hHash
    rcases List.mem_append.mp he with hLeft | hNew
    · rcases h.settled hash hMem e (hOld e hLeft) hHash with hSpent | hOut
      · exact .inl hSpent
      · right
        omega
    · rw [List.mem_singleton.mp hNew] at hHash
      dsimp only at hHash
      rw [hHash] at hFresh
      exact absurd (h.known hash hMem) hFresh
  · rw [hRedeemed]
    exact h.redeemed

section

variable {e : ServerEvent Ct} {sender : RawKey} {jb : JoinBody} {src : SourceAddr} {d : JoinDraw}

theorem times_join (h : Signaling.joinOf env l.server e = some (sender, jb, src, d)) :
    l.times env (.server e) = [d.peekNow, d.consumeNow] := by
  unfold times
  dsimp only
  rw [h]

theorem clock_join (h : Signaling.joinOf env l.server e = some (sender, jb, src, d)) :
    (l.next env (.server e)).clock = d.consumeNow := by
  unfold next
  rw [times_join h]
  rfl

/-- What a JOIN redeems. -/
theorem mem_redeems_join {hash : String}
    (h : Signaling.joinOf env l.server e = some (sender, jb, src, d)) :
    hash ∈ l.redeems env (.server e) ↔
      (∃ resp, (l.server.handleJoin env sender jb src d).2 = .joined resp) ∧
        hash = MeshConfig.hashCode env.meshEnv jb.code := by
  unfold redeems
  dsimp only
  rw [h]
  dsimp only
  cases (l.server.handleJoin env sender jb src d).2 with
  | joined resp => simp
  | _ => simp

theorem redeems_nodup : (l.redeems env (.server e)).Nodup := by
  unfold redeems
  dsimp only
  split
  · split
    · exact List.nodup_singleton _
    · exact List.nodup_nil
  · exact List.nodup_nil

/-- A JOIN that is answered redeems a code that was not redeemed before. -/
theorem once_join (h : l.Once) (hTimely : l.Timely env (.server e))
    (hJoin : Signaling.joinOf env l.server e = some (sender, jb, src, d)) :
    (l.next env (.server e)).Once := by
  have hServer : nextServer env l.server (.server e) =
      (l.server.handleJoin env sender jb src d).1 := Signaling.next_join hJoin
  obtain ⟨hSpends, hSettles⟩ := Signaling.enroll_spends env l.server.mesh jb d
  rcases Signaling.handleJoin_cases env l.server sender jb src d with
    ⟨_, r, outcome, hEq, hOutcome⟩ | ⟨_, r, hEq⟩
  · refine once_of_spends h hTimely ?_ rfl redeems_nodup fun hash hMem => ?_
    · rw [hServer, hEq]
      exact .refl _
    · obtain ⟨⟨resp, hJoined⟩, _⟩ := (mem_redeems_join hJoin).mp hMem
      rw [hEq] at hJoined
      dsimp only at hJoined
      rw [hJoined] at hOutcome
      simp at hOutcome
  · have hInvites : (nextServer env l.server (.server e)).mesh.invites =
        (Signaling.enroll env l.server.mesh jb d).1.invites := by
      rw [hServer, hEq]
    refine once_of_spends h hTimely (hInvites ▸ hSpends) rfl redeems_nodup fun hash hMem => ?_
    obtain ⟨⟨resp, hJoined⟩, rfl⟩ := (mem_redeems_join hJoin).mp hMem
    rw [hEq] at hJoined
    obtain ⟨⟨bound, hPeek⟩, hSettled⟩ := hSettles resp hJoined
    obtain ⟨x, hFind, _⟩ := MeshConfig.peekInvite_find hPeek
    have hHash : x.codeHash = MeshConfig.hashCode env.meshEnv jb.code := by
      simpa using List.find?_some hFind
    refine ⟨hHash ▸ h.made x (List.mem_of_find?_eq_some hFind), fun hOld => ?_, ?_⟩
    · have hPeekTime : l.clock ≤ d.peekNow := by
        unfold Timely at hTimely
        rw [times_join hJoin, List.pairwise_cons] at hTimely
        exact hTimely.1 _ (List.mem_cons_self ..)
      exact MeshConfig.peekInvite_settled (h.settled _ hOld) hPeekTime hPeek
    · rw [clock_join hJoin, hInvites]
      exact hSettled h.hashes

end

/-- Every event keeps the invariant. -/
theorem once_next (h : l.Once) (hTimely : l.Timely env ev) (hFresh : l.Fresh env ev) :
    (l.next env ev).Once := by
  cases ev with
  | server e =>
    cases hJoin : Signaling.joinOf env l.server e with
    | some join =>
      obtain ⟨sender, jb, src, d⟩ := join
      exact once_join h hTimely hJoin
    | none =>
      refine once_of_quiet h hTimely ?_ rfl ?_
      · show Spends l.server.mesh.invites (l.server.next env e).mesh.invites
        rw [Signaling.next_invites hJoin]
        exact .refl _
      · unfold redeems
        dsimp only
        rw [hJoin]
  | registry op =>
    by_cases hOp : ∃ raw ip ttlSecs now, op = .createInvite raw ip ttlSecs now
    · obtain ⟨raw, ip, ttlSecs, now, rfl⟩ := hOp
      exact once_createInvite h hTimely hFresh
    · have hOther : ∀ raw ip ttlSecs now, op ≠ .createInvite raw ip ttlSecs now :=
        fun raw ip ttlSecs now hEq => hOp ⟨raw, ip, ttlSecs, now, hEq⟩
      refine once_of_quiet h hTimely ?_ ?_ rfl
      · exact MeshConfig.spends_apply env.meshEnv l.server.mesh op hOther
      · cases op with
        | createInvite raw ip ttlSecs now => exact absurd rfl (hOther raw ip ttlSecs now)
        | _ => rfl

/-- **A code lets in one device at most.** In every run in which time does not go
back and every code that is made is a new one, no code is answered with a
certificate twice, whatever JOINs, failures and other codes come in between. -/
theorem redeemed_once (h : (machine env).Reach (fun l ev => l.Timely env ev ∧ l.Fresh env ev) l) :
    l.redeemed.Nodup := by
  have hOnce : l.Once := by
    refine Machine.Reach.invariant (I := Once) ?_
      (fun _ _ hOnce _ hGuard => once_next hOnce hGuard.1 hGuard.2) h
    rintro l ⟨hHashes, hCreated, hRedeemed⟩
    refine ⟨hHashes, fun e he => ?_, ?_, ?_, ?_⟩
    · rw [hCreated]
      exact List.mem_map_of_mem he
    · simp [hRedeemed]
    · simp [hRedeemed]
    · simp [hRedeemed]
  exact hOnce.redeemed

open Std JoinLog

/-- A code is made, and device 2 joins with it twice. -/
def exampleRedemption : List (InviteEvent (RawKey × Nonce × Bytes)) :=
  [.registry (.createInvite (List.replicate 16 1) none 600 0), .server (exampleJoinEvent none),
    .server (exampleJoinEvent none)]

def exampleUnspent : InviteLog :=
  { server := { mesh := MeshConfig.exampleRegistry }, clock := 0, created := [] }

theorem redeemed_once_example :
    ((machine exampleServerEnv).run exampleUnspent exampleRedemption).redeemed.Nodup := by
  have hEncodes : ∃ bytes, encodeJoin (exampleJoin none) = .ok bytes := exampleJoin_encodes ⟨_, rfl⟩
  obtain ⟨bytes, hBytes⟩ := hEncodes
  have hJoin : ∀ s : Signaling, (2 : RawKey) ∉ s.sessions →
      Signaling.joinOf exampleServerEnv s (exampleJoinEvent none) =
        some (2, exampleJoin none, sampleSrc, (sampleSignalDraw 0 0).join) :=
    fun s hFree => exampleJoin_joinOf hBytes hFree
  refine redeemed_once (Machine.reach_run (.init ⟨List.nodup_nil, rfl, rfl⟩) ?_)
  unfold exampleRedemption
  generalize exampleJoinEvent none = e at hJoin ⊢
  have hFirst := hJoin exampleInvited ExtTreeMap.not_mem_empty
  have hSessions : (exampleInvited.next exampleServerEnv e).sessions = ∅ := by
    obtain ⟨r, members, invites, hEq⟩ := Signaling.handleJoin_frame exampleServerEnv exampleInvited 2
      (exampleJoin none) sampleSrc (sampleSignalDraw 0 0).join
    rw [Signaling.next_join hFirst, hEq]
    rfl
  have hSecond := hJoin (exampleInvited.next exampleServerEnv e)
    (by rw [hSessions]; exact ExtTreeMap.not_mem_empty)
  have hTimes : List.Pairwise (· ≤ ·) [0, 0, 0] := by decide
  refine ⟨trivial, ⟨?_, List.not_mem_nil⟩, trivial, ⟨?_, trivial⟩, trivial, ⟨?_, trivial⟩,
    trivial⟩
  · show List.Pairwise (· ≤ ·) [0, 0]
    decide
  · unfold Timely
    rw [times_join hFirst]
    exact hTimes
  · unfold Timely
    rw [times_join hSecond, machine_next, clock_join hFirst]
    exact hTimes

end InviteLog

-- ---------------------------------------------------------------------------
-- The IP bound to a code
-- ---------------------------------------------------------------------------

namespace Signaling

/-- The JOIN succeeds, and certificate and answer have the IP. -/
def GrantsIp (env : SignalingEnv Ct) (s : Signaling) (sender : RawKey) (jb : JoinBody)
    (src : SourceAddr) (d : JoinDraw) (ip : String) : Prop :=
  ∃ deviceId cert info crl, (s.handleJoin env sender jb src d).2 =
      .joined (.okWithData (.join deviceId ip cert info crl)) ∧ cert.allowedIp = ip

variable {env : SignalingEnv Ct} {s : Signaling} {m : MeshConfig} {jb : JoinBody} {d : JoinDraw}
  {ip : String}

/-- The answer to a JOIN names the certificate and the IP it was given. -/
theorem joinAnswer_shape {cert : DeviceCert} {resp : ResponseBody}
    (h : joinAnswer env m cert ip = .joined resp) :
    ∃ info crl, resp = .okWithData (.join cert.deviceId ip cert info crl) := by
  unfold joinAnswer at h
  split at h
  · cases h
  · rename_i info _
    dsimp only at h
    split at h
    · cases h
    · exact ⟨info, m.crl, (JoinOutcome.joined.inj h).symm⟩

/-- The IP in the answer was nobody's. -/
theorem enroll_ip_free {deviceId : String} {cert : DeviceCert} {info : ServerInfo} {crl : Crl}
    (h : (enroll env m jb d).2 = .joined (.okWithData (.join deviceId ip cert info crl))) :
    ip ∉ m.usedIps := by
  rcases enroll_cases env m jb d with
    ⟨⟨e, hEq⟩, _⟩ | ⟨ip', granted, seed, hIssues, ⟨e, _, hEq⟩ | ⟨aliasName, _, hEq⟩⟩
  · rw [hEq] at h
    cases h
  · rw [hEq] at h
    cases h
  · rw [hEq] at h
    dsimp only at h
    obtain ⟨_, _, hResp⟩ := joinAnswer_shape h
    cases hResp
    obtain ⟨_, _, _, _, _, _, _, hIp⟩ := joinChecks_eq_ok.mp hIssues.checks
    exact MeshConfig.allocateIp_free hIp

/-- **A bound IP is not granted.** The reservation that keeps others from the IP
keeps its owner from it as well: while the code can be used, no JOIN at all gets
the IP. -/
theorem bound_ip_never (env : SignalingEnv Ct) (s : Signaling) {e : InviteEntry} (he : e ∈ s.mesh.invites)
    (hUnused : e.used = false) (hBound : e.ip = some ip) (sender : RawKey) (jb : JoinBody)
    (src : SourceAddr) (d : JoinDraw) : ¬ s.GrantsIp env sender jb src d ip := by
  rintro ⟨deviceId, cert, info, crl, hJoined, _⟩
  have hUsed : ip ∈ s.mesh.usedIps := by
    refine List.mem_append_right _ (List.mem_filterMap.mpr ⟨e, List.mem_filter.mpr ⟨he, ?_⟩, hBound⟩)
    rw [hUnused]
    rfl
  rcases handleJoin_cases env s sender jb src d with ⟨_, r, o, hEq, hOutcome⟩ | ⟨_, r, hEq⟩
  · rw [hEq] at hJoined
    rcases hOutcome with rfl | ⟨e, rfl⟩
    · cases hJoined
    · cases hJoined
  · rw [hEq] at hJoined
    exact enroll_ip_free hJoined hUsed

/-- How a JOIN ends is settled in the registry, once it gets there. -/
theorem handleJoin_outcome {sender : RawKey} {src : SourceAddr}
    (h : ReachesRegistry env s sender jb src d) :
    (s.handleJoin env sender jb src d).2 = (enroll env s.mesh jb d).2 := by
  rcases handleJoin_cases env s sender jb src d with ⟨hNot, _⟩ | ⟨_, r, hEq⟩
  · exact absurd h hNot
  · rw [hEq]

/-- A JOIN that is issued a certificate and answered has the IP of the checks in
its answer, and the IP that was granted in its certificate. -/
theorem enroll_joined {granted : String} {seed : Bytes} {resp : ResponseBody}
    (hIssues : Issues env m jb d ip granted seed) (h : (enroll env m jb d).2 = .joined resp) :
    ∃ cert info crl, resp = .okWithData (.join jb.deviceId ip cert info crl) ∧
      cert.allowedIp = granted := by
  rcases enroll_cases env m jb d with ⟨_, hNot⟩ | ⟨ip', granted', seed', hIssues', hEnroll⟩
  · exact absurd hIssues (hNot ip granted seed)
  · obtain ⟨rfl, rfl, rfl⟩ := hIssues.unique hIssues'
    rcases hEnroll with ⟨e, _, hEq⟩ | ⟨aliasName, _, hEq⟩
    · rw [hEq] at h
      cases h
    · rw [hEq] at h
      dsimp only at h
      obtain ⟨info, crl, rfl⟩ := joinAnswer_shape h
      exact ⟨(MeshConfig.newMember env.meshEnv m jb.deviceId jb.ikX jb.ikSPub granted seed
        d.issueNow).cert, info, crl, rfl, rfl⟩

end Signaling

namespace JoinLog

open MeshConfig

/-- A server with one join code, bound to an IP and good until 600. -/
def exampleBound : Signaling :=
  { mesh := (exampleRegistry.createInvite exampleMeshEnv (List.replicate 16 1) (some "10.13.13.50")
      600 0).1 }

theorem exampleBound_peek : exampleBound.mesh.peekInvite exampleMeshEnv
    (inviteCode (List.replicate 16 1)) 0 = .ok (some "10.13.13.50") :=
  peekInvite_createInvite (fun _ h => absurd h List.not_mem_nil) (by decide)

/-- The owner of the code gets the first IP of the pool. -/
theorem exampleBound_issues :
    Signaling.Issues exampleServerEnv exampleBound.mesh (exampleJoin none)
      (sampleSignalDraw 0 0).join "10.13.13.2" "10.13.13.2" (List.replicate 32 1) := by
  have hUsed : exampleBound.mesh.usedIps = ["10.13.13.50"] := rfl
  have hPool : exampleBound.mesh.allocateIp (some "10.13.13.50") = .ok "10.13.13.2" := by
    have hTaken : (some "10.13.13.50").filter (fun p =>
        trim p ≠ "" && !exampleBound.mesh.usedIps.contains (trim p)) = none := by
      rw [hUsed]
      decide
    have hFirst : exampleBound.mesh.ipPool.find? (!exampleBound.mesh.usedIps.contains ·) =
        some "10.13.13.2" := by
      rw [hUsed]
      rfl
    unfold allocateIp
    rw [hTaken, hFirst]
  have hIp : exampleBound.mesh.allocateIp (some "10.13.13.2") = .ok "10.13.13.2" := by
    refine allocateIp_preferred (by decide) ?_
    rw [hUsed]
    decide
  have hKey : parsePublicKey (sampleKeyText 2) = .ok 2 := parsePublicKey_keyB64 (by decide)
  have hSig : parseSigPublic (sampleKeyText 2) = .ok (keyBytes 2) :=
    parseSigPublic_keyB64 (keyBytes_length 2)
  have hRoot : exampleBound.mesh.root.privateKey = keyB64 (List.replicate 32 1) := rfl
  have hSeed : exampleBound.mesh.rootSeed = .ok (List.replicate 32 1) := by
    unfold MeshConfig.rootSeed
    rw [hRoot]
    exact b64Fixed_keyB64 rfl
  refine ⟨?_, ?_⟩
  · rw [Signaling.joinChecks_eq_ok, exampleServerEnv_meshEnv]
    exact ⟨some "10.13.13.50", 2, keyBytes 2, exampleBound_peek, hKey, hSig, rfl, hPool⟩
  · rw [exampleServerEnv_meshEnv]
    exact issueChecks_eq_ok.mpr ⟨2, keyBytes 2, hKey, hSig, rfl, hIp,
      fun x hx => absurd hx List.not_mem_nil, rfl, hSeed⟩

/-- The answer has a wire form, whatever join code there is. -/
theorem exampleJoin_wire (bound : Option String) :
    JoinEncodes exampleServerEnv
      (exampleRegistry.createInvite exampleMeshEnv (List.replicate 16 1) bound 600 0).1
      "10.13.13.2" "10.13.13.2" := by
  generalize hMesh : (exampleRegistry.createInvite exampleMeshEnv (List.replicate 16 1) bound 600 0).1 = m
  have hRoot : m.root.publicKey = keyB64 (exampleVerifyingKey (List.replicate 32 1)) := by
    rw [← hMesh]
    rfl
  have hId : m.meshId = "mesh" := by
    rw [← hMesh]
    rfl
  have hList : m.crl = exampleRegistry.crl := by
    rw [← hMesh]
    rfl
  have hIp : Fits ipLen "10.13.13.2" := ⟨_, wireStrSet_ok (by decide +kernel) (by decide +kernel)⟩
  have hMeshId : Fits nameLen "mesh" := ⟨_, wireStrSet_ok (by decide +kernel) (by decide +kernel)⟩
  have hName : Fits nameLen "server" := ⟨_, wireStrSet_ok (by decide +kernel) (by decide +kernel)⟩
  have hRootPub : m.rootPublicRaw = .ok (exampleVerifyingKey (List.replicate 32 1)) := by
    unfold MeshConfig.rootPublicRaw
    rw [hRoot]
    exact parseSigPublic_keyB64 (exampleSignatures_lawful.key_length _)
  have hCrl : ∃ bytes, crlFromDomain exampleRegistry.crl = .ok bytes := by
    obtain ⟨_, hSet⟩ := hMeshId
    obtain ⟨_, hSig⟩ := putOptB64_sig (exampleSignatures_lawful.sign_length (List.replicate 32 1)
      exampleRegistry.crl.canonicalBytes)
    exact exists_bind_ok hSet (exists_bind_ok rfl (exists_bind_ok hSig ⟨_, rfl⟩))
  exact
    { rootPub := ⟨_, hRootPub⟩
      ip := hIp
      granted := hIp
      meshId := hId ▸ hMeshId
      serverName := hName
      serverIkSPub := ⟨_, b64Key_keyB64 (keyBytes_length 7)⟩
      crl := hList ▸ hCrl }

/-- A registry with one good code, bound to an IP that nobody holds, and the JOIN
of a new device with this code: it gets another IP. -/
theorem bound_ip_fails :
    (MeshConfig.machine exampleMeshEnv exampleVerifyingKey).Reach (fun _ _ => True) exampleBound.mesh ∧
      (∃ e, exampleBound.mesh.invites = [e] ∧ e.used = false ∧ e.ip = some "10.13.13.50") ∧
      exampleBound.mesh.peekInvite exampleMeshEnv (exampleJoin none).code 0 =
        .ok (some "10.13.13.50") ∧
      exampleBound.mesh.members = [] ∧
      Signaling.ReachesRegistry exampleServerEnv exampleBound 2 (exampleJoin none) sampleSrc
        (sampleSignalDraw 0 0).join ∧
      ∃ cert info crl, (exampleBound.handleJoin exampleServerEnv 2 (exampleJoin none) sampleSrc
          (sampleSignalDraw 0 0).join).2 =
        .joined (.okWithData (.join (exampleJoin none).deviceId "10.13.13.2" cert info crl)) ∧
          cert.allowedIp = "10.13.13.2" := by
  have hReaches : Signaling.ReachesRegistry exampleServerEnv exampleBound 2 (exampleJoin none)
      sampleSrc (sampleSignalDraw 0 0).join := ⟨rfl, rfl, "default", rfl⟩
  have hReach : (MeshConfig.machine exampleMeshEnv exampleVerifyingKey).Reach (fun _ _ => True)
      exampleBound.mesh :=
    .step (e := .createInvite (List.replicate 16 1) (some "10.13.13.50") 600 0)
      exampleRegistry_reach trivial trivial
  refine ⟨hReach, ⟨_, rfl, rfl, rfl⟩, exampleBound_peek, rfl, hReaches, ?_⟩
  have hAlias : ∃ a, normalizeSelfAlias exampleServerEnv (exampleJoin none).aliasName = .ok a :=
    ⟨none, rfl⟩
  obtain ⟨resp, hJoined⟩ := (Signaling.enroll_issues exampleServerEnv_sizes exampleBound_issues).2.2.mpr
    ⟨hAlias, exampleJoin_wire _⟩
  obtain ⟨cert, info, crl, rfl, hCert⟩ := Signaling.enroll_joined exampleBound_issues hJoined
  exact ⟨cert, info, crl, (Signaling.handleJoin_outcome hReaches).trans hJoined, hCert⟩

theorem bound_ip_example : ¬ exampleBound.GrantsIp exampleServerEnv 2 (exampleJoin none) sampleSrc
    (sampleSignalDraw 0 0).join "10.13.13.50" :=
  Signaling.bound_ip_never exampleServerEnv exampleBound (List.mem_singleton_self _) rfl rfl 2
    (exampleJoin none) sampleSrc (sampleSignalDraw 0 0).join

end JoinLog

end LinkMesh
