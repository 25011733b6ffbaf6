import LinkMesh.Server.JoinRuns
import LinkMesh.Server.Site

/-!
# No device takes another one's IP

Addresses from the allocation in the registry, through certificate, session
and route, to the takeover branch of the route table, over whole runs of a
site: commands, restarts and everything that the running server handles.

The two copies of the registry are not kept in step, and the results hold for
the runs in which this does not show.

## Results

* `ledger_next`        — the latest registry accounts for every certificate.
* `serves_next`        — sessions and routes carry the IP of a certificate.
* `no_preemption`      — devices that are not revoked have different IPs, and
  none displaces the route of another.
* `preemption_fails`   — a command and a JOIN give out one IP twice.
-/

namespace LinkMesh

open Std KeyMap

variable {Ct : Type}

-- ---------------------------------------------------------------------------
-- What an operation does to the registry
-- ---------------------------------------------------------------------------

namespace MeshConfig

/-- The registry after some of its operations. -/
def Leads (env : MeshEnv) (m m' : MeshConfig) : Prop := ∃ ops : List MeshOp, m' = ops.foldl (apply env) m

/-- Members and revocations after an operation. -/
inductive Revision (m m' : MeshConfig) : Prop where
  | kept : m'.members.map (·.cert) = m.members.map (·.cert) → m'.crl = m.crl → Revision m m'
  /-- a certificate for a new device -/
  | certified (c : DeviceCert) : m'.members.map (·.cert) = m.members.map (·.cert) ++ [c] →
    m'.crl = m.crl → (∀ x ∈ m.members, x.deviceId ≠ c.deviceId) → m.isRevoked c.deviceId = false →
    (OneLine m.meshId → c.Certified) → Revision m m'
  | revoked (deviceId : String) :
    m'.members.map (·.cert) = (m.members.filter (·.deviceId != deviceId)).map (·.cert) → (∀ d, m'.isRevoked d = (m.isRevoked d || deviceId == d)) → Revision m m'

/-- What every change of a registry is. -/
structure Revises (env : MeshEnv) (m m' : MeshConfig) : Prop where
  leads : m.Leads env m'
  meshId : m'.meshId = m.meshId
  revision : m.Revision m'

variable {env : MeshEnv} {verifyingKey : Bytes → Bytes} {seed : Bytes} {m m' : MeshConfig}
  {deviceId ikX ikSPub ip granted : String} {note : Option String} {reason : RevokeReason} {now : Nat}

theorem coherent_leads (hLawful : env.signatures.Lawful verifyingKey) (hSeed : seed.length = 32)
    (h : m.Leads env m') (hSigned : RootSigned env verifyingKey seed m) (hCoherent : Coherent env m) :
    Coherent env m' ∧ RootSigned env verifyingKey seed m' := by
  obtain ⟨ops, rfl⟩ := h
  induction ops generalizing m with
  | nil => exact ⟨hCoherent, hSigned⟩
  | cons op ops ih =>
    obtain ⟨hNext, hNextSigned⟩ := coherent_apply hLawful hSeed hSigned hCoherent op
    exact ih hNextSigned hNext

theorem Revises.refl (env : MeshEnv) (m : MeshConfig) : m.Revises env m :=
  ⟨⟨[], rfl⟩, rfl, .kept rfl rfl⟩

/-- Members keep their certificates, and nothing else that counts changes. -/
theorem Revises.keep {m₁ m₂ : MeshConfig} (h : m.Revises env m₁) (hLeads : m₁.Leads env m₂)
    (hCerts : m₂.members.map (·.cert) = m₁.members.map (·.cert)) (hCrl : m₂.crl = m₁.crl)
    (hMesh : m₂.meshId = m₁.meshId) : m.Revises env m₂ := by
  obtain ⟨ops, hOps⟩ := h.leads
  obtain ⟨ops', hOps'⟩ := hLeads
  refine ⟨⟨ops ++ ops', by rw [List.foldl_append, ← hOps]; exact hOps'⟩, hMesh.trans h.meshId, ?_⟩
  cases h.revision with
  | kept hSame hSameCrl => exact .kept (hCerts.trans hSame) (hCrl.trans hSameCrl)
  | certified c hMore hSameCrl hNew hLive hText =>
    exact .certified c (hCerts.trans hMore) (hCrl.trans hSameCrl) hNew hLive hText
  | revoked deviceId hLess hRevoked =>
    refine .revoked deviceId (hCerts.trans hLess) fun d => ?_
    rw [isRevoked_congr hCrl]
    exact hRevoked d

/-- A new certificate has the texts of its registry and its request. -/
theorem certified_newCert (hSha : ∀ bs, 32 ≤ (env.sha256 bs).length)
    (h : m.issueChecks env ikX ikSPub ip note = .ok (deviceId, granted, seed))
    (hNote : ∀ d, note = some d → ∃ keyX keyS, d = deviceIdB64 env keyX keyS) (hMesh : OneLine m.meshId) :
    (newMember env m deviceId ikX ikSPub granted seed now).cert.Certified := by
  obtain ⟨keyX, keyS, hX, hS, hDevice, _⟩ := issueChecks_eq_ok.mp h
  have hDerived : ∃ keyX keyS, deviceId = deviceIdB64 env keyX keyS := by
    cases note with
    | none => exact ⟨keyX, keyS, hDevice.symm⟩
    | some d =>
      obtain ⟨keyX', keyS', hEq⟩ := hNote d rfl
      exact ⟨keyX', keyS', hDevice.symm.trans hEq⟩
  refine ⟨hMesh, ?_, ⟨keyX, hX⟩, ⟨keyS, hS⟩⟩
  obtain ⟨keyX', keyS', hEq⟩ := hDerived
  show IsB64Text 32 deviceId
  rw [hEq]
  exact ⟨_, by rw [List.length_take]; exact Nat.min_eq_left (hSha _), rfl⟩

theorem revises_issueCert (hSha : ∀ bs, 32 ≤ (env.sha256 bs).length)
    (hNote : ∀ d, note = some d → ∃ keyX keyS, d = deviceIdB64 env keyX keyS) :
    m.Revises env (m.issueCert env ikX ikSPub ip note now).1 := by
  rcases issueCert_cases env m ikX ikSPub ip note now with ⟨e, _, hEq⟩ | ⟨d, granted, seed, hChecks, hEq⟩
  · rw [hEq]
    exact .refl env m
  · obtain ⟨_, _, _, _, _, _, hNew, hLive, _⟩ := issueChecks_eq_ok.mp hChecks
    refine ⟨⟨[.issueCert ikX ikSPub ip note now], rfl⟩, by rw [hEq], ?_⟩
    rw [hEq]
    refine .certified (newMember env m d ikX ikSPub granted seed now).cert ?_ rfl hNew hLive
      (certified_newCert hSha hChecks hNote)
    rw [List.map_append]
    rfl

theorem revises_revoke (hSeed : m.rootSeed = .ok seed) (deviceId : String) (reason : RevokeReason)
    (now : Nat) : m.Revises env (m.revoke env.signatures deviceId reason now).1 := by
  rcases revoke_cases env hSeed deviceId reason now with ⟨e, hEq⟩ | ⟨_, _, hEq⟩
  · rw [hEq]
    exact .refl env m
  · refine ⟨⟨[.revoke deviceId reason now], rfl⟩, by rw [hEq], ?_⟩
    rw [hEq]
    exact .revoked deviceId rfl fun d => isRevoked_crlPush

end MeshConfig

open MeshConfig

/-- A command. -/
theorem Command.revises {env : MeshEnv} {m m' : MeshConfig} {seed : Bytes} {now : Nat} {c : Command}
    (hSha : ∀ bs, 32 ≤ (env.sha256 bs).length) (hSeed : m.rootSeed = .ok seed)
    (h : c.run env m now = .ok m') : m.Revises env m' := by
  cases c with
  | invite ip raw =>
    have h : (Command.checkBoundIp m ip >>= fun _ => _) = .ok m' := h
    obtain ⟨_, _, hEq⟩ := bind_eq_ok.mp h
    cases hEq
    exact ⟨⟨[.createInvite raw ip inviteTtlSecs now], rfl⟩, rfl, .kept rfl rfl⟩
  | issue ikX ikS ip =>
    have hRevises : m.Revises env (m.issueCert env ikX ikS (ip.getD "") none now).1 :=
      revises_issueCert hSha fun _ hNone => nomatch hNone
    have h : Command.succeeded (m.issueCert env ikX ikS (ip.getD "") none now) = .ok m' := h
    obtain ⟨_, hIssue⟩ := Command.succeeded_eq_ok.mp h
    rw [hIssue] at hRevises
    exact hRevises
  | revoke target reason =>
    have h : (parseReason reason >>= fun _ => _) = .ok m' := h
    obtain ⟨reason, _, h⟩ := bind_eq_ok.mp h
    obtain ⟨deviceId, _, h⟩ := bind_eq_ok.mp h
    have hRevises : m.Revises env (m.revoke env.signatures deviceId reason now).1 :=
      revises_revoke hSeed deviceId reason now
    obtain ⟨_, hRevoke⟩ := Command.succeeded_eq_ok.mp h
    rw [hRevoke] at hRevises
    exact hRevises

namespace Signaling

/-- Completing a JOIN is two operations that change aliases and join codes. -/
theorem leads_completeJoin (env : SignalingEnv Ct) (m : MeshConfig) (jb : JoinBody) (deviceId : String)
    (aliasName : Option String) (now : Nat) :
    m.Leads env.meshEnv (completeJoin env m jb deviceId aliasName now) := by
  cases aliasName with
  | none => exact ⟨[.consumeInvite jb.code now], rfl⟩
  | some a => exact ⟨[.setMemberAlias deviceId a, .consumeInvite jb.code now], rfl⟩

/-- A JOIN. -/
theorem revises_enroll {env : SignalingEnv Ct} (hSha : ∀ bs, 32 ≤ (env.sha256 bs).length) (m : MeshConfig)
    (jb : JoinBody) (d : JoinDraw) : m.Revises env.meshEnv (enroll env m jb d).1 := by
  rcases enroll_cases env m jb d with ⟨⟨e, hEq⟩, _⟩ | ⟨ip, granted, seed, hIssues, hEnd⟩
  · rw [hEq]
    exact .refl env.meshEnv m
  obtain ⟨_, keyX, keyS, _, _, _, hDevice, _⟩ := joinChecks_eq_ok.mp hIssues.checks
  have hIssued : m.Revises env.meshEnv (issued env m jb d granted seed) := by
    have hRevises : m.Revises env.meshEnv
        (m.issueCert env.meshEnv jb.ikX jb.ikSPub ip (some jb.deviceId) d.issueNow).1 := by
      refine revises_issueCert hSha fun device hNote => ⟨keyX, keyS, ?_⟩
      cases hNote
      exact hDevice
    rw [issueCert_of_checks hIssues.issue] at hRevises
    exact hRevises
  rcases hEnd with ⟨e, _, hEq⟩ | ⟨aliasName, _, hEq⟩
  · rw [hEq]
    exact hIssued
  · rw [hEq]
    obtain ⟨members, invites, hFrame⟩ :=
      completeJoin_frame env (issued env m jb d granted seed) jb jb.deviceId aliasName d.consumeNow
    have hCerts : (completeJoin env (issued env m jb d granted seed) jb jb.deviceId aliasName
        d.consumeNow).members.map (·.cert) = (issued env m jb d granted seed).members.map (·.cert) :=
      completeJoin_map _ (fun _ _ => rfl) jb.deviceId aliasName d.consumeNow
    refine hIssued.keep (leads_completeJoin env _ jb jb.deviceId aliasName d.consumeNow) hCerts ?_ ?_
    · rw [hFrame]
    · rw [hFrame]

/-- An event at the server. -/
theorem revises_next {env : SignalingEnv Ct} {s : Signaling} {seed : Bytes}
    (hSha : ∀ bs, 32 ≤ (env.sha256 bs).length) (hSeed : s.mesh.rootSeed = .ok seed) (e : ServerEvent Ct) :
    s.mesh.Revises env.meshEnv (s.next env e).mesh := by
  rcases mesh_next env s e with hSame | ⟨jb, d, hJoin⟩ | ⟨deviceId, reason, now, _, hRevoke⟩
  · rw [hSame]
    exact .refl _ _
  · rw [hJoin]
    exact revises_enroll hSha s.mesh jb d
  · rw [hRevoke]
    exact revises_revoke hSeed deviceId reason now

end Signaling

-- ---------------------------------------------------------------------------
-- The latest registry accounts for every certificate
-- ---------------------------------------------------------------------------

/-- Every certificate belongs to a member or to a revoked device, and no two to
one X25519 key. -/
structure Ledger (env : MeshEnv) (verifyingKey : Bytes → Bytes) (m : MeshConfig)
    (issued : List DeviceCert) : Prop where
  meshId : OneLine m.meshId
  coherent : Coherent env m
  signed : ∃ seed, seed.length = 32 ∧ RootSigned env verifyingKey seed m
  enrolled : ∀ x ∈ m.members, x.cert ∈ issued
  held : ∀ c ∈ issued, m.isRevoked c.deviceId = true ∨ ∃ x ∈ m.members, x.cert = c
  certified : ∀ c ∈ issued, c.Certified
  owners : ∀ c ∈ issued, ∀ c' ∈ issued, ∀ k, parsePublicKey c.ikX = .ok k →
    parsePublicKey c'.ikX = .ok k → c = c'

namespace Ledger

variable {env : MeshEnv} {verifyingKey : Bytes → Bytes} {m m' : MeshConfig} {issued : List DeviceCert}
  {c c' : DeviceCert}

theorem member_deviceId (h : Ledger env verifyingKey m issued) {x : MemberEntry} (hx : x ∈ m.members) :
    x.cert.deviceId = x.deviceId := by
  obtain ⟨seed, _, hSigned⟩ := h.signed
  exact (hSigned.certs x hx).1

/-- A device that is not revoked is the member of its certificate. -/
theorem member_of_live (h : Ledger env verifyingKey m issued) (hc : c ∈ issued)
    (hLive : m.isRevoked c.deviceId = false) : ∃ x ∈ m.members, x.cert = c := by
  rcases h.held c hc with hRevoked | hMember
  · rw [hLive] at hRevoked
    cases hRevoked
  · exact hMember

/-- Devices that are not revoked have different IPs. -/
theorem ip_unique (h : Ledger env verifyingKey m issued) (hc : c ∈ issued) (hc' : c' ∈ issued)
    (hLive : m.isRevoked c.deviceId = false) (hLive' : m.isRevoked c'.deviceId = false)
    (hIp : c.allowedIp = c'.allowedIp) : c = c' := by
  obtain ⟨x, hx, rfl⟩ := h.member_of_live hc hLive
  obtain ⟨y, hy, rfl⟩ := h.member_of_live hc' hLive'
  rw [List.inj_on_of_nodup_map h.coherent.ips hx hy hIp]

/-- No certificate of a device that is neither a member nor revoked. -/
theorem device_ne (h : Ledger env verifyingKey m issued) (hc : c ∈ issued) {deviceId : String}
    (hNew : ∀ x ∈ m.members, x.deviceId ≠ deviceId) (hLive : m.isRevoked deviceId = false) :
    c.deviceId ≠ deviceId := by
  rintro rfl
  obtain ⟨x, hx, rfl⟩ := h.member_of_live hc hLive
  exact hNew x hx (h.member_deviceId hx).symm

theorem of_kept (h : Ledger env verifyingKey m issued) (hCoherent : Coherent env m')
    (hSigned : ∃ seed, seed.length = 32 ∧ RootSigned env verifyingKey seed m')
    (hMesh : m'.meshId = m.meshId) (hCerts : m'.members.map (·.cert) = m.members.map (·.cert))
    (hCrl : m'.crl = m.crl) : Ledger env verifyingKey m' issued := by
  have hMember : ∀ c, (∃ x ∈ m'.members, x.cert = c) ↔ ∃ x ∈ m.members, x.cert = c := by
    intro c
    rw [← List.mem_map, ← List.mem_map, hCerts]
  refine ⟨hMesh ▸ h.meshId, hCoherent, hSigned, fun x hx => ?_, fun c hc => ?_, h.certified, h.owners⟩
  · obtain ⟨y, hy, hEq⟩ := (hMember x.cert).mp ⟨x, hx, rfl⟩
    exact hEq ▸ h.enrolled y hy
  · rw [isRevoked_congr hCrl, hMember]
    exact h.held c hc

theorem of_certified (h : Ledger env verifyingKey m issued) (hCoherent : Coherent env m')
    (hSigned : ∃ seed, seed.length = 32 ∧ RootSigned env verifyingKey seed m')
    (hMesh : m'.meshId = m.meshId) (hCerts : m'.members.map (·.cert) = m.members.map (·.cert) ++ [c])
    (hCrl : m'.crl = m.crl) (hText : c.Certified)
    (hKey : ∀ c' ∈ issued, ∀ k, parsePublicKey c'.ikX = .ok k → parsePublicKey c.ikX ≠ .ok k) :
    Ledger env verifyingKey m' (issued ++ [c]) := by
  have hMember : ∀ c', (∃ x ∈ m'.members, x.cert = c') ↔ (∃ x ∈ m.members, x.cert = c') ∨ c' = c := by
    intro c'
    rw [← List.mem_map, ← List.mem_map, hCerts, List.mem_append, List.mem_singleton]
  refine ⟨hMesh ▸ h.meshId, hCoherent, hSigned, fun x hx => ?_, fun c' hc' => ?_, fun c' hc' => ?_,
    fun c₁ hc₁ c₂ hc₂ k hk₁ hk₂ => ?_⟩
  · rcases (hMember x.cert).mp ⟨x, hx, rfl⟩ with ⟨y, hy, hEq⟩ | hNew
    · exact List.mem_append_left _ (hEq ▸ h.enrolled y hy)
    · exact List.mem_append_right _ (List.mem_singleton.mpr hNew)
  · rw [isRevoked_congr hCrl, hMember]
    rcases List.mem_append.mp hc' with hOld | hLast
    · exact (h.held c' hOld).imp_right .inl
    · exact .inr (.inr (List.mem_singleton.mp hLast))
  · rcases List.mem_append.mp hc' with hOld | hLast
    · exact h.certified c' hOld
    · exact List.mem_singleton.mp hLast ▸ hText
  · rcases List.mem_append.mp hc₁ with hOld₁ | hLast₁
    · rcases List.mem_append.mp hc₂ with hOld₂ | hLast₂
      · exact h.owners c₁ hOld₁ c₂ hOld₂ k hk₁ hk₂
      · rw [List.mem_singleton.mp hLast₂] at hk₂
        exact absurd hk₂ (hKey c₁ hOld₁ k hk₁)
    · rcases List.mem_append.mp hc₂ with hOld₂ | hLast₂
      · rw [List.mem_singleton.mp hLast₁] at hk₁
        exact absurd hk₁ (hKey c₂ hOld₂ k hk₂)
      · rw [List.mem_singleton.mp hLast₁, List.mem_singleton.mp hLast₂]

theorem of_revoked (h : Ledger env verifyingKey m issued) (hCoherent : Coherent env m')
    (hSigned : ∃ seed, seed.length = 32 ∧ RootSigned env verifyingKey seed m')
    (hMesh : m'.meshId = m.meshId) {deviceId : String}
    (hCerts : m'.members.map (·.cert) = (m.members.filter (·.deviceId != deviceId)).map (·.cert))
    (hRevoked : ∀ d, m'.isRevoked d = (m.isRevoked d || deviceId == d)) :
    Ledger env verifyingKey m' issued := by
  have hMember : ∀ c, (∃ x ∈ m'.members, x.cert = c) ↔
      ∃ x ∈ m.members.filter (·.deviceId != deviceId), x.cert = c := by
    intro c
    rw [← List.mem_map, ← List.mem_map, hCerts]
  refine ⟨hMesh ▸ h.meshId, hCoherent, hSigned, fun x hx => ?_, fun c hc => ?_, h.certified, h.owners⟩
  · obtain ⟨y, hy, hEq⟩ := (hMember x.cert).mp ⟨x, hx, rfl⟩
    exact hEq ▸ h.enrolled y (List.mem_filter.mp hy).1
  · rw [hRevoked, hMember]
    rcases h.held c hc with hOld | ⟨x, hx, rfl⟩
    · left
      rw [hOld]
      rfl
    · by_cases hDevice : x.deviceId = deviceId
      · left
        rw [h.member_deviceId hx, hDevice]
        simp
      · exact .inr ⟨x, List.mem_filter.mpr ⟨hx, bne_iff_ne.mpr hDevice⟩, rfl⟩

end Ledger

-- ---------------------------------------------------------------------------
-- The runs in question
-- ---------------------------------------------------------------------------

/-- A REGISTER or a HEARTBEAT. -/
def Refreshes (f : SignalFrame Ct) : Prop := f.msgType = msgRegister ∨ f.msgType = msgHeartbeat

namespace Site

/-- The copy of the registry that an event works on, before and after. -/
def transition (env : SignalingEnv Ct) (w : Site) : SiteEvent Ct → Option (MeshConfig × MeshConfig)
  | .command c now saved =>
    match c.run env.meshEnv w.disk now with
    | .error _ => none
    | .ok m => if saved then some (w.disk, m) else none
  | .server e _ => w.daemon.map fun s => (s.mesh, (s.next env e).mesh)
  | _ => none

/-- Signatures of certificates cannot be forged: what verifies under the root
key of the server has the bytes of an issued certificate. -/
def Unforged (env : SignalingEnv Ct) (w : Site) : SiteEvent Ct → Prop
  | .server (.datagram f _ d) _ =>
    ∀ s, w.daemon = some s → ∀ ab, Signaling.CarriesAuth env f ab →
      ∀ rootPub, s.mesh.rootPublicRaw = .ok rootPub →
        ab.cert.verify env.signatures rootPub d.auth.now = .ok () →
          ∃ c ∈ w.issued, c.canonicalBytes = ab.cert.canonicalBytes
  | _ => True

/-- Different devices have different X25519 keys: a new certificate is for a key
that no other device has. -/
def DistinctKeys (env : SignalingEnv Ct) (w : Site) (e : SiteEvent Ct) : Prop :=
  ∀ old new, w.transition env e = some (old, new) → ∀ x ∈ new.members, x.cert ∉ w.issued →
    ∀ c ∈ w.issued, ∀ k, parsePublicKey c.ikX = .ok k → parsePublicKey x.cert.ikX = .ok k →
      c.deviceId = x.cert.deviceId

/-- What is promised of any run. -/
structure Promised (env : SignalingEnv Ct) (w : Site) (e : SiteEvent Ct) : Prop where
  unforged : w.Unforged env e
  distinct : w.DistinctKeys env e

/-- A copy of the registry that an event changes is as the last change left it. -/
def UpToDate (env : SignalingEnv Ct) (w : Site) (e : SiteEvent Ct) : Prop :=
  ∀ old new, w.transition env e = some (old, new) → new ≠ old → old = w.latest

/-- When a session registers or refreshes a route, and its device is revoked in
the latest registry, the server has been told. -/
def Told (w : Site) : SiteEvent Ct → Prop
  | .server (.datagram f _ _) _ =>
    Refreshes f → ∀ s e, w.daemon = some s →
      s.sessions[f.sender]? = some e → w.latest.isRevoked e.deviceId = true →
        s.mesh.isRevoked e.deviceId = true
  | _ => True

-- ---------------------------------------------------------------------------
-- The ledger along a run
-- ---------------------------------------------------------------------------

variable {env : SignalingEnv Ct} {verifyingKey : Bytes → Bytes} {w : Site} {ev : SiteEvent Ct}
  {old new : MeshConfig}

theorem next_of_transition (h : w.transition env ev = some (old, new)) :
    (w.next env ev).latest = (w.change old new).latest ∧
      (w.next env ev).issued = (w.change old new).issued := by
  cases ev with
  | command c now saved =>
    unfold transition at h
    unfold next
    dsimp only at h ⊢
    cases hRun : c.run env.meshEnv w.disk now with
    | error e =>
      rw [hRun] at h
      cases h
    | ok m =>
      rw [hRun] at h
      dsimp only at h ⊢
      by_cases hSaved : saved = true
      · rw [if_pos hSaved] at h ⊢
        cases h
        exact ⟨rfl, rfl⟩
      · rw [if_neg hSaved] at h
        cases h
  | start rooms aliases now => cases h
  | stop => cases h
  | server e saved =>
    obtain ⟨s, hDaemon, hEq⟩ := Option.map_eq_some_iff.mp h
    cases hEq
    unfold next
    dsimp only
    rw [hDaemon]
    dsimp only
    split
    · exact ⟨rfl, rfl⟩
    · exact ⟨rfl, rfl⟩

theorem transition_server {s : Signaling} (h : w.daemon = some s) (e : ServerEvent Ct) (saved : Bool) :
    w.transition env (.server e saved) = some (s.mesh, (s.next env e).mesh) := by
  unfold transition
  dsimp only
  rw [h, Option.map_some]

theorem next_of_no_transition (h : w.transition env ev = none) :
    (w.next env ev).latest = w.latest ∧ (w.next env ev).issued = w.issued := by
  cases ev with
  | command c now saved =>
    unfold transition at h
    unfold next
    dsimp only at h ⊢
    cases hRun : c.run env.meshEnv w.disk now with
    | error e => exact ⟨rfl, rfl⟩
    | ok m =>
      rw [hRun] at h
      dsimp only at h ⊢
      by_cases hSaved : saved = true
      · rw [if_pos hSaved] at h
        cases h
      · rw [if_neg hSaved]
        exact ⟨rfl, rfl⟩
  | start rooms aliases now =>
    unfold next
    dsimp only
    split
    · exact ⟨rfl, rfl⟩
    · exact ⟨rfl, rfl⟩
  | stop => exact ⟨rfl, rfl⟩
  | server e saved =>
    have hNone : w.daemon = none := Option.map_eq_none_iff.mp h
    unfold next
    dsimp only
    rw [hNone]
    exact ⟨rfl, rfl⟩

theorem transition_revises {seed : Bytes} (hSha : ∀ bs, 32 ≤ (env.sha256 bs).length)
    (h : w.transition env ev = some (old, new)) (hSeed : old.rootSeed = .ok seed) :
    old.Revises env.meshEnv new := by
  cases ev with
  | command c now saved =>
    unfold transition at h
    dsimp only at h
    split at h
    · cases h
    · rename_i m hRun
      split at h
      · cases h
        exact Command.revises hSha hSeed hRun
      · cases h
  | start rooms aliases now => cases h
  | stop => cases h
  | server e saved =>
    obtain ⟨s, _, hEq⟩ := Option.map_eq_some_iff.mp h
    cases hEq
    exact Signaling.revises_next hSha hSeed e

/-- No certificate is forgotten. -/
theorem issued_next (env : SignalingEnv Ct) (w : Site) (ev : SiteEvent Ct) {c : DeviceCert}
    (hc : c ∈ w.issued) : c ∈ (w.next env ev).issued := by
  cases hChange : w.transition env ev with
  | none =>
    rw [(next_of_no_transition hChange).2]
    exact hc
  | some p =>
    rw [(next_of_transition hChange).2]
    unfold change
    split
    · exact hc
    · exact List.mem_append_left _ hc

/-- Certificates that are known are not recorded again. -/
theorem filter_known {l : List MemberEntry} {issued : List DeviceCert} (h : ∀ x ∈ l, x.cert ∈ issued) :
    (l.map (·.cert)).filter (· ∉ issued) = [] := by
  rw [List.filter_eq_nil_iff]
  intro c hc
  obtain ⟨x, hx, rfl⟩ := List.mem_map.mp hc
  simpa using h x hx

theorem change_known (h : ∀ x ∈ new.members, x.cert ∈ w.issued) :
    w.change w.latest new = { w with latest := new } := by
  unfold change
  rw [filter_known h, List.append_nil]
  split
  · rename_i hSame
    rw [hSame]
  · rfl

/-- A new certificate is recorded. -/
theorem change_certified {c : DeviceCert} (hKnown : ∀ x ∈ old.members, x.cert ∈ w.issued)
    (hCerts : new.members.map (·.cert) = old.members.map (·.cert) ++ [c]) (hNew : c ∉ w.issued) :
    w.change old new = { w with latest := new, issued := w.issued ++ [c] } := by
  have hChanged : new ≠ old := by
    rintro rfl
    have hLength := congrArg List.length hCerts
    rw [List.length_append, List.length_singleton] at hLength
    omega
  unfold change
  rw [if_neg hChanged, hCerts, List.filter_append, filter_known hKnown, List.nil_append,
    List.filter_cons_of_pos (by simpa using hNew), List.filter_nil]

/-- The running server issues a certificate. -/
theorem next_server_certified {s : Signaling} {c : DeviceCert} {e : ServerEvent Ct}
    (hDaemon : w.daemon = some s) (hKnown : ∀ x ∈ s.mesh.members, x.cert ∈ w.issued)
    (hCerts : (s.next env e).mesh.members.map (·.cert) = s.mesh.members.map (·.cert) ++ [c])
    (hNew : c ∉ w.issued) (saved : Bool) :
    (w.next env (.server e saved)).latest = (s.next env e).mesh ∧
      (w.next env (.server e saved)).issued = w.issued ++ [c] := by
  obtain ⟨hLatest, hIssued⟩ := next_of_transition (transition_server hDaemon e saved)
  rw [change_certified hKnown hCerts hNew] at hLatest hIssued
  exact ⟨hLatest, hIssued⟩

theorem ledger_change {env : MeshEnv} (hLawful : env.signatures.Lawful verifyingKey)
    (h : Ledger env verifyingKey w.latest w.issued) (hRevises : w.latest.Revises env new)
    (hDistinct : ∀ x ∈ new.members, x.cert ∉ w.issued → ∀ c ∈ w.issued, ∀ k,
      parsePublicKey c.ikX = .ok k → parsePublicKey x.cert.ikX = .ok k → c.deviceId = x.cert.deviceId) :
    Ledger env verifyingKey (w.change w.latest new).latest (w.change w.latest new).issued := by
  obtain ⟨seed, hSeed, hSigned⟩ := h.signed
  obtain ⟨hCoherent, hSigned'⟩ := coherent_leads hLawful hSeed hRevises.leads hSigned h.coherent
  cases hRevises.revision with
  | kept hCerts hCrl =>
    have hKnown : ∀ x ∈ new.members, x.cert ∈ w.issued := by
      intro x hx
      obtain ⟨y, hy, hEq⟩ : ∃ y ∈ w.latest.members, y.cert = x.cert := by
        rw [← List.mem_map, ← hCerts]
        exact List.mem_map_of_mem hx
      exact hEq ▸ h.enrolled y hy
    rw [change_known hKnown]
    exact h.of_kept hCoherent ⟨seed, hSeed, hSigned'⟩ hRevises.meshId hCerts hCrl
  | certified c hCerts hCrl hNew hLive hText =>
    have hUnknown : c ∉ w.issued := fun hc => h.device_ne hc hNew hLive rfl
    rw [change_certified h.enrolled hCerts hUnknown]
    obtain ⟨x, hx, rfl⟩ : ∃ x ∈ new.members, x.cert = c := by
      rw [← List.mem_map, hCerts]
      exact List.mem_append_right _ (List.mem_singleton_self c)
    refine h.of_certified hCoherent ⟨seed, hSeed, hSigned'⟩ hRevises.meshId hCerts hCrl (hText h.meshId) ?_
    intro c' hc' k hk hk'
    exact h.device_ne hc' hNew hLive (hDistinct x hx hUnknown c' hc' k hk hk')
  | revoked deviceId hCerts hRevoked =>
    have hKnown : ∀ x ∈ new.members, x.cert ∈ w.issued := by
      intro x hx
      obtain ⟨y, hy, hEq⟩ : ∃ y ∈ w.latest.members.filter (·.deviceId != deviceId), y.cert = x.cert := by
        rw [← List.mem_map, ← hCerts]
        exact List.mem_map_of_mem hx
      exact hEq ▸ h.enrolled y (List.mem_filter.mp hy).1
    rw [change_known hKnown]
    exact h.of_revoked hCoherent ⟨seed, hSeed, hSigned'⟩ hRevises.meshId hCerts hRevoked

/-- The step lemma for the registry. -/
theorem ledger_next (hLawful : env.signatures.Lawful verifyingKey)
    (hSha : ∀ bs, 32 ≤ (env.sha256 bs).length) (h : Ledger env.meshEnv verifyingKey w.latest w.issued)
    (hDistinct : w.DistinctKeys env ev) (hUpToDate : w.UpToDate env ev) :
    Ledger env.meshEnv verifyingKey (w.next env ev).latest (w.next env ev).issued := by
  cases hChange : w.transition env ev with
  | none =>
    obtain ⟨hLatest, hIssued⟩ := next_of_no_transition hChange
    rw [hLatest, hIssued]
    exact h
  | some p =>
    obtain ⟨old, new⟩ := p
    obtain ⟨hLatest, hIssued⟩ := next_of_transition hChange
    rw [hLatest, hIssued]
    by_cases hSame : new = old
    · unfold change
      rw [if_pos hSame]
      exact h
    · have hOld := hUpToDate old new hChange hSame
      obtain ⟨seed, hSeed, hSigned⟩ := h.signed
      have hRevises := transition_revises hSha hChange (by rw [hOld]; exact hSigned.rootSeed hSeed)
      subst hOld
      exact ledger_change hLawful h hRevises (hDistinct w.latest new hChange)

end Site

-- ---------------------------------------------------------------------------
-- Sessions and routes carry the IP of a certificate
-- ---------------------------------------------------------------------------

/-- The route has key and IP of an issued certificate. -/
def RouteCertified (issued : List DeviceCert) (x : RouteEntry) : Prop :=
  ∃ c ∈ issued, parsePublicKey c.ikX = .ok x.publicKey ∧ c.allowedIp = x.ip

/-- What holds of a running server. -/
structure Serves (issued : List DeviceCert) (s : Signaling) : Prop where
  sessions : ∀ (k : RawKey) e, s.sessions[k]? = some e →
    ∃ c ∈ issued, parsePublicKey c.ikX = .ok e.ikX ∧ c.allowedIp = e.ip ∧ c.deviceId = e.deviceId
  live : ∀ (k : RawKey) e, s.sessions[k]? = some e → s.mesh.isRevoked e.deviceId = false
  routes : s.routes.All (RouteCertified issued)
  table : RouteTable.tableMachine.Reach (fun _ _ => True) s.routes

namespace Signaling

variable {env : SignalingEnv Ct} {s : Signaling} {issued issued' : List DeviceCert}

theorem serves_mono (h : Serves issued s) (hMore : ∀ c ∈ issued, c ∈ issued') : Serves issued' s := by
  refine ⟨fun k e hEntry => ?_, h.live, fun k x hx => ?_, h.table⟩
  · obtain ⟨c, hc, hCert⟩ := h.sessions k e hEntry
    exact ⟨c, hMore c hc, hCert⟩
  · obtain ⟨c, hc, hCert⟩ := h.routes k x hx
    exact ⟨c, hMore c hc, hCert⟩

theorem serves_start (issued : List DeviceCert) (mesh : MeshConfig) (rooms : List RoomEntry)
    (aliases : ExtTreeMap String String) : Serves issued (start mesh rooms aliases) := by
  have hNone : ∀ (k : RawKey) e, (start mesh rooms aliases).sessions[k]? ≠ some e := by
    intro k e hEntry
    have hEmpty : (start mesh rooms aliases).sessions[k]? = none := ExtTreeMap.getElem?_empty
    rw [hEmpty] at hEntry
    cases hEntry
  refine ⟨fun k e hEntry => absurd hEntry (hNone k e), fun k e hEntry => absurd hEntry (hNone k e),
    fun k x hx => ?_, .init rfl⟩
  have hEmpty : (start mesh rooms aliases).routes.byKey[k]? = none := ExtTreeMap.getElem?_empty
  rw [hEmpty] at hx
  cases hx

/-- An admitted AUTH presents an issued certificate. -/
theorem certificate_of_admits {f : SignalFrame Ct} {src : SourceAddr} {d : SignalDraw} {ab : AuthBody}
    {room : String} {nonce : Bytes} {ekC : RawKey} (hText : ∀ c ∈ issued, c.Certified)
    (hUnforged : ∀ rootPub, s.mesh.rootPublicRaw = .ok rootPub →
      ab.cert.verify env.signatures rootPub d.auth.now = .ok () →
        ∃ c ∈ issued, c.canonicalBytes = ab.cert.canonicalBytes)
    (hCarries : CarriesAuth env f ab) (hAdmits : Admits env s f.sender ab src d.auth room nonce ekC) :
    ∃ c ∈ issued, parsePublicKey c.ikX = .ok f.sender ∧ c.allowedIp = ab.cert.allowedIp ∧
      c.deviceId = ab.deviceId := by
  obtain ⟨rootPub, keyS, hRoot, hVerify, _, hMatch, hDevice, _⟩ := authChecks_eq_ok.mp hAdmits.checks
  obtain ⟨c, hc, hBytes⟩ := hUnforged rootPub hRoot hVerify
  obtain ⟨_, _, hBody⟩ := hCarries.body
  obtain ⟨hId, hX, _, hIp⟩ :=
    DeviceCert.canonicalBytes_inj (hText c hc) (DeviceCert.offWire_of_decodeAuth hBody) hBytes
  refine ⟨c, hc, ?_, hIp, hId.trans hDevice.symm⟩
  rw [hX]
  exact (DeviceCert.matchesKeys_eq_ok.mp hMatch).1

/-- A device that was not revoked is revoked only by a revocation of its own. -/
theorem revoked_next {deviceId : String} {e : ServerEvent Ct} {seed : Bytes}
    (hSeed : (s.next env e).mesh ≠ s.mesh → s.mesh.rootSeed = .ok seed)
    (hLive : s.mesh.isRevoked deviceId = false) (hAfter : (s.next env e).mesh.isRevoked deviceId = true) :
    ∃ reason now version, e = .revoke deviceId reason now ∧
      (s.revokeDevice env deviceId reason now).2 = .ok version := by
  have hChanged : (s.next env e).mesh ≠ s.mesh := by
    intro hSame
    rw [hSame, hLive] at hAfter
    cases hAfter
  rcases mesh_next env s e with hSame | ⟨jb, d, hJoin⟩ | ⟨device, reason, now, rfl, hRevoke⟩
  · exact absurd hSame hChanged
  · rw [hJoin, isRevoked_congr (enroll_crl env s.mesh jb d), hLive] at hAfter
    cases hAfter
  · rcases revoke_cases env.meshEnv (hSeed hChanged) device reason now with ⟨e, hEq⟩ | ⟨_, _, hEq⟩
    · have hEq : s.mesh.revoke env.signatures device reason now = (s.mesh, .error e) := hEq
      rw [hEq] at hRevoke
      exact absurd hRevoke hChanged
    · have hEq : s.mesh.revoke env.signatures device reason now = _ := hEq
      have hListed : (s.mesh.crlPush device reason now).isRevoked deviceId = true := by
        rw [hRevoke, hEq] at hAfter
        exact hAfter
      rw [isRevoked_crlPush, hLive, Bool.false_or, beq_iff_eq] at hListed
      subst hListed
      refine ⟨reason, now, s.mesh.crl.version + 1, rfl, ?_⟩
      unfold revokeDevice
      rw [hEq]
      rfl

/-- The step lemma for the server. -/
theorem serves_next {e : ServerEvent Ct} {seed : Bytes} (h : Serves issued s)
    (hText : ∀ c ∈ issued, c.Certified)
    (hSeed : (s.next env e).mesh ≠ s.mesh → s.mesh.rootSeed = .ok seed)
    (hUnforged : ∀ f src d, e = .datagram f src d → ∀ ab, CarriesAuth env f ab →
      ∀ rootPub, s.mesh.rootPublicRaw = .ok rootPub →
        ab.cert.verify env.signatures rootPub d.auth.now = .ok () →
          ∃ c ∈ issued, c.canonicalBytes = ab.cert.canonicalBytes) :
    Serves issued (s.next env e) := by
  have hKeyed := RouteTable.keyed_reach h.table
  refine ⟨fun k entry hEntry => ?_, fun k entry hEntry => ?_, ?_, (leads_next env s e).reach h.table⟩
  · rcases session_next hEntry with
      ⟨old, hOld, _, _, rfl⟩ | ⟨f, src, d, ab, room, nonce, ekC, rfl, _, hCarries, hAdmits, rfl⟩
    · exact h.sessions k old hOld
    · exact certificate_of_admits hText (hUnforged f src d rfl ab hCarries) hCarries hAdmits
  · by_contra hNot
    have hAfter : (s.next env e).mesh.isRevoked entry.deviceId = true := by simpa using hNot
    have hLive : s.mesh.isRevoked entry.deviceId = false := by
      rcases session_next hEntry with
        ⟨old, hOld, _, _, rfl⟩ | ⟨f, src, d, ab, room, nonce, ekC, rfl, _, _, hAdmits, rfl⟩
      · exact h.live k old hOld
      · obtain ⟨_, _, _, _, _, _, _, hCrl, _⟩ := authChecks_eq_ok.mp hAdmits.checks
        exact hCrl
    obtain ⟨reason, now, version, rfl, hOk⟩ := revoked_next hSeed hLive hAfter
    -- its sessions are gone
    obtain ⟨mesh, hEq⟩ := revokeDevice_ok hOk
    have hEntry : (s.revokeDevice env entry.deviceId reason now).1.sessions[k]? = some entry := hEntry
    rw [hEq] at hEntry
    have hEntry : (eraseAll s.sessions ((s.victims entry.deviceId).map (·.1)))[k]? = some entry := hEntry
    obtain ⟨hSpared, hOld⟩ := of_getElem?_eraseAll hEntry
    exact hSpared (List.mem_map.mpr ⟨(k, entry.ikX), mem_victims.mpr ⟨entry, hOld, rfl, rfl⟩, rfl⟩)
  · refine all_next h.routes ⟨?_, ?_, ?_⟩
    · intro sender entry hEntry _ _ _ _ _ _ _
      obtain ⟨c, hc, hKey, hIp, _⟩ := h.sessions sender entry hEntry
      exact ⟨c, hc, hKey, hIp⟩
    · intro sender entry _ old hOld _ _
      obtain ⟨c, hc, hKey, hIp⟩ := h.routes entry.ikX old hOld
      rw [hKeyed entry.ikX old hOld] at hKey
      exact ⟨c, hc, hKey, hIp⟩
    · intro srcKey old hOld _
      obtain ⟨c, hc, hKey, hIp⟩ := h.routes srcKey old hOld
      rw [hKeyed srcKey old hOld] at hKey
      exact ⟨c, hc, hKey, hIp⟩

end Signaling

namespace Site

variable {env : SignalingEnv Ct} {verifyingKey : Bytes → Bytes} {w : Site}

/-- The registry accounts for the certificates, and the server serves no others. -/
def Accounts (env : SignalingEnv Ct) (verifyingKey : Bytes → Bytes) (w : Site) : Prop :=
  Ledger env.meshEnv verifyingKey w.latest w.issued ∧ ∀ s, w.daemon = some s → Serves w.issued s

theorem accounts_init (hLawful : env.signatures.Lawful verifyingKey)
    (hInit : (machine env verifyingKey).init w) : w.Accounts env verifyingKey := by
  obtain ⟨meshId, seed, hMesh, hSeed, rfl⟩ := hInit
  have hCoherent : Coherent env.meshEnv (.init env.meshEnv verifyingKey meshId seed) :=
    coherent_init hLawful meshId seed
  refine ⟨⟨hMesh, hCoherent, ⟨seed, hSeed, rootSigned_init _ _ _ _⟩, ?_, ?_, ?_, ?_⟩, ?_⟩
  · exact fun x hx => absurd hx List.not_mem_nil
  · exact fun c hc => absurd hc List.not_mem_nil
  · exact fun c hc => absurd hc List.not_mem_nil
  · exact fun c hc => absurd hc List.not_mem_nil
  · intro s hDaemon
    cases hDaemon

/-- A server that runs after an event was started by it or handled it, if it
did not run before. -/
theorem daemon_next {ev : SiteEvent Ct} {s : Signaling} (h : (w.next env ev).daemon = some s) :
    w.daemon = some s ∨ (∃ mesh rooms aliases, s = Signaling.start mesh rooms aliases) ∨
    ∃ old e saved, ev = .server e saved ∧ w.daemon = some old ∧ s = old.next env e := by
  have hChange : ∀ old new, (w.change old new).daemon = w.daemon := by
    intro old new
    unfold change
    split
    · rfl
    · rfl
  unfold next at h
  cases ev with
  | command c now saved =>
    left
    dsimp only at h
    split at h
    · exact h
    · split at h
      · exact (hChange _ _).symm.trans h
      · exact h
  | start rooms aliases now =>
    dsimp only at h
    split at h
    · cases h
      exact .inr (.inl ⟨_, _, _, rfl⟩)
    · cases h
  | stop => cases h
  | server e saved =>
    dsimp only at h
    split at h
    · exact .inl h
    · rename_i old hOld
      right
      right
      refine ⟨old, e, saved, rfl, hOld, ?_⟩
      split at h
      · exact (Option.some.inj h).symm
      · exact (Option.some.inj h).symm

theorem accounts_next {ev : SiteEvent Ct} (hLawful : env.signatures.Lawful verifyingKey)
    (hSha : ∀ bs, 32 ≤ (env.sha256 bs).length) (h : w.Accounts env verifyingKey)
    (hPromised : w.Promised env ev) (hUpToDate : w.UpToDate env ev) :
    (w.next env ev).Accounts env verifyingKey := by
  obtain ⟨hLedger, hServes⟩ := h
  refine ⟨ledger_next hLawful hSha hLedger hPromised.distinct hUpToDate, fun s hDaemon => ?_⟩
  have hMore : ∀ c ∈ w.issued, c ∈ (w.next env ev).issued := fun c hc => issued_next env w ev hc
  rcases daemon_next hDaemon with hSame | ⟨mesh, rooms, aliases, rfl⟩ | ⟨old, e, saved, rfl, hOld, rfl⟩
  · exact Signaling.serves_mono (hServes s hSame) hMore
  · exact Signaling.serves_start _ mesh rooms aliases
  · obtain ⟨seed, hSeed, hSigned⟩ := hLedger.signed
    -- the copy that changes is the latest registry, whose root key is well formed
    have hRoot : (old.next env e).mesh ≠ old.mesh → old.mesh.rootSeed = .ok seed := by
      intro hChanged
      rw [hUpToDate _ _ (transition_server hOld e saved) hChanged]
      exact hSigned.rootSeed hSeed
    refine Signaling.serves_mono (Signaling.serves_next (hServes old hOld) hLedger.certified hRoot ?_) hMore
    rintro f src d rfl ab hCarries rootPub hRootPub hVerify
    exact hPromised.unforged old hOld ab hCarries rootPub hRootPub hVerify

theorem accounts_reach (hLawful : env.signatures.Lawful verifyingKey)
    (hSha : ∀ bs, 32 ≤ (env.sha256 bs).length)
    (h : (machine env verifyingKey).Reach (fun w ev => w.Promised env ev ∧ w.UpToDate env ev) w) :
    w.Accounts env verifyingKey := by
  refine h.invariant (fun w hInit => accounts_init hLawful hInit) fun w ev hAccounts _ hGuard => ?_
  rw [machine_next]
  exact accounts_next hLawful hSha hAccounts hGuard.1 hGuard.2

end Site

-- ---------------------------------------------------------------------------
-- Routes of other devices
-- ---------------------------------------------------------------------------

namespace Signaling

variable {env : SignalingEnv Ct} {s : Signaling} {f : SignalFrame Ct}

/-- The entry is for the key of the session, with the IP of the session or of
the entry that is there. -/
def StoresFor (s : Signaling) (e : SessionEntry) (x : RouteEntry) : Prop :=
  x.publicKey = e.ikX ∧ (x.ip = e.ip ∨ ∃ old, s.routes.get e.ikX = some old ∧ x.ip = old.ip)

theorem handleSession_refreshes (env : SignalingEnv Ct) (s : Signaling) (f : SignalFrame Ct)
    (src : SourceAddr) (d : RequestDraw) (h : Refreshes f) :
    (s.handleSession env f src d).1.routes = s.routes ∨ ∃ e x, s.sessions[f.sender]? = some e ∧
      StoresFor s e x ∧ (s.handleSession env f src d).1.routes = s.routes.upsert x := by
  rcases handleSession_cases env s f src d with hSame | ⟨e, plaintext, hEntry, hOpen⟩
  · left
    rw [hSame]
  · rw [handleSession_opened hEntry hOpen]
    have hRoutes : (s.commitCounter f.sender e.view.nextSeq d.now).routes = s.routes :=
      commitCounter_routes
    dsimp only
    cases hPlan : planRequest env e.view f.msgType plaintext with
    | register relayRk aliasName =>
      refine .inr ⟨e, registerEntry env e.view src d.routeNow relayRk aliasName, hEntry, ⟨rfl, .inl rfl⟩, ?_⟩
      rw [← hRoutes]
      rfl
    | heartbeat =>
      unfold execute heartbeatRoute
      dsimp only
      rw [hRoutes]
      split
      · rename_i old hOld
        refine .inr ⟨e, heartbeatEntry env e.view src d.routeNow old, hEntry, ⟨rfl, .inr ⟨old, hOld, rfl⟩⟩, ?_⟩
        rw [← hRoutes]
        rfl
      · exact .inl hRoutes
    | bye =>
      have hBye : f.msgType = msgBye := planRequest_bye_iff.mp hPlan
      unfold Refreshes at h
      rw [hBye] at h
      exact absurd h (by decide)
    | fail | refuse | query | unsupported => exact .inl hRoutes

/-- A REGISTER or a HEARTBEAT stores at most one route, that of its session. -/
theorem handleSignaling_refreshes (env : SignalingEnv Ct) (s : Signaling) (f : SignalFrame Ct)
    (src : SourceAddr) (d : SignalDraw) (h : Refreshes f) :
    (s.handleSignaling env f src d).1.routes = s.routes ∨ ∃ e x, s.sessions[f.sender]? = some e ∧
      StoresFor s e x ∧ (s.handleSignaling env f src d).1.routes = s.routes.upsert x := by
  have hKind : f.msgType ≠ msgAuth ∧ f.msgType ≠ msgBye := by
    rcases h with hEq | hEq
    · rw [hEq]
      decide
    · rw [hEq]
      decide
  rcases handleSignaling_cases env s f src d with ⟨hSession, hNoKeyquery⟩ | ⟨_, ab, hCarries⟩ | hBypass
  · rw [handleSignaling_session d hNoKeyquery hSession]
    exact handleSession_refreshes env s f src d.request h
  · exact absurd hCarries.kind hKind.1
  · rcases hBypass.change with ⟨r, members, invites, hEq⟩ | ⟨hBye, _⟩
    · left
      rw [hEq]
    · exact absurd hBye.kind hKind.2

end Signaling

namespace RouteTable

/-- The entry of the key and the IPs bound to it are as before. -/
structure Spares (t t' : RouteTable) (k : RawKey) : Prop where
  byKey : t'.byKey[k]? = t.byKey[k]?
  byIp : ∀ ip : String, t'.byIp[ip]? = some k ↔ t.byIp[ip]? = some k

variable {t : RouteTable} {e : RouteEntry} {k : RawKey}

theorem Spares.refl (t : RouteTable) (k : RawKey) : Spares t t k := ⟨rfl, fun _ => Iff.rfl⟩

/-- An upsert takes over only the entry that has its IP. -/
theorem upsert_spares (h : t.IpIndexed) (hKey : k ≠ e.publicKey)
    (hIp : ∀ x, t.byKey[k]? = some x → x.ip ≠ e.ip) : Spares t (t.upsert e) k := by
  have hDisplaced : t.displaced e ≠ some k := by
    intro hTaken
    unfold displaced at hTaken
    split at hTaken
    · cases hTaken
    · have hHeld : t.byIp[e.ip]? = some k := (Option.filter_eq_some_iff.mp hTaken).1
      obtain ⟨x, hx, hxIp⟩ := (h e.ip k).mp hHeld
      exact hIp x hx (ipKey_eq_some.mp hxIp).1
  have hByKey : (t.upsert e).byKey[k]? = t.byKey[k]? := by
    rw [upsert_byKey, getElem?_insert, if_neg hKey, getElem?_eraseSome, if_neg hDisplaced]
  refine ⟨hByKey, fun ip => ?_⟩
  rw [h.upsert ip k, h ip k, hByKey]

end RouteTable

namespace Site

variable {env : SignalingEnv Ct} {verifyingKey : Bytes → Bytes} {w : Site} {s : Signaling}
  {c c' : DeviceCert} {k : RawKey}

/-- The certificate is of a device that is not revoked. -/
def Holds (w : Site) (c : DeviceCert) : Prop := c ∈ w.issued ∧ w.latest.isRevoked c.deviceId = false

/-- What is stored for one device that is not revoked spares the others. -/
theorem spares_upsert {e : RouteEntry} (h : w.Accounts env verifyingKey) (hDaemon : w.daemon = some s)
    (hc : w.Holds c) (hKey : parsePublicKey c.ikX = .ok e.publicKey) (hIp : c.allowedIp = e.ip)
    (hc' : w.Holds c') (hKey' : parsePublicKey c'.ikX = .ok k) (hOther : k ≠ e.publicKey) :
    RouteTable.Spares s.routes (s.routes.upsert e) k := by
  obtain ⟨hLedger, hServes⟩ := h
  have hServes := hServes s hDaemon
  refine RouteTable.upsert_spares (RouteTable.ipIndexed_reach hServes.table) hOther fun x hx hSame => ?_
  obtain ⟨c₁, hc₁, hKey₁, hIp₁⟩ := hServes.routes k x hx
  rw [RouteTable.keyed_reach hServes.table k x hx] at hKey₁
  have hOwner : c₁ = c' := hLedger.owners c₁ hc₁ c' hc'.1 k hKey₁ hKey'
  subst hOwner
  have hEq : c = c₁ := hLedger.ip_unique hc.1 hc₁ hc.2 hc'.2 (hIp.trans (hSame.symm.trans hIp₁.symm))
  subst hEq
  rw [hKey'] at hKey
  exact hOther (Except.ok.inj hKey)

/-- The route of every device that is not revoked survives the REGISTERs and
HEARTBEATs of the others. -/
def SparesOthers (env : SignalingEnv Ct) (w : Site) : SiteEvent Ct → Prop
  | .server (.datagram f src d) _ =>
    Refreshes f → ∀ s, w.daemon = some s → ∀ c k, w.Holds c → parsePublicKey c.ikX = .ok k →
      (∀ e, s.sessions[f.sender]? = some e → e.ikX ≠ k) →
        RouteTable.Spares s.routes (s.handleSignaling env f src d).1.routes k
  | _ => True

theorem sparesOthers_of_told {ev : SiteEvent Ct} (h : w.Accounts env verifyingKey) (hTold : w.Told ev) :
    w.SparesOthers env ev := by
  match ev with
  | .command .. | .start .. | .stop => trivial
  | .server (.relay ..) _ | .server (.revoke ..) _ | .server (.cleanup ..) _ | .server (.delPeer ..) _
  | .server (.administer ..) _ => trivial
  | .server (.datagram f src d) saved =>
    intro hRefreshes s hDaemon c' k hc' hKey' hOther
    have hServes := h.2 s hDaemon
    rcases Signaling.handleSignaling_refreshes env s f src d hRefreshes with hSame | ⟨e, x, hEntry, hStores, hEq⟩
    · rw [hSame]
      exact .refl _ _
    · obtain ⟨c, hc, hKey, hIp, hDevice⟩ := hServes.sessions f.sender e hEntry
      have hLive : w.latest.isRevoked c.deviceId = false := by
        by_contra hRevoked
        have hRevoked : w.latest.isRevoked e.deviceId = true := by
          rw [← hDevice]
          simpa using hRevoked
        have hKnown := hTold hRefreshes s e hDaemon hEntry hRevoked
        rw [hServes.live f.sender e hEntry] at hKnown
        cases hKnown
      rw [hEq]
      rw [← hStores.1] at hKey
      have hXIp : c.allowedIp = x.ip := by
        rcases hStores.2 with hSession | ⟨old, hOld, hSameIp⟩
        · rw [hIp, hSession]
        · obtain ⟨c₁, hc₁, hKey₁, hIp₁⟩ := hServes.routes e.ikX old hOld
          rw [RouteTable.keyed_reach hServes.table e.ikX old hOld, ← hStores.1] at hKey₁
          rw [h.1.owners c hc c₁ hc₁ x.publicKey hKey hKey₁, hIp₁, hSameIp]
      have hNe : k ≠ x.publicKey := by
        rw [hStores.1]
        exact (hOther e hEntry).symm
      exact spares_upsert h hDaemon ⟨hc, hLive⟩ hKey hXIp hc' hKey' hNe

/-- Devices that are not revoked have different IPs, and every route has the IP
of its device's certificate. -/
structure Exclusive (w : Site) : Prop where
  ips : ∀ c c', w.Holds c → w.Holds c' → c.deviceId ≠ c'.deviceId → c.allowedIp ≠ c'.allowedIp
  routes : ∀ s, w.daemon = some s → ∀ (k : RawKey) x, s.routes.byKey[k]? = some x →
    (∃ c ∈ w.issued, parsePublicKey c.ikX = .ok k) ∧
      ∀ c ∈ w.issued, parsePublicKey c.ikX = .ok k → x.ip = c.allowedIp

theorem exclusive_of_accounts (h : w.Accounts env verifyingKey) : w.Exclusive := by
  obtain ⟨hLedger, hServes⟩ := h
  refine ⟨fun c c' hc hc' hDevice hIp => ?_, fun s hDaemon k x hx => ?_⟩
  · exact hDevice (congrArg (·.deviceId) (hLedger.ip_unique hc.1 hc'.1 hc.2 hc'.2 hIp))
  · have hServes := hServes s hDaemon
    obtain ⟨c, hc, hKey, hIp⟩ := hServes.routes k x hx
    rw [RouteTable.keyed_reach hServes.table k x hx] at hKey
    refine ⟨⟨c, hc, hKey⟩, fun c' hc' hKey' => ?_⟩
    rw [hLedger.owners c' hc' c hc k hKey' hKey, hIp]

/-- Whatever happens at the site, no device takes another one's IP, if every
change of the registry starts from the latest one, and when a revoked device
registers, the server has been told. -/
theorem no_preemption (hLawful : env.signatures.Lawful verifyingKey)
    (hSha : ∀ bs, 32 ≤ (env.sha256 bs).length)
    (h : (machine env verifyingKey).Reach (fun w ev => w.Promised env ev ∧ w.UpToDate env ev) w) :
    w.Exclusive ∧ ∀ ev, w.Told ev → w.SparesOthers env ev := by
  have hAccounts := accounts_reach hLawful hSha h
  exact ⟨exclusive_of_accounts hAccounts, fun ev hTold => sparesOthers_of_told hAccounts hTold⟩

-- ---------------------------------------------------------------------------
-- An example
-- ---------------------------------------------------------------------------

open JoinLog

/-- Before the first certificate there is nothing to forge and no key in use. -/
theorem promised_of_no_certificate {ev : SiteEvent Ct} (hNone : w.issued = [])
    (hNoAuth : ∀ f src d saved, ev = .server (.datagram f src d) saved → f.msgType ≠ msgAuth) :
    w.Promised env ev := by
  refine ⟨?_, fun _ _ _ _ _ _ c hc => ?_⟩
  · match ev with
    | .command .. | .start .. | .stop => trivial
    | .server (.relay ..) _ | .server (.revoke ..) _ | .server (.cleanup ..) _ | .server (.delPeer ..) _
    | .server (.administer ..) _ => trivial
    | .server (.datagram f src d) saved =>
      exact fun _ _ ab hCarries => absurd hCarries.kind (hNoAuth f src d saved rfl)
  · rw [hNone] at hc
    exact absurd hc List.not_mem_nil

/-- Both copies are the latest registry. -/
theorem upToDate_of_latest {ev : SiteEvent Ct} (hDisk : w.disk = w.latest)
    (hDaemon : ∀ s, w.daemon = some s → s.mesh = w.latest) : w.UpToDate env ev := by
  intro old new hTransition _
  unfold transition at hTransition
  split at hTransition
  · split at hTransition
    · cases hTransition
    · split at hTransition
      · cases hTransition
        exact hDisk
      · cases hTransition
  · obtain ⟨s, hRunning, hEq⟩ := Option.map_eq_some_iff.mp hTransition
    cases hEq
    exact hDaemon s hRunning
  · cases hTransition

theorem next_command {c : Command} {now : Nat} {m : MeshConfig}
    (h : c.run env.meshEnv w.disk now = .ok m) :
    w.next env (.command c now true) = { w.change w.disk m with disk := m } := by
  unfold next
  dsimp only
  rw [h]
  dsimp only
  rw [if_pos rfl]

theorem next_invite (hDisk : w.disk = w.latest) (hKnown : ∀ x ∈ w.disk.members, x.cert ∈ w.issued)
    (ip : Option String) (raw : Bytes) (now : Nat) (hIp : Command.checkBoundIp w.disk ip = .ok ()) :
    w.next env (.command (.invite ip raw) now true) =
      { w with
        disk := (w.disk.createInvite env.meshEnv raw ip inviteTtlSecs now).1
        latest := (w.disk.createInvite env.meshEnv raw ip inviteTtlSecs now).1 } := by
  have hRun : (Command.invite ip raw).run env.meshEnv w.disk now =
      .ok (w.disk.createInvite env.meshEnv raw ip inviteTtlSecs now).1 := by
    unfold Command.run
    dsimp only
    rw [hIp]
    rfl
  rw [next_command hRun, hDisk, change_known (by rw [← hDisk]; exact hKnown)]

theorem next_issue {ikX ikS deviceId granted ip : String} {seed : Bytes} (now : Nat)
    (hChecks : w.disk.issueChecks env.meshEnv ikX ikS ip none = .ok (deviceId, granted, seed))
    (hKnown : ∀ x ∈ w.disk.members, x.cert ∈ w.issued)
    (hNew : (newMember env.meshEnv w.disk deviceId ikX ikS granted seed now).cert ∉ w.issued) :
    w.next env (.command (.issue ikX ikS (some ip)) now true) =
      { w with
        disk := { w.disk with
          members := w.disk.members ++ [newMember env.meshEnv w.disk deviceId ikX ikS granted seed now] }
        latest := { w.disk with
          members := w.disk.members ++ [newMember env.meshEnv w.disk deviceId ikX ikS granted seed now] }
        issued := w.issued ++ [(newMember env.meshEnv w.disk deviceId ikX ikS granted seed now).cert] } := by
  have hRun : (Command.issue ikX ikS (some ip)).run env.meshEnv w.disk now =
      .ok { w.disk with
        members := w.disk.members ++ [newMember env.meshEnv w.disk deviceId ikX ikS granted seed now] } := by
    unfold Command.run
    dsimp only [Option.getD_some]
    rw [issueCert_of_checks hChecks]
    rfl
  rw [next_command hRun, change_certified hKnown List.map_append hNew]

/-- What a JOIN that is issued a certificate leaves. -/
theorem enroll_issued {m : MeshConfig} {jb : JoinBody} {d : JoinDraw} {ip granted : String} {seed : Bytes}
    (h : Signaling.Issues env m jb d ip granted seed) :
    (Signaling.enroll env m jb d).1.members.map (·.cert) = m.members.map (·.cert) ++
        [(newMember env.meshEnv m jb.deviceId jb.ikX jb.ikSPub granted seed d.issueNow).cert] := by
  rcases Signaling.enroll_cases env m jb d with
    ⟨_, hNone⟩ | ⟨ip', granted', seed', hIssues, ⟨e, _, hEq⟩ | ⟨aliasName, _, hEq⟩⟩
  · exact absurd h (hNone ip granted seed)
  · obtain ⟨rfl, rfl, rfl⟩ := hIssues.unique h
    rw [hEq]
    exact List.map_append
  · obtain ⟨rfl, rfl, rfl⟩ := hIssues.unique h
    rw [hEq]
    dsimp only
    rw [Signaling.completeJoin_map (·.cert) fun _ _ => rfl]
    exact List.map_append

def exampleSite : Site := meshInit exampleServerEnv exampleVerifyingKey "mesh" (List.replicate 32 1)

/-- With a join code in its registry, the server is started. -/
def exampleRunning : Site :=
  { disk := exampleInvited.mesh
    daemon := some exampleInvited
    latest := exampleInvited.mesh }

theorem next_start {rooms : List RoomEntry} {aliases : ExtTreeMap String String} {now : Nat}
    (h : w.disk.verifyIntegrity env.meshEnv now = .ok ()) :
    w.next env (.start rooms aliases now) =
      { w with daemon := some (Signaling.start w.disk rooms aliases) } := by
  unfold next
  dsimp only
  rw [h]

/-- What is asked of a run holds of every step before the first certificate. -/
theorem reach_no_certificate (ev : SiteEvent Ct)
    (h : (machine env verifyingKey).Reach (fun w ev => w.Promised env ev ∧ w.UpToDate env ev) w)
    (hNone : w.issued = []) (hDisk : w.disk = w.latest) (hDaemon : ∀ s, w.daemon = some s → s.mesh = w.latest)
    (hNoAuth : ∀ f src d saved, ev = .server (.datagram f src d) saved → f.msgType ≠ msgAuth) :
    (machine env verifyingKey).Reach (fun w ev => w.Promised env ev ∧ w.UpToDate env ev) (w.next env ev) := by
  rw [← machine_next env verifyingKey]
  exact .step h trivial ⟨promised_of_no_certificate hNone hNoAuth, upToDate_of_latest hDisk hDaemon⟩

/-- The registry with the join code, and no server yet. -/
def exampleStopped : Site := { disk := exampleInvited.mesh, latest := exampleInvited.mesh }

theorem exampleStopped_reach : (machine exampleServerEnv exampleVerifyingKey).Reach
    (fun w ev => w.Promised exampleServerEnv ev ∧ w.UpToDate exampleServerEnv ev) exampleStopped := by
  have hInit : (machine exampleServerEnv exampleVerifyingKey).init exampleSite :=
    ⟨"mesh", List.replicate 32 1, ⟨by decide, by decide⟩, rfl, rfl⟩
  have hNew : ∀ x ∈ exampleSite.disk.members, x.cert ∈ exampleSite.issued :=
    fun x hx => absurd hx List.not_mem_nil
  have hInvite := reach_no_certificate (.command (.invite none (List.replicate 16 1)) 0 true)
    (.init hInit) rfl rfl (fun _ h => nomatch h) (fun _ _ _ _ h => nomatch h)
  rw [next_invite rfl hNew none _ _ rfl] at hInvite
  exact hInvite

theorem exampleStopped_integrity :
    exampleStopped.disk.verifyIntegrity exampleServerEnv.meshEnv 0 = .ok () := by
  have hSigned : RootSigned exampleMeshEnv exampleVerifyingKey (List.replicate 32 1) exampleInvited.mesh :=
    (coherent_apply exampleSignatures_lawful rfl (rootSigned_init _ _ _ _)
      (coherent_init exampleSignatures_lawful "mesh" (List.replicate 32 1))
      (.createInvite (List.replicate 16 1) none 600 0)).2
  rw [exampleServerEnv_meshEnv]
  exact (verifyIntegrity_iff exampleSignatures_lawful hSigned).mpr fun x hx => absurd hx List.not_mem_nil

theorem exampleRunning_reach : (machine exampleServerEnv exampleVerifyingKey).Reach
    (fun w ev => w.Promised exampleServerEnv ev ∧ w.UpToDate exampleServerEnv ev) exampleRunning := by
  have hStart := reach_no_certificate (.start [] ∅ 0) exampleStopped_reach rfl rfl (fun _ h => nomatch h)
    (fun _ _ _ _ h => nomatch h)
  rw [next_start exampleStopped_integrity] at hStart
  exact hStart

theorem exampleJoinEvent_noAuth (aliasName : Option String) (saved : Bool) : ∀ f src d saved',
    SiteEvent.server (exampleJoinEvent aliasName) saved = .server (.datagram f src d) saved' →
      f.msgType ≠ msgAuth := by
  intro f src d saved' hEq
  cases hEq
  exact (by decide : msgJoin ≠ msgAuth)

/-- After the JOIN of device 2. -/
theorem no_preemption_example :
    (exampleRunning.next exampleServerEnv (.server (exampleJoinEvent none) true)).Exclusive ∧
      ∀ ev, (exampleRunning.next exampleServerEnv (.server (exampleJoinEvent none) true)).Told ev →
        (exampleRunning.next exampleServerEnv (.server (exampleJoinEvent none) true)).SparesOthers
          exampleServerEnv ev :=
  no_preemption exampleSignatures_lawful (fun _ => Nat.le_of_eq (exampleServerEnv_sizes.sha256 _).symm)
    (reach_no_certificate _ exampleRunning_reach rfl rfl (fun _ h => Option.some.inj h ▸ rfl)
      (exampleJoinEvent_noAuth none true))

/-- The registry of the running server after the JOIN of device 2. -/
theorem exampleJoin_mesh : ∃ x : MemberEntry,
    (exampleInvited.next exampleServerEnv (exampleJoinEvent none)).mesh.members.map (·.cert) = [x.cert] ∧
      (exampleInvited.next exampleServerEnv (exampleJoinEvent none)).mesh.crl = exampleRegistry.crl ∧
      x.cert.deviceId = deviceIdB64 exampleMeshEnv 2 (keyBytes 2) ∧ x.cert.ikX = keyB64 (keyBytes 2) ∧
      x.cert.allowedIp = "10.13.13.2" := by
  have hNoAlias : ∃ fields, putOptStr nameLen none = .ok fields := ⟨_, rfl⟩
  obtain ⟨bytes, hBytes⟩ := exampleJoin_encodes hNoAlias
  have hJoin := exampleJoin_joinOf hBytes (s := exampleInvited) ExtTreeMap.not_mem_empty
  have hReaches : Signaling.ReachesRegistry exampleServerEnv exampleInvited 2 (exampleJoin none)
      sampleSrc (sampleSignalDraw 0 0).join := ⟨rfl, rfl, "default", rfl⟩
  have hCerts := enroll_issued (exampleJoin_issues none)
  generalize hMember : newMember _ _ _ _ _ _ _ _ = x at hCerts
  have hNone : exampleInvited.mesh.members.map (·.cert) = [] := rfl
  rw [hNone, List.nil_append] at hCerts
  have hCrl := Signaling.enroll_crl exampleServerEnv exampleInvited.mesh (exampleJoin none)
    (sampleSignalDraw 0 0).join
  rw [Signaling.next_join hJoin, Signaling.handleJoin_mesh hReaches]
  exact ⟨x, hCerts, hCrl, hMember ▸ rfl, hMember ▸ rfl, hMember ▸ rfl⟩

/-- While the server runs, device 3 gets an address by command, and device 2 gets
it by a JOIN. -/
theorem preemption_fails : ∃ w, (machine exampleServerEnv exampleVerifyingKey).Reach
    (fun w ev => w.Promised exampleServerEnv ev) w ∧ ¬ w.Exclusive := by
  have hChecks : exampleRunning.disk.issueChecks exampleServerEnv.meshEnv (keyB64 (keyBytes 3))
      (keyB64 (keyBytes 3)) "10.13.13.2" none = _ :=
    exampleIssue_checks (parsePublicKey_keyB64 (by decide)) rfl rfl (by decide) (by decide)
      List.not_mem_nil fun x hx => absurd hx List.not_mem_nil
  have hIssue := next_issue 0 hChecks (fun x hx => absurd hx List.not_mem_nil) List.not_mem_nil
  generalize hThird : newMember exampleServerEnv.meshEnv exampleRunning.disk _ _ _ _ _ _ = x at hIssue
  have hDevice : x.cert.deviceId = deviceIdB64 exampleMeshEnv 3 (keyBytes 3) := hThird ▸ rfl
  have hKey : x.cert.ikX = keyB64 (keyBytes 3) := hThird ▸ rfl
  have hIp : x.cert.allowedIp = "10.13.13.2" := hThird ▸ rfl
  obtain ⟨y, hCerts, hCrl, hDevice', hKey', hIp'⟩ := exampleJoin_mesh
  have hOther : x.cert.deviceId ≠ y.cert.deviceId := by
    rw [hDevice, hDevice']
    exact exampleDevice_ne.symm
  -- the command works on the file, the JOIN on the registry of the server
  have hStart := exampleRunning_reach.mono (fun _ _ h => h.1)
  have hIssued := hStart.step (e := .command (.issue (keyB64 (keyBytes 3)) (keyB64 (keyBytes 3))
    (some "10.13.13.2")) 0 true) trivial (promised_of_no_certificate rfl fun _ _ _ _ h => nomatch h)
  rw [machine_next, hIssue] at hIssued
  obtain ⟨w, hReach, hDaemon, hOne⟩ : ∃ w : Site, (machine exampleServerEnv exampleVerifyingKey).Reach
      (fun w ev => w.Promised exampleServerEnv ev) w ∧ w.daemon = some exampleInvited ∧
        w.issued = [x.cert] := ⟨_, hIssued, rfl, rfl⟩
  have hNew : y.cert ∉ w.issued := by
    rw [hOne, List.mem_singleton]
    intro hSame
    exact hOther (congrArg (·.deviceId) hSame.symm)
  obtain ⟨hLatest, hRecord⟩ :=
    next_server_certified hDaemon (fun z hz => absurd hz List.not_mem_nil) hCerts hNew true
  have hPromised : w.Promised exampleServerEnv (.server (exampleJoinEvent none) true) := by
    refine ⟨fun _ _ _ hCarries => absurd hCarries.kind (by decide), ?_⟩
    intro old new hEq z hz _ c hc k hKeyC hKeyZ
    rw [transition_server hDaemon] at hEq
    obtain ⟨_, rfl⟩ := Prod.mk.inj (Option.some.inj hEq)
    have hZ : z.cert = y.cert := by
      have hMem := List.mem_map_of_mem (f := (·.cert)) hz
      rw [hCerts] at hMem
      exact List.mem_singleton.mp hMem
    rw [hOne] at hc
    rw [List.mem_singleton.mp hc, hKey, parsePublicKey_keyB64 (by decide)] at hKeyC
    rw [hZ, hKey', parsePublicKey_keyB64 (by decide)] at hKeyZ
    exact absurd (hKeyC.trans hKeyZ.symm) (by decide)
  have hEnd := hReach.step trivial hPromised
  rw [machine_next] at hEnd
  refine ⟨_, hEnd, fun hExclusive => ?_⟩
  have hLive : ∀ d, (w.next exampleServerEnv (.server (exampleJoinEvent none) true)).latest.isRevoked d =
      false := by
    intro d
    rw [hLatest, isRevoked_congr hCrl]
    rfl
  refine hExclusive.ips x.cert y.cert ⟨?_, hLive _⟩ ⟨?_, hLive _⟩ hOther (hIp.trans hIp'.symm)
  · rw [hRecord, hOne]
    exact List.mem_cons_self ..
  · rw [hRecord]
    exact List.mem_append_right _ (List.mem_singleton_self _)

end Site

end LinkMesh
