import LinkMesh.Basis.IpAddr
import LinkMesh.Server.Invites

/-!
# Addresses of members

Virtual IPs are compared as texts when they are allocated
(`linkmesh-server/src/mesh.rs`), and packets are routed by the address that the
text stands for. Here the registry changes by its own operations and by JOIN.

## Results

* `address_unique_iff` — members have different addresses iff no certificate is
  issued for another spelling of a member's address.
* `issued_ip_usable_iff` — when the IP of an accepted JOIN is an address.
-/

namespace LinkMesh

variable {Ct : Type}

/-- What changes a registry. -/
inductive RegistryEvent where
  | op (op : MeshOp)
  | join (jb : JoinBody) (d : JoinDraw)

namespace MeshConfig

/-- The registry after an operation or a JOIN, failed ones included. -/
def handle (env : SignalingEnv Ct) (m : MeshConfig) : RegistryEvent → MeshConfig
  | .op op => apply env.meshEnv m op
  | .join jb d => (Signaling.enroll env m jb d).1

/-- The registry of a mesh that takes JOINs. -/
def openMachine (env : SignalingEnv Ct) (verifyingKey : Bytes → Bytes) :
    Machine MeshConfig RegistryEvent where
  init := (machine env.meshEnv verifyingKey).init
  enabled _ _ := True
  next := handle env

/-- The texts stand for one address. -/
def SameAddress (s t : String) : Prop := ∃ a, IpAddr.parse s = some a ∧ IpAddr.parse t = some a

/-- No two members have one address. -/
def UniqueAddresses (m : MeshConfig) : Prop :=
  (m.members.map (·.cert.allowedIp)).Pairwise fun s t => ¬ SameAddress s t

/-- The text is not granted, or it does not stand for the address of a member. -/
def NewAddress (m : MeshConfig) (text : String) : Prop :=
  trim text ≠ "" → trim text ∉ m.usedIps →
    ∀ s ∈ m.members.map (·.cert.allowedIp), ¬ SameAddress s (trim text)

/-- If the event is issued a certificate, then the text it prefers stands for no
member's address. -/
def AsksForNew (env : SignalingEnv Ct) (m : MeshConfig) : RegistryEvent → Prop
  | .op (.issueCert ikX ikSPub ip note _) =>
    (∃ r, m.issueChecks env.meshEnv ikX ikSPub ip note = .ok r) → m.NewAddress ip
  | .op _ => True
  | .join jb d =>
    (∃ ip granted seed, Signaling.Issues env m jb d ip granted seed) →
      ∀ boundIp text, m.peekInvite env.meshEnv jb.code d.peekNow = .ok boundIp →
        boundIp.or jb.requestedIp = some text → m.NewAddress text

variable {env : SignalingEnv Ct} {m m' : MeshConfig} {ip granted : String} {preferred : Option String}

-- ---------------------------------------------------------------------------
-- The pool
-- ---------------------------------------------------------------------------

/-- The pool is made of dotted quads. -/
theorem defaultIpPool_quad (hPool : ip ∈ defaultIpPool) :
    trim ip = ip ∧ ∃ octets, IpAddr.parse ip = some (.v4 octets) := by
  obtain ⟨n, hRange, rfl⟩ := List.mem_map.mp hPool
  have hn : n < 255 := by
    rw [List.mem_range'_1] at hRange
    omega
  have hText : (s!"10.13.13.{n}").toList = "10.13.13.".toList ++ Nat.toDigits 10 n := by
    simp [toString, String.toList_append]
  constructor
  · refine trim_eq_self fun c hc => ?_
    rw [hText] at hc
    rcases List.mem_append.mp hc with hHead | hDigits
    · have hAll : "10.13.13.".toList.all (isWhitespace · == false) = true := by decide
      exact beq_iff_eq.mp (List.all_eq_true.mp hAll c hHead)
    · exact isWhitespace_of_isDigit (Nat.isDigit_of_mem_toDigits (by decide) (by decide) hDigits)
  · have hQuad : IpAddr.octetsText 0 [10, 13, 13, n] = "10.13.13.".toList ++ Nat.toDigits 10 n := by
      have hTen : Nat.toDigits 10 10 = ['1', '0'] := rfl
      have hThirteen : Nat.toDigits 10 13 = ['1', '3'] := rfl
      simp only [IpAddr.octetsText, hTen, hThirteen]
      simp
    refine ⟨[10, 13, 13, n], IpAddr.parse_quad rfl ?_ (hText.trans hQuad.symm)⟩
    intro octet hOctet
    simp only [List.mem_cons, List.not_mem_nil, or_false] at hOctet
    omega

/-- The preferred text is granted if it can be; else an address of the pool. -/
theorem allocateIp_cases (h : m.allocateIp preferred = .ok granted) :
    (∃ text, preferred = some text ∧ granted = trim text ∧ trim text ≠ "" ∧ trim text ∉ m.usedIps) ∨
    (granted ∈ m.ipPool ∧
      ∀ text, preferred = some text → trim text = "" ∨ trim text ∈ m.usedIps) := by
  cases preferred with
  | none =>
    unfold allocateIp at h
    dsimp only [Option.filter_none] at h
    split at h
    · rename_i free hFind
      cases h
      exact .inr ⟨List.mem_of_find?_eq_some hFind, fun _ hSome => nomatch hSome⟩
    · cases h
  | some text =>
    by_cases hFree : trim text ≠ "" ∧ trim text ∉ m.usedIps
    · rw [allocateIp_preferred hFree.1 hFree.2] at h
      cases h
      exact .inl ⟨text, rfl, rfl, hFree⟩
    · have hTaken : trim text = "" ∨ trim text ∈ m.usedIps := by
        by_cases hText : trim text = ""
        · exact .inl hText
        · exact .inr (not_not.mp fun hUsed => hFree ⟨hText, hUsed⟩)
      refine .inr ⟨allocateIp_pool h hTaken, fun text' hSame => ?_⟩
      cases hSame
      exact hTaken

/-- What was granted is granted again. -/
theorem allocateIp_again (hPool : m.ipPool = defaultIpPool) (h : m.allocateIp preferred = .ok ip) :
    m.allocateIp (some ip) = .ok ip := by
  have hFree := allocateIp_free h
  have hText : trim ip = ip ∧ ip ≠ "" := by
    rcases allocateIp_cases h with ⟨text, _, rfl, hNe, _⟩ | ⟨hIn, _⟩
    · exact ⟨trim_trim text, hNe⟩
    · rw [hPool] at hIn
      obtain ⟨hTrim, octets, hParse⟩ := defaultIpPool_quad hIn
      refine ⟨hTrim, ?_⟩
      rintro rfl
      have hEmpty : IpAddr.parse "" = none := by decide
      rw [hEmpty] at hParse
      cases hParse
  have hAgain : m.allocateIp (some ip) = .ok (trim ip) :=
    allocateIp_preferred (by rw [hText.1]; exact hText.2) (by rw [hText.1]; exact hFree)
  rw [hAgain, hText.1]

/-- The granted address is new unless it is another spelling that was asked for. -/
theorem granted_new_iff (hPool : m.ipPool = defaultIpPool) (h : m.allocateIp preferred = .ok granted) :
    (∀ s ∈ m.members.map (·.cert.allowedIp), ¬ SameAddress s granted) ↔
      ∀ text, preferred = some text → m.NewAddress text := by
  rcases allocateIp_cases h with ⟨text, rfl, rfl, hNe, hFree⟩ | ⟨hIn, hTaken⟩
  · constructor
    · intro hNew text' hSame _ _
      cases hSame
      exact hNew
    · intro hAsked
      exact hAsked text rfl hNe hFree
  · refine iff_of_true ?_ ?_
    · -- an address of the pool has one spelling, and nobody uses it
      rintro s hs ⟨a, hMember, hGranted⟩
      rw [hPool] at hIn
      obtain ⟨_, octets, hParse⟩ := defaultIpPool_quad hIn
      rw [hParse] at hGranted
      cases hGranted
      have hSame := IpAddr.parse_v4 hMember hParse
      exact allocateIp_free h (List.mem_append_left _ (hSame ▸ hs))
    · intro text hSome hNe hFree
      rcases hTaken text hSome with hEmpty | hUsed
      · exact absurd hEmpty hNe
      · exact absurd hUsed hFree

-- ---------------------------------------------------------------------------
-- One event
-- ---------------------------------------------------------------------------

/-- The pool never changes. -/
theorem apply_ipPool (env : MeshEnv) (m : MeshConfig) (op : MeshOp) :
    (apply env m op).ipPool = m.ipPool := by
  unfold apply
  split
  · rfl
  · rename_i ikX ikSPub ip note now
    rcases issueCert_cases env m ikX ikSPub ip note now with ⟨_, _, hEq⟩ | ⟨_, _, _, _, hEq⟩
    · rw [hEq]
    · rw [hEq]
  · rename_i code now
    obtain ⟨invites, hEq⟩ := consumeInvite_frame env m code now
    rw [hEq]
  · rfl
  · rename_i deviceId reason now
    obtain ⟨crl, members, _, hEq⟩ := revoke_frame env m deviceId reason now
    rw [hEq]

theorem handle_ipPool (env : SignalingEnv Ct) (m : MeshConfig) (e : RegistryEvent) :
    (handle env m e).ipPool = m.ipPool := by
  unfold handle
  split
  · exact apply_ipPool env.meshEnv m _
  · rename_i jb d
    obtain ⟨members, invites, hEq⟩ := Signaling.enroll_frame env m jb d
    rw [hEq]

/-- The addresses of the members decide. -/
theorem UniqueAddresses.congr (h : m'.members.map (·.cert.allowedIp) = m.members.map (·.cert.allowedIp)) :
    UniqueAddresses m' ↔ UniqueAddresses m := by
  unfold UniqueAddresses
  rw [h]

/-- One more member needs an address of its own. -/
theorem uniqueAddresses_concat {x : MemberEntry} (hUnique : UniqueAddresses m)
    (hMembers : m'.members = m.members ++ [x]) :
    UniqueAddresses m' ↔ ∀ s ∈ m.members.map (·.cert.allowedIp), ¬ SameAddress s x.cert.allowedIp := by
  unfold UniqueAddresses at *
  rw [hMembers, List.map_append, List.pairwise_append]
  constructor
  · intro h s hs
    exact h.2.2 s hs _ (List.mem_singleton_self _)
  · intro h
    refine ⟨hUnique, List.pairwise_singleton _ _, ?_⟩
    intro s hs t ht
    rw [List.mem_singleton.mp ht]
    exact h s hs

/-- An issue keeps addresses apart exactly when it grants a new one. -/
theorem uniqueAddresses_issueCert_iff (hPool : m.ipPool = defaultIpPool) (hUnique : UniqueAddresses m)
    (ikX ikSPub ip : String) (note : Option String) (now : Nat) :
    UniqueAddresses (m.issueCert env.meshEnv ikX ikSPub ip note now).1 ↔
      ((∃ r, m.issueChecks env.meshEnv ikX ikSPub ip note = .ok r) → m.NewAddress ip) := by
  rcases issueCert_cases env.meshEnv m ikX ikSPub ip note now with
    ⟨e, hError, hEq⟩ | ⟨deviceId, granted, seed, hChecks, hEq⟩
  · rw [hEq]
    refine iff_of_true hUnique ?_
    rintro ⟨r, hOk⟩
    rw [hOk] at hError
    cases hError
  · obtain ⟨_, _, _, _, _, hIp, _⟩ := issueChecks_eq_ok.mp hChecks
    have hNew := granted_new_iff hPool hIp
    rw [hEq, uniqueAddresses_concat hUnique rfl]
    constructor
    · intro h _
      exact hNew.mp h ip rfl
    · intro h
      refine hNew.mpr fun text hSame => ?_
      cases hSame
      exact h ⟨_, hChecks⟩

/-- So does a JOIN. -/
theorem uniqueAddresses_enroll_iff (hPool : m.ipPool = defaultIpPool) (hUnique : UniqueAddresses m)
    (jb : JoinBody) (d : JoinDraw) :
    UniqueAddresses (Signaling.enroll env m jb d).1 ↔ AsksForNew env m (.join jb d) := by
  have hIssued : ∀ ip granted seed, Signaling.Issues env m jb d ip granted seed →
      (UniqueAddresses (Signaling.issued env m jb d granted seed) ↔ AsksForNew env m (.join jb d)) := by
    intro ip granted seed hIssues
    obtain ⟨boundIp, _, _, hPeek, _, _, _, hIp⟩ := Signaling.joinChecks_eq_ok.mp hIssues.checks
    obtain ⟨_, _, _, _, _, hAgain, _⟩ := issueChecks_eq_ok.mp hIssues.issue
    have hGranted : ip = granted := Except.ok.inj ((allocateIp_again hPool hIp).symm.trans hAgain)
    rw [uniqueAddresses_concat hUnique rfl]
    refine Iff.trans ?_ (Iff.trans (granted_new_iff hPool hIp) ?_)
    · rw [hGranted]
      exact Iff.rfl
    · constructor
      · intro h _ boundIp' text hPeek' hText
        rw [hPeek] at hPeek'
        cases hPeek'
        exact h text hText
      · intro h text hText
        exact h ⟨_, _, _, hIssues⟩ boundIp text hPeek hText
  rcases Signaling.enroll_cases env m jb d with
    ⟨⟨e, hEq⟩, hNone⟩ | ⟨ip, granted, seed, hIssues, ⟨e, _, hEq⟩ | ⟨aliasName, _, hEq⟩⟩
  · rw [hEq]
    refine iff_of_true hUnique ?_
    rintro ⟨ip, granted, seed, h⟩
    exact absurd h (hNone ip granted seed)
  · rw [hEq]
    exact hIssued ip granted seed hIssues
  · rw [hEq, ← hIssued ip granted seed hIssues]
    exact UniqueAddresses.congr
      (Signaling.completeJoin_map (·.cert.allowedIp) (fun _ _ => rfl) jb.deviceId aliasName d.consumeNow)

/-- An event keeps the addresses of members apart exactly when it asks for a new one. -/
theorem uniqueAddresses_next_iff (hPool : m.ipPool = defaultIpPool) (hUnique : UniqueAddresses m)
    (e : RegistryEvent) : UniqueAddresses (handle env m e) ↔ AsksForNew env m e := by
  rcases e with op | ⟨jb, d⟩
  · rcases op with ⟨raw, ip, ttlSecs, now⟩ | ⟨ikX, ikSPub, ip, note, now⟩ | ⟨code, now⟩ |
      ⟨deviceId, aliasName⟩ | ⟨deviceId, reason, now⟩
    · exact iff_of_true hUnique trivial
    · exact uniqueAddresses_issueCert_iff hPool hUnique ikX ikSPub ip note now
    · obtain ⟨invites, hEq⟩ := consumeInvite_frame env.meshEnv m code now
      refine iff_of_true ?_ trivial
      show UniqueAddresses (m.consumeInvite env.meshEnv code now).1
      rw [hEq]
      exact hUnique
    · exact iff_of_true ((UniqueAddresses.congr
        (setMemberAlias_map (·.cert.allowedIp) (fun _ _ => rfl) deviceId aliasName)).mpr hUnique) trivial
    · obtain ⟨crl, members, hSub, hEq⟩ := revoke_frame env.meshEnv m deviceId reason now
      refine iff_of_true ?_ trivial
      show UniqueAddresses (m.revoke env.meshEnv.signatures deviceId reason now).1
      rw [hEq]
      exact hUnique.sublist (hSub.map _)
  · exact uniqueAddresses_enroll_iff hPool hUnique jb d

-- ---------------------------------------------------------------------------
-- Whole runs
-- ---------------------------------------------------------------------------

/-- Members have different addresses along a run exactly when no certificate is
issued for another spelling of a member's address. -/
theorem address_unique_iff (env : SignalingEnv Ct) (verifyingKey : Bytes → Bytes) (meshId : String)
    (seed : Bytes) (es : List RegistryEvent) :
    (∀ pre, pre <+: es →
        UniqueAddresses ((openMachine env verifyingKey).run (init env.meshEnv verifyingKey meshId seed) pre)) ↔
      ∀ pre e, pre ++ [e] <+: es →
        AsksForNew env ((openMachine env verifyingKey).run (init env.meshEnv verifyingKey meshId seed) pre) e := by
  refine Machine.along_run_iff_inv (I := fun m : MeshConfig => m.ipPool = defaultIpPool) rfl List.Pairwise.nil ?_ ?_ es
  · intro m e hPool
    exact (handle_ipPool env m e).trans hPool
  · intro m e hPool hUnique
    exact uniqueAddresses_next_iff hPool hUnique e

theorem openMachine_op (env : SignalingEnv Ct) (verifyingKey : Bytes → Bytes) (m : MeshConfig)
    (op : MeshOp) : (openMachine env verifyingKey).next m (.op op) = apply env.meshEnv m op := rfl

/-- Two devices get one address, in two spellings. -/
theorem address_unique_fails :
    ¬ UniqueAddresses ((openMachine JoinLog.exampleServerEnv exampleVerifyingKey).run exampleRegistry
      [.op (exampleIssue 2 "fd00::1"), .op (exampleIssue 3 "fd00:0::1")]) := by
  have hFirst := exampleIssue_checks (m := exampleRegistry) (k := 2) (parsePublicKey_keyB64 (by decide))
    rfl rfl (show trim "fd00::1" = "fd00::1" by decide) (by decide) List.not_mem_nil
    fun x hx => absurd hx List.not_mem_nil
  have hNext : ∀ (env : MeshEnv) (m : MeshConfig) k ip, apply env m (exampleIssue k ip) =
      (m.issueCert env (keyB64 (keyBytes k)) (keyB64 (keyBytes k)) ip none 0).1 :=
    fun _ _ _ _ => rfl
  rw [Machine.run_cons, Machine.run_cons, Machine.run_nil, openMachine_op, openMachine_op,
    JoinLog.exampleServerEnv_meshEnv, hNext, hNext, issueCert_of_checks hFirst]
  dsimp only
  generalize hMember : newMember exampleMeshEnv exampleRegistry _ _ _ _ _ _ = x
  have hIp : x.cert.allowedIp = "fd00::1" := hMember ▸ rfl
  have hDevice : x.deviceId = deviceIdB64 exampleMeshEnv 2 (keyBytes 2) := hMember ▸ rfl
  have hSecond := exampleIssue_checks (m := { exampleRegistry with members := [x] }) (k := 3)
    (parsePublicKey_keyB64 (by decide)) rfl rfl
    (show trim "fd00:0::1" = "fd00:0::1" by decide) (by decide)
    (show "fd00:0::1" ∉ [x.cert.allowedIp] ++ [] by rw [hIp]; decide)
    fun y hy => by
      rw [List.mem_singleton.mp hy, hDevice]
      exact exampleDevice_ne
  have hMembers : exampleRegistry.members ++ [x] = [x] := List.nil_append _
  rw [hMembers, issueCert_of_checks hSecond]
  dsimp only
  have hOne : UniqueAddresses { exampleRegistry with members := [x] } := List.pairwise_singleton _ _
  rw [uniqueAddresses_concat hOne rfl]
  intro hNew
  have hSame : SameAddress "fd00::1" "fd00:0::1" :=
    ⟨.v6 [0xfd00, 0, 0, 0, 0, 0, 0, 1], by decide, by decide⟩
  exact hNew x.cert.allowedIp (List.mem_singleton_self _) (hIp ▸ hSame)

end MeshConfig

-- ---------------------------------------------------------------------------
-- Texts that are no address
-- ---------------------------------------------------------------------------

namespace MeshConfig

/-- If the preferred text can be granted, it stands for an address. -/
def AsksForAddress (m : MeshConfig) (preferred : Option String) : Prop :=
  ∀ text, preferred = some text →
    trim text = "" ∨ trim text ∈ m.usedIps ∨ ∃ a, IpAddr.parse (trim text) = some a

theorem granted_usable_iff {m : MeshConfig} {preferred : Option String} {granted : String}
    (hPool : m.ipPool = defaultIpPool) (h : m.allocateIp preferred = .ok granted) :
    (∃ a, IpAddr.parse granted = some a) ↔ m.AsksForAddress preferred := by
  rcases allocateIp_cases h with ⟨text, rfl, rfl, hNe, hFree⟩ | ⟨hIn, hTaken⟩
  · constructor
    · intro hParse text' hSame
      cases hSame
      exact .inr (.inr hParse)
    · intro hAsked
      rcases hAsked text rfl with hEmpty | hUsed | hParse
      · exact absurd hEmpty hNe
      · exact absurd hUsed hFree
      · exact hParse
  · refine iff_of_true ?_ ?_
    · rw [hPool] at hIn
      obtain ⟨_, octets, hParse⟩ := defaultIpPool_quad hIn
      exact ⟨_, hParse⟩
    · intro text hSome
      rcases hTaken text hSome with hEmpty | hUsed
      · exact .inl hEmpty
      · exact .inr (.inl hUsed)

theorem ipPool_reach {env : SignalingEnv Ct} {verifyingKey : Bytes → Bytes} {m : MeshConfig}
    (h : (openMachine env verifyingKey).Reach (fun _ _ => True) m) : m.ipPool = defaultIpPool := by
  refine Machine.Reach.invariant (I := fun m => m.ipPool = defaultIpPool) ?_ ?_ h
  · rintro m ⟨meshId, seed, _, rfl⟩
    rfl
  · intro m e hPool _ _
    exact (handle_ipPool env m e).trans hPool

end MeshConfig

namespace Signaling

variable {env : SignalingEnv Ct} {s : Signaling} {m : MeshConfig} {sender : RawKey} {jb : JoinBody}
  {src : SourceAddr} {d : JoinDraw} {resp : ResponseBody}

/-- A JOIN that is answered was issued a certificate. -/
theorem issues_of_joined (h : (enroll env m jb d).2 = .joined resp) :
    ∃ ip granted seed, Issues env m jb d ip granted seed := by
  rcases enroll_cases env m jb d with ⟨⟨e, hEq⟩, _⟩ | ⟨ip, granted, seed, hIssues, _⟩
  · rw [hEq] at h
    cases h
  · exact ⟨ip, granted, seed, hIssues⟩

theorem enroll_of_joined (h : (s.handleJoin env sender jb src d).2 = .joined resp) :
    (enroll env s.mesh jb d).2 = .joined resp := by
  rcases handleJoin_cases env s sender jb src d with ⟨_, r, o, hEq, hOutcome⟩ | ⟨_, r, hEq⟩
  · rw [hEq] at h
    rcases hOutcome with rfl | ⟨e, rfl⟩
    · cases h
    · cases h
  · rw [hEq] at h
    exact h

/-- **The IP of an accepted JOIN.** It is an address exactly when the text that is
preferred for it (the IP bound to the code, or else the one asked for) cannot be
granted, or is an address. -/
theorem issued_ip_usable_iff {verifyingKey : Bytes → Bytes}
    (hReach : (MeshConfig.openMachine env verifyingKey).Reach (fun _ _ => True) s.mesh)
    (hJoined : (s.handleJoin env sender jb src d).2 = .joined resp) :
    ∃ boundIp deviceId ip cert info crl,
      s.mesh.peekInvite env.meshEnv jb.code d.peekNow = .ok boundIp ∧
      resp = .okWithData (.join deviceId ip cert info crl) ∧
      ((∃ a, IpAddr.parse cert.allowedIp = some a) ↔ s.mesh.AsksForAddress (boundIp.or jb.requestedIp)) := by
  have hPool := MeshConfig.ipPool_reach hReach
  have hEnroll := enroll_of_joined hJoined
  obtain ⟨ip, granted, seed, hIssues⟩ := issues_of_joined hEnroll
  obtain ⟨cert, info, crl, rfl, hCert⟩ := enroll_joined hIssues hEnroll
  obtain ⟨boundIp, _, _, hPeek, _, _, _, hIp⟩ := joinChecks_eq_ok.mp hIssues.checks
  obtain ⟨_, _, _, _, _, hAgain, _⟩ := MeshConfig.issueChecks_eq_ok.mp hIssues.issue
  have hGranted : ip = granted := Except.ok.inj ((MeshConfig.allocateIp_again hPool hIp).symm.trans hAgain)
  refine ⟨boundIp, jb.deviceId, ip, cert, info, crl, hPeek, rfl, ?_⟩
  rw [hCert, ← hGranted]
  exact MeshConfig.granted_usable_iff hPool hIp

end Signaling

namespace JoinLog

open MeshConfig

theorem exampleInvited_reach :
    (openMachine exampleServerEnv exampleVerifyingKey).Reach (fun _ _ => True) exampleInvited.mesh := by
  have hNew : (openMachine exampleServerEnv exampleVerifyingKey).Reach (fun _ _ => True) exampleRegistry :=
    .init ⟨"mesh", List.replicate 32 1, rfl, rfl⟩
  exact hNew.step (e := RegistryEvent.op (.createInvite (List.replicate 16 1) none 600 0)) trivial trivial

/-- The text `x` is granted. -/
theorem exampleAsking_joined : ∃ resp, (exampleInvited.handleJoin exampleServerEnv 2 (exampleAsking "x" none)
    sampleSrc (sampleSignalDraw 0 0).join).2 = .joined resp := by
  have hReaches : Signaling.ReachesRegistry exampleServerEnv exampleInvited 2 (exampleAsking "x" none)
      sampleSrc (sampleSignalDraw 0 0).join := ⟨rfl, rfl, "default", rfl⟩
  have hAlias : ∃ a, normalizeSelfAlias exampleServerEnv (exampleAsking "x" none).aliasName = .ok a :=
    ⟨none, rfl⟩
  have hX : Fits ipLen "x" := ⟨_, wireStrSet_ok (by decide +kernel) (by decide +kernel)⟩
  have hWire : JoinEncodes exampleServerEnv exampleInvited.mesh "x" "x" :=
    { exampleJoin_wire none with ip := hX, granted := hX }
  rw [Signaling.handleJoin_outcome hReaches]
  exact (Signaling.enroll_issues exampleServerEnv_sizes
    (exampleAsking_issues (by decide) (by decide) none)).2.2.mpr ⟨hAlias, hWire⟩

theorem issued_ip_usable_iff_asking : ∃ boundIp deviceId ip cert info crl resp,
    exampleInvited.mesh.peekInvite exampleServerEnv.meshEnv (exampleAsking "x" none).code
      (sampleSignalDraw 0 0).join.peekNow = .ok boundIp ∧
    resp = ResponseBody.okWithData (.join deviceId ip cert info crl) ∧
    ((∃ a, IpAddr.parse cert.allowedIp = some a) ↔
      exampleInvited.mesh.AsksForAddress (boundIp.or (exampleAsking "x" none).requestedIp)) := by
  obtain ⟨resp, hJoined⟩ := exampleAsking_joined
  obtain ⟨boundIp, deviceId, ip, cert, info, crl, hAll⟩ :=
    Signaling.issued_ip_usable_iff exampleInvited_reach hJoined
  exact ⟨boundIp, deviceId, ip, cert, info, crl, resp, hAll⟩

/-- The JOIN is accepted, and the IP of its certificate is no address. -/
theorem issued_ip_unusable : ∃ deviceId ip cert info crl,
    (exampleInvited.handleJoin exampleServerEnv 2 (exampleAsking "x" none) sampleSrc
      (sampleSignalDraw 0 0).join).2 = .joined (.okWithData (.join deviceId ip cert info crl)) ∧
    cert.allowedIp = "x" ∧ IpAddr.parse cert.allowedIp = none := by
  obtain ⟨resp, hJoined⟩ := exampleAsking_joined
  have hEnroll := Signaling.enroll_of_joined hJoined
  obtain ⟨cert, info, crl, rfl, hCert⟩ :=
    Signaling.enroll_joined (exampleAsking_issues (by decide) (by decide) none) hEnroll
  refine ⟨_, _, cert, info, crl, hJoined, hCert, ?_⟩
  rw [hCert]
  decide

end JoinLog

end LinkMesh
