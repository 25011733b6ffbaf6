import LinkMesh.Server.Addresses

/-!
# IPs bound to join codes

`--invite --ip` (`linkmesh-server/src/main.rs`) asks the allocator whether the IP
can be used, and takes any address it answers with for a yes. What the text
stands for is compared here by the address, as packets are routed; the allocator
compares texts.

* `reservations_reach` — in runs whose invites ask for IPs that nobody uses, and
  whose certificates are for no other spelling of a bound IP, bound IPs are
  exclusive, and an IP in use is refused.
-/

namespace LinkMesh

variable {Ct : Type}

/-- What changes who has or is promised which IP. -/
inductive EnrolEvent where
  | command (c : Command) (now : Nat)
  | join (jb : JoinBody) (d : JoinDraw)
  /-- by the running server -/
  | revoke (deviceId : String) (reason : RevokeReason) (now : Nat)

namespace MeshConfig

/-- The registry after an event; a command that fails saves nothing. -/
def enrolNext (env : SignalingEnv Ct) (m : MeshConfig) : EnrolEvent → MeshConfig
  | .command c now =>
    match c.run env.meshEnv m now with
    | .ok m' => m'
    | .error _ => m
  | .join jb d => (Signaling.enroll env m jb d).1
  | .revoke deviceId reason now => (m.revoke env.signatures deviceId reason now).1

/-- Commands, JOINs and revocations of one registry, from `--mesh-init` on. -/
def enrolMachine (env : SignalingEnv Ct) (verifyingKey : Bytes → Bytes) : Machine MeshConfig EnrolEvent where
  init := (machine env.meshEnv verifyingKey).init
  enabled _ _ := True
  next := enrolNext env

/-- The texts name one IP. -/
def NamesSame (s t : String) : Prop := trim s = trim t ∨ SameAddress (trim s) (trim t)

/-- The IPs bound to unused codes; a blank text binds none. -/
def reservedIps (m : MeshConfig) : List String :=
  ((m.invites.filter (!·.used)).filterMap (·.ip)).filter (trim · ≠ "")

/-- The IPs of the members. -/
def heldIps (m : MeshConfig) : List String := m.members.map (·.cert.allowedIp)

/-- Bound IPs are bound once, and no member has one. -/
structure Exclusive (m : MeshConfig) : Prop where
  distinct : m.reservedIps.Pairwise fun s t => ¬ NamesSame s t
  disjoint : ∀ s ∈ m.reservedIps, ∀ t ∈ m.heldIps, ¬ NamesSame s t

/-- The text names an IP that is bound or held. -/
def InUse (m : MeshConfig) (text : String) : Prop :=
  trim text ≠ "" ∧ ∃ s ∈ m.reservedIps ++ m.heldIps, NamesSame s text

/-- A text that is granted is no other spelling of a bound IP. -/
def AsksApart (m : MeshConfig) (text : String) : Prop :=
  trim text ≠ "" → trim text ∉ m.usedIps → ∀ s ∈ m.reservedIps, ¬ SameAddress (trim s) (trim text)

/-- The guard: an invite is for no IP, or for one that nobody uses, written without
blanks around it, or no address of the pool is left to answer with in the place
of one in use; a certificate is for no other spelling of a bound IP. -/
def AsksExclusive (env : SignalingEnv Ct) (m : MeshConfig) : EnrolEvent → Prop
  | .command (.invite (some ip) _) _ =>
    trim ip = "" ∨ (trim ip = ip ∧ ¬ m.InUse ip) ∨ (trim ip ∈ m.usedIps ∧ ∀ p ∈ m.ipPool, p ∈ m.usedIps)
  | .command (.issue ikX ikS ip) _ =>
    (∃ r, m.issueChecks env.meshEnv ikX ikS (ip.getD "") none = .ok r) → m.AsksApart (ip.getD "")
  | .join jb d =>
    (∃ ip granted seed, Signaling.Issues env m jb d ip granted seed) →
      ∀ boundIp text, m.peekInvite env.meshEnv jb.code d.peekNow = .ok boundIp →
        boundIp.or jb.requestedIp = some text → m.AsksApart text
  | _ => True

/-- What every run keeps: the pool, and bound texts without blanks around them. -/
structure Reserving (m : MeshConfig) : Prop extends Exclusive m where
  pool : m.ipPool = defaultIpPool
  trimmed : ∀ s ∈ m.reservedIps, trim s = s

variable {env : SignalingEnv Ct} {m m' : MeshConfig} {ip granted : String}

-- ---------------------------------------------------------------------------
-- Bound IPs
-- ---------------------------------------------------------------------------

theorem mem_usedIps_of_reserved {s : String} (h : s ∈ m.reservedIps) : s ∈ m.usedIps :=
  List.mem_append_right _ (List.mem_filter.mp h).1

/-- Codes that are spent and members that go leave the rest as it is. -/
theorem Reserving.fewer (h : Reserving m) (hReserved : m'.reservedIps.Sublist m.reservedIps)
    (hHeld : m'.heldIps.Sublist m.heldIps) (hPool : m'.ipPool = m.ipPool) : Reserving m' where
  distinct := h.distinct.sublist hReserved
  disjoint s hs t ht := h.disjoint s (hReserved.subset hs) t (hHeld.subset ht)
  pool := hPool.trans h.pool
  trimmed s hs := h.trimmed s (hReserved.subset hs)

/-- One more bound IP has to be new. -/
theorem Reserving.bind (h : Reserving m) (hReserved : m'.reservedIps.Sublist (m.reservedIps ++ [ip]))
    (hHeld : m'.heldIps = m.heldIps) (hPool : m'.ipPool = m.ipPool) (hTrim : trim ip = ip) (hNe : trim ip ≠ "")
    (hFree : ¬ m.InUse ip) : Reserving m' := by
  have hNew : ∀ s ∈ m.reservedIps ++ m.heldIps, ¬ NamesSame s ip := fun s hs hSame => hFree ⟨hNe, s, hs, hSame⟩
  refine { distinct := ?_, disjoint := ?_, pool := hPool.trans h.pool, trimmed := ?_ }
  · refine List.Pairwise.sublist hReserved ?_
    rw [List.pairwise_append]
    refine ⟨h.distinct, List.pairwise_singleton _ _, fun s hs t ht => ?_⟩
    rw [List.mem_singleton.mp ht]
    exact hNew s (List.mem_append_left _ hs)
  · intro s hs t ht
    rw [hHeld] at ht
    rcases List.mem_append.mp (hReserved.subset hs) with hOld | hIp
    · exact h.disjoint s hOld t ht
    · rw [List.mem_singleton.mp hIp]
      intro hSame
      refine hNew t (List.mem_append_right _ ht) ?_
      exact hSame.imp Eq.symm fun ⟨a, hIp, hMember⟩ => ⟨a, hMember, hIp⟩
  · intro s hs
    rcases List.mem_append.mp (hReserved.subset hs) with hOld | hIp
    · exact h.trimmed s hOld
    · rw [List.mem_singleton.mp hIp]
      exact hTrim

/-- One more member has to get an IP that is bound to nobody. -/
theorem Reserving.hold (h : Reserving m) (hReserved : m'.reservedIps.Sublist m.reservedIps)
    (hHeld : m'.heldIps = m.heldIps ++ [granted]) (hPool : m'.ipPool = m.ipPool)
    (hFree : ∀ s ∈ m.reservedIps, ¬ NamesSame s granted) : Reserving m' := by
  refine
    { distinct := h.distinct.sublist hReserved, disjoint := ?_, pool := hPool.trans h.pool
      trimmed := fun s hs => h.trimmed s (hReserved.subset hs) }
  intro s hs t ht
  rw [hHeld] at ht
  rcases List.mem_append.mp ht with hOld | hNew
  · exact h.disjoint s (hReserved.subset hs) t hOld
  · rw [List.mem_singleton.mp hNew]
    exact hFree s (hReserved.subset hs)

/-- What the allocator grants is bound to nobody, unless it is another spelling
that was asked for. -/
theorem Reserving.granted_apart (h : Reserving m) {preferred : Option String}
    (hGranted : m.allocateIp preferred = .ok granted) (hAsked : ∀ text, preferred = some text → m.AsksApart text) :
    ∀ s ∈ m.reservedIps, ¬ NamesSame s granted := by
  intro s hs hSame
  have hFree : s ≠ granted := by
    rintro rfl
    exact allocateIp_free hGranted (mem_usedIps_of_reserved hs)
  have hTrim : trim s = s := h.trimmed s hs
  rcases allocateIp_cases hGranted with ⟨text, hText, rfl, hNe, hUnused⟩ | ⟨hIn, _⟩
  · unfold NamesSame at hSame
    rw [trim_trim] at hSame
    rcases hSame with hEq | hAddress
    · exact hFree (hTrim.symm.trans hEq)
    · exact hAsked text hText hNe hUnused s hs hAddress
  · -- an address of the pool has one spelling
    rw [h.pool] at hIn
    obtain ⟨hPoolTrim, octets, hParse⟩ := defaultIpPool_quad hIn
    unfold NamesSame at hSame
    rw [hTrim, hPoolTrim] at hSame
    rcases hSame with hEq | ⟨a, hBound, hQuad⟩
    · exact hFree hEq
    · rw [hParse] at hQuad
      cases hQuad
      exact hFree (IpAddr.parse_v4 hBound hParse)

-- ---------------------------------------------------------------------------
-- Join codes
-- ---------------------------------------------------------------------------

theorem reservedIps_createInvite (meshEnv : MeshEnv) (m : MeshConfig) (raw : Bytes) (bound : Option String)
    (ttlSecs now : Nat) :
    (m.createInvite meshEnv raw bound ttlSecs now).1.reservedIps.Sublist
      (m.reservedIps ++ bound.toList.filter (trim · ≠ "")) := by
  have hNew : ∀ hash expiresAt, ([({ codeHash := hash, expiresAt := expiresAt, used := false, ip := bound } :
      InviteEntry)].filter (!·.used)).filterMap (·.ip) = bound.toList := by
    intro hash expiresAt
    cases bound <;> rfl
  unfold createInvite reservedIps
  dsimp only
  rw [List.filter_append, List.filterMap_append, List.filter_append, hNew]
  exact (((List.filter_sublist.filter _).filterMap _).filter _).append (List.Sublist.refl _)

/-- Spending an entry takes its IP away, and no other. -/
theorem filter_unused_modifyFirst {p : InviteEntry → Bool} (l : List InviteEntry) :
    ((modifyFirst p ({ · with used := true }) l).filter (!·.used)).Sublist (l.filter (!·.used)) := by
  induction l with
  | nil => exact List.Sublist.refl _
  | cons e l ih =>
    unfold modifyFirst
    split
    · rw [List.filter_cons_of_neg (by simp)]
      exact (List.sublist_cons_self e l).filter _
    · cases hUsed : e.used with
      | true =>
        rw [List.filter_cons_of_neg (by simp [hUsed]), List.filter_cons_of_neg (by simp [hUsed])]
        exact ih
      | false =>
        rw [List.filter_cons_of_pos (by simp [hUsed]), List.filter_cons_of_pos (by simp [hUsed])]
        exact ih.cons_cons e

theorem reservedIps_consumeInvite {meshEnv : MeshEnv} {code : String} {now : Nat} :
    (m.consumeInvite meshEnv code now).1.reservedIps.Sublist m.reservedIps := by
  unfold consumeInvite
  split
  · exact List.Sublist.refl _
  · unfold reservedIps
    dsimp only
    have hSpent := filter_unused_modifyFirst (p := (·.codeHash = hashCode meshEnv code)) m.invites
    exact (((List.filter_sublist.filter _).trans hSpent).filterMap _).filter _

theorem reservedIps_completeJoin {jb : JoinBody} {deviceId : String} {aliasName : Option String} {now : Nat} :
    (Signaling.completeJoin env m jb deviceId aliasName now).reservedIps.Sublist m.reservedIps := by
  unfold Signaling.completeJoin
  cases aliasName with
  | none => exact reservedIps_consumeInvite
  | some a =>
    have hSpend : ((m.setMemberAlias deviceId a).consumeInvite env.meshEnv jb.code now).1.reservedIps.Sublist
        (m.setMemberAlias deviceId a).reservedIps := reservedIps_consumeInvite
    exact hSpend

-- ---------------------------------------------------------------------------
-- Commands
-- ---------------------------------------------------------------------------

/-- The IP of an invite is refused when it is in use and no other is left. -/
theorem checkBoundIp_refused (hUsed : trim ip ∈ m.usedIps) (hAll : ∀ p ∈ m.ipPool, p ∈ m.usedIps) :
    Command.checkBoundIp m (some ip) = .error s!"虚拟 IP {ip} 不可用" := by
  have hNone : m.allocateIp (some ip) = .error "IP 池已耗尽，请扩容 mesh.json 的 ip_pool" := by
    have hFilter : (some ip).filter (fun p => trim p ≠ "" && !m.usedIps.contains (trim p)) = none := by
      rw [Option.filter_eq_none_iff]
      rintro p hp
      cases hp
      simp [hUsed]
    have hFind : m.ipPool.find? (!m.usedIps.contains ·) = none := by
      rw [List.find?_eq_none]
      intro p hp
      simpa using hAll p hp
    unfold allocateIp
    rw [hFilter, hFind]
  unfold Command.checkBoundIp
  dsimp only
  rw [hNone]

theorem invite_refused {meshEnv : MeshEnv} {raw : Bytes} {now : Nat} (hUsed : trim ip ∈ m.usedIps)
    (hAll : ∀ p ∈ m.ipPool, p ∈ m.usedIps) :
    (Command.invite (some ip) raw).run meshEnv m now = .error s!"虚拟 IP {ip} 不可用" := by
  unfold Command.run
  dsimp only
  rw [checkBoundIp_refused hUsed hAll]
  rfl

theorem invite_accepted {meshEnv : MeshEnv} {bound : Option String} {raw : Bytes} {now : Nat}
    (hRun : (Command.invite bound raw).run meshEnv m now = .ok m') :
    m' = (m.createInvite meshEnv raw bound inviteTtlSecs now).1 := by
  unfold Command.run at hRun
  obtain ⟨_, _, hNew⟩ := bind_eq_ok.mp hRun
  exact (Except.ok.inj hNew).symm

theorem Reserving.invite (h : Reserving m) {meshEnv : MeshEnv} {bound : Option String} {raw : Bytes} {now : Nat}
    (hRun : (Command.invite bound raw).run meshEnv m now = .ok m')
    (hBound : ∀ ip, bound = some ip →
      trim ip = "" ∨ (trim ip = ip ∧ ¬ m.InUse ip) ∨ (trim ip ∈ m.usedIps ∧ ∀ p ∈ m.ipPool, p ∈ m.usedIps)) :
    Reserving m' := by
  cases invite_accepted hRun
  have hNone : bound.toList.filter (trim · ≠ "") = [] →
      Reserving (m.createInvite meshEnv raw bound inviteTtlSecs now).1 := by
    intro hBlank
    have hSub := reservedIps_createInvite meshEnv m raw bound inviteTtlSecs now
    rw [hBlank, List.append_nil] at hSub
    exact h.fewer hSub (List.Sublist.refl _) rfl
  cases bound with
  | none => exact hNone rfl
  | some ip =>
    rcases hBound ip rfl with hBlank | ⟨hTrim, hFree⟩ | ⟨hUsed, hAll⟩
    · exact hNone (by simp [hBlank])
    · by_cases hBlank : trim ip = ""
      · exact hNone (by simp [hBlank])
      · refine h.bind ?_ rfl rfl hTrim hBlank hFree
        have hSub := reservedIps_createInvite meshEnv m raw (some ip) inviteTtlSecs now
        have hOne : (some ip).toList.filter (trim · ≠ "") = [ip] := by simp [hBlank]
        rw [hOne] at hSub
        exact hSub
    · rw [invite_refused hUsed hAll] at hRun
      cases hRun

theorem Reserving.issue (h : Reserving m) {ikX ikS text : String} {note : Option String} {now : Nat}
    (hAsked : (∃ r, m.issueChecks env.meshEnv ikX ikS text note = .ok r) → m.AsksApart text) :
    Reserving (m.issueCert env.meshEnv ikX ikS text note now).1 := by
  rcases issueCert_cases env.meshEnv m ikX ikS text note now with
    ⟨e, _, hEq⟩ | ⟨deviceId, granted, seed, hChecks, hEq⟩
  · rw [hEq]
    exact h
  · obtain ⟨_, _, _, _, _, hIp, _⟩ := issueChecks_eq_ok.mp hChecks
    rw [hEq]
    refine h.hold (List.Sublist.refl _) (List.map_append ..) rfl (h.granted_apart hIp fun text' hSame => ?_)
    cases hSame
    exact hAsked ⟨_, hChecks⟩

theorem Reserving.revoke (h : Reserving m) (env : MeshEnv) (deviceId : String) (reason : RevokeReason)
    (now : Nat) : Reserving (m.revoke env.signatures deviceId reason now).1 := by
  obtain ⟨crl, members, hSub, hEq⟩ := revoke_frame env m deviceId reason now
  rw [hEq]
  exact h.fewer (List.Sublist.refl _) (hSub.map _) rfl

theorem Reserving.join (h : Reserving m) {jb : JoinBody} {d : JoinDraw}
    (hAsked : AsksExclusive env m (.join jb d)) : Reserving (Signaling.enroll env m jb d).1 := by
  have hIssued : ∀ ip granted seed, Signaling.Issues env m jb d ip granted seed →
      Reserving (Signaling.issued env m jb d granted seed) := by
    intro ip granted seed hIssues
    obtain ⟨boundIp, _, _, hPeek, _, _, _, hIp⟩ := Signaling.joinChecks_eq_ok.mp hIssues.checks
    obtain ⟨_, _, _, _, _, hAgain, _⟩ := issueChecks_eq_ok.mp hIssues.issue
    have hGranted : ip = granted := Except.ok.inj ((allocateIp_again h.pool hIp).symm.trans hAgain)
    refine h.hold (List.Sublist.refl _) (List.map_append ..) rfl (h.granted_apart (hGranted ▸ hIp) ?_)
    exact fun text hText => hAsked ⟨_, _, _, hIssues⟩ boundIp text hPeek hText
  rcases Signaling.enroll_cases env m jb d with
    ⟨⟨e, hEq⟩, _⟩ | ⟨ip, granted, seed, hIssues, ⟨e, _, hEq⟩ | ⟨aliasName, _, hEq⟩⟩
  · rw [hEq]
    exact h
  · rw [hEq]
    exact hIssued ip granted seed hIssues
  · rw [hEq]
    refine (hIssued ip granted seed hIssues).fewer reservedIps_completeJoin ?_ ?_
    · unfold heldIps
      rw [Signaling.completeJoin_map (·.cert.allowedIp) (fun _ _ => rfl)]
    · obtain ⟨members, invites, hFrame⟩ := Signaling.completeJoin_frame env
        (Signaling.issued env m jb d granted seed) jb jb.deviceId aliasName d.consumeNow
      dsimp only
      rw [hFrame]

-- ---------------------------------------------------------------------------
-- Whole runs
-- ---------------------------------------------------------------------------

theorem Reserving.next (h : Reserving m) {e : EnrolEvent} (hAsked : AsksExclusive env m e) :
    Reserving (enrolNext env m e) := by
  unfold enrolNext
  split
  · rename_i c now
    split
    · rename_i m' hRun
      cases c with
      | invite bound raw =>
        refine h.invite hRun fun ip hBound => ?_
        cases hBound
        exact hAsked
      | issue ikX ikS text =>
        unfold Command.run at hRun
        obtain ⟨cert, hIssue⟩ := Command.succeeded_eq_ok.mp hRun
        have hNext : Reserving (m.issueCert env.meshEnv ikX ikS (text.getD "") none now).1 := h.issue hAsked
        rw [hIssue] at hNext
        exact hNext
      | revoke target reason =>
        unfold Command.run at hRun
        obtain ⟨reason', _, hRest⟩ := bind_eq_ok.mp hRun
        obtain ⟨deviceId, _, hRevoke⟩ := bind_eq_ok.mp hRest
        obtain ⟨crl, hDone⟩ := Command.succeeded_eq_ok.mp hRevoke
        have hNext := h.revoke env.meshEnv deviceId reason' now
        rw [hDone] at hNext
        exact hNext
    · exact h
  · exact h.join hAsked
  · rename_i deviceId reason now
    exact h.revoke env.meshEnv deviceId reason now

theorem reserving_reach {verifyingKey : Bytes → Bytes}
    (h : (enrolMachine env verifyingKey).Reach (AsksExclusive env) m) : Reserving m := by
  refine Machine.Reach.invariant (I := Reserving) ?_ (fun m e hReserving _ hAsked => hReserving.next hAsked) h
  rintro m ⟨meshId, seed, _, rfl⟩
  exact
    { distinct := List.Pairwise.nil
      disjoint := List.forall_mem_nil _
      pool := rfl
      trimmed := List.forall_mem_nil _ }

/-- Along every run whose invites and certificates meet the guard, the IPs bound to
unused codes are different, and no member has one; and an `--invite` that meets it
and asks for an IP in use is refused. -/
theorem reservations_reach {verifyingKey : Bytes → Bytes}
    (h : (enrolMachine env verifyingKey).Reach (AsksExclusive env) m) :
    Exclusive m ∧ ∀ ip raw now, AsksExclusive env m (.command (.invite (some ip) raw) now) → m.InUse ip →
      (Command.invite (some ip) raw).run env.meshEnv m now = .error s!"虚拟 IP {ip} 不可用" := by
  refine ⟨(reserving_reach h).toExclusive, fun ip raw now hAsked hInUse => ?_⟩
  rcases hAsked with hBlank | ⟨_, hFree⟩ | ⟨hUsed, hAll⟩
  · exact absurd hBlank hInUse.1
  · exact absurd hInUse hFree
  · exact invite_refused hUsed hAll

-- ---------------------------------------------------------------------------
-- Two invites for one IP
-- ---------------------------------------------------------------------------

/-- The registry after `--invite --ip 10.13.13.5`, with this random code. -/
def exampleBound (m : MeshConfig) (n : UInt8) : MeshConfig :=
  (m.createInvite JoinLog.exampleServerEnv.meshEnv (List.replicate 16 n) (some "10.13.13.5") inviteTtlSecs 0).1

def exampleInvite (n : UInt8) : EnrolEvent :=
  .command (.invite (some "10.13.13.5") (List.replicate 16 n)) 0

theorem exampleInvite_next {n : UInt8} (h : Command.checkBoundIp m (some "10.13.13.5") = .ok ()) :
    (Command.invite (some "10.13.13.5") (List.replicate 16 n)).run JoinLog.exampleServerEnv.meshEnv m 0 =
        .ok (exampleBound m n) ∧
      (enrolMachine JoinLog.exampleServerEnv exampleVerifyingKey).next m (exampleInvite n) = exampleBound m n := by
  have hRun : (Command.invite (some "10.13.13.5") (List.replicate 16 n)).run JoinLog.exampleServerEnv.meshEnv m 0 =
      .ok (exampleBound m n) := by
    unfold Command.run
    dsimp only
    rw [h]
    rfl
  refine ⟨hRun, ?_⟩
  show enrolNext JoinLog.exampleServerEnv m (exampleInvite n) = _
  unfold enrolNext exampleInvite
  dsimp only
  rw [hRun]

theorem exampleRegistry_enrol {G : MeshConfig → EnrolEvent → Prop} :
    (enrolMachine JoinLog.exampleServerEnv exampleVerifyingKey).Reach G exampleRegistry :=
  .init ⟨"mesh", List.replicate 32 1, rfl, rfl⟩

theorem exampleRegistry_check : Command.checkBoundIp exampleRegistry (some "10.13.13.5") = .ok () := by
  decide +kernel

/-- One invite for an IP. -/
theorem reservations_reach_once : Exclusive (exampleBound exampleRegistry 1) := by
  have hFree : ¬ exampleRegistry.InUse "10.13.13.5" := by
    have hNone : exampleRegistry.reservedIps ++ exampleRegistry.heldIps = [] := rfl
    rintro ⟨_, s, hs, _⟩
    rw [hNone] at hs
    exact absurd hs List.not_mem_nil
  have hStep := (exampleRegistry_enrol (G := AsksExclusive JoinLog.exampleServerEnv)).step
    (e := exampleInvite 1) trivial (.inr (.inl ⟨by decide, hFree⟩))
  rw [(exampleInvite_next exampleRegistry_check).2] at hStep
  exact (reservations_reach hStep).1

/-- A second one for the same IP is not refused: another address is still free. -/
theorem reservations_twice :
    (enrolMachine JoinLog.exampleServerEnv exampleVerifyingKey).Reach (fun _ _ => True)
        (exampleBound exampleRegistry 1) ∧
      (exampleBound exampleRegistry 1).InUse "10.13.13.5" ∧
      (Command.invite (some "10.13.13.5") (List.replicate 16 2)).run JoinLog.exampleServerEnv.meshEnv
        (exampleBound exampleRegistry 1) 0 = .ok (exampleBound (exampleBound exampleRegistry 1) 2) ∧
      ¬ Exclusive (exampleBound (exampleBound exampleRegistry 1) 2) := by
  have hReach := (exampleRegistry_enrol (G := fun _ _ => True)).step (e := exampleInvite 1) trivial trivial
  rw [(exampleInvite_next exampleRegistry_check).2] at hReach
  have hOnce : (exampleBound exampleRegistry 1).reservedIps = ["10.13.13.5"] := by decide +kernel
  have hTwice : (exampleBound (exampleBound exampleRegistry 1) 2).reservedIps = ["10.13.13.5", "10.13.13.5"] := by
    decide +kernel
  have hCheck : Command.checkBoundIp (exampleBound exampleRegistry 1) (some "10.13.13.5") = .ok () := by
    decide +kernel
  refine ⟨hReach, ⟨by decide, "10.13.13.5", ?_, .inl rfl⟩, (exampleInvite_next hCheck).1, fun h => ?_⟩
  · rw [hOnce]
    exact List.mem_cons_self ..
  · have hPair := h.distinct
    rw [hTwice] at hPair
    exact (List.pairwise_cons.mp hPair).1 _ (List.mem_singleton_self _) (.inl rfl)

end MeshConfig

end LinkMesh
