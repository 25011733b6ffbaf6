import LinkMesh.Basis.KeyedList
import LinkMesh.Server.Lifecycle
import LinkMesh.Server.RouteRuns

/-!
# What a query shows

The answers of MSG_QUERY (`linkmesh-server/src/signaling.rs`) against the view
of one room: the devices of the room and the aliases of the administrator.

## Results

* `routes_reach`              — the route table of a running server is reached by
  calls of the table.
* `query_noninterference_iff` — servers that agree on a room answer its queries
  alike iff a device of another room hides the queried one in both or in neither.
-/

namespace LinkMesh

open Std KeyMap

variable {Ct : Type}

-- ---------------------------------------------------------------------------
-- The route table of a running server
-- ---------------------------------------------------------------------------

namespace RouteTable

/-- Calls of the table lead from the one to the other. -/
def Leads (t t' : RouteTable) : Prop := ∃ cs, t' = tableMachine.run t cs

variable {t t' t'' : RouteTable}

theorem Leads.refl : t.Leads t := ⟨[], rfl⟩

theorem Leads.trans (h : t.Leads t') (h' : t'.Leads t'') : t.Leads t'' := by
  obtain ⟨cs, rfl⟩ := h
  obtain ⟨cs', rfl⟩ := h'
  refine ⟨cs ++ cs', ?_⟩
  unfold Machine.run
  rw [List.foldl_append]

theorem leads_upsert (t : RouteTable) (e : RouteEntry) : t.Leads (t.upsert e) := ⟨[.call (.upsert e)], rfl⟩

theorem leads_remove (t : RouteTable) (k : RawKey) : t.Leads (t.remove k) := ⟨[.call (.remove k)], rfl⟩

theorem leads_cleanup (t : RouteTable) (now ttl : Nat) : t.Leads (t.cleanup now ttl) :=
  ⟨[.call (.cleanup now ttl)], rfl⟩

theorem leads_foldl_remove (ks : List RawKey) (t : RouteTable) : t.Leads (ks.foldl remove t) := by
  induction ks generalizing t with
  | nil => exact .refl
  | cons k ks ih => exact (leads_remove t k).trans (ih _)

theorem Leads.reach (h : t.Leads t') (ht : tableMachine.Reach (fun _ _ => True) t) :
    tableMachine.Reach (fun _ _ => True) t' := by
  obtain ⟨cs, rfl⟩ := h
  refine Machine.reach_run ht ?_
  induction cs generalizing t with
  | nil => trivial
  | cons c cs ih => exact ⟨trivial, trivial, ih (.step ht trivial trivial)⟩

/-- The devices of a room, in the order of their keys. -/
def devices (t : RouteTable) (room : String) : List RouteEntry := t.snapshot.filter (·.room = room)

theorem mem_devices {room : String} {e : RouteEntry} :
    e ∈ t.devices room ↔ e ∈ t.snapshot ∧ e.room = room := by
  unfold devices
  rw [List.mem_filter, decide_eq_true_eq]

end RouteTable

namespace Signaling

variable {env : SignalingEnv Ct} {s s' : Signaling} {v : SessionView} {room name : String}
  {qb : QueryBody}

theorem leads_execute (env : SignalingEnv Ct) (s : Signaling) (sender : RawKey) (v : SessionView)
    (src : SourceAddr) (now : Nat) (plan : RequestPlan) :
    s.routes.Leads (s.execute env sender v src now plan).1.routes := by
  cases plan with
  | register relayRk aliasName => exact RouteTable.leads_upsert _ _
  | heartbeat =>
    show s.routes.Leads (s.heartbeatRoute env v src now).routes
    unfold heartbeatRoute
    split
    · exact RouteTable.leads_upsert _ _
    · exact .refl
  | bye => exact RouteTable.leads_remove _ _
  | _ => exact .refl

theorem leads_handleSignaling (env : SignalingEnv Ct) (s : Signaling) (f : SignalFrame Ct)
    (src : SourceAddr) (d : SignalDraw) : s.routes.Leads (s.handleSignaling env f src d).1.routes := by
  rcases handleSignaling_cases env s f src d with ⟨hSession, hKind⟩ | ⟨hFree, ab, hCarries⟩ | hBypass
  · rw [handleSignaling_session d hKind hSession]
    rcases handleSession_cases env s f src d.request with hSame | ⟨e, plaintext, hEntry, hOpen⟩
    · rw [hSame]
      exact .refl
    · rw [handleSession_opened hEntry hOpen]
      have hStep := leads_execute env (s.commitCounter f.sender e.view.nextSeq d.request.now) f.sender
        e.view src d.request.routeNow (planRequest env e.view f.msgType plaintext)
      rw [commitCounter_routes] at hStep
      exact hStep
  · rw [handleSignaling_auth src d hCarries hFree]
    rcases handleAuth_cases env s f.sender ab src d.auth with
      ⟨⟨r, hEq⟩, _⟩ | ⟨r, nonce, _, hEq, _⟩ | ⟨room, nonce, ekC, _, hEq⟩
    · rw [hEq]
      exact .refl
    · obtain ⟨ring, hReplay⟩ := replayCheck_frame s f.sender nonce
      rw [hEq, hReplay]
      exact .refl
    · rw [hEq]
      show s.routes.Leads (s.afterAuth env f.sender src d.auth nonce _).routes
      rw [afterAuth_routes]
      exact .refl
  · rcases hBypass.change with ⟨r, members, invites, hEq⟩ | ⟨_, hEq⟩
    · rw [hEq]
      exact .refl
    · rw [hEq]
      exact RouteTable.leads_remove _ _

theorem leads_cleanupPass (env : SignalingEnv Ct) (s : Signaling) (now : Nat) :
    s.routes.Leads (s.cleanupPass env now).routes := by
  have hDrop : ∀ (s : Signaling) (k : RawKey), s.routes.Leads (s.dropSession k).routes := by
    intro s k
    unfold dropSession
    split
    · exact RouteTable.leads_remove _ _
    · exact .refl
  have hFold : ∀ (ks : List RawKey) (s : Signaling), s.routes.Leads (ks.foldl dropSession s).routes := by
    intro ks
    induction ks with
    | nil => exact fun _ => .refl
    | cons k ks ih => exact fun s => (hDrop s k).trans (ih _)
  have hStart : s.routes.Leads ((s.cleanupRoutes env now).pruneRateLimits now).routes :=
    RouteTable.leads_cleanup _ _ _
  unfold cleanupPass
  dsimp only
  split
  · exact hStart.trans (hFold _ _)
  · exact hStart.trans (hFold _ _)

/-- Whatever the server handles, its routes change by calls of the table. -/
theorem leads_next (env : SignalingEnv Ct) (s : Signaling) (e : ServerEvent Ct) :
    s.routes.Leads (s.next env e).routes := by
  cases e with
  | datagram f src d => exact leads_handleSignaling env s f src d
  | relay srcKey now =>
    show s.routes.Leads (s.relayRefresh srcKey now).routes
    unfold relayRefresh refreshRoute
    split
    · split
      · exact RouteTable.leads_upsert _ _
      · exact .refl
    · exact .refl
  | revoke deviceId reason now =>
    show s.routes.Leads (s.revokeDevice env deviceId reason now).1.routes
    cases hResult : (s.revokeDevice env deviceId reason now).2 with
    | error e =>
      obtain ⟨mesh, hEq⟩ := revokeDevice_error hResult
      rw [hEq]
      exact .refl
    | ok version =>
      obtain ⟨mesh, hEq⟩ := revokeDevice_ok hResult
      rw [hEq]
      exact RouteTable.leads_foldl_remove _ _
  | cleanup now => exact leads_cleanupPass env s now
  | delPeer key => exact RouteTable.leads_remove _ _
  | administer rooms aliases => exact .refl

/-- The route table of a running server is one that calls lead to. -/
theorem routes_reach {G : Signaling → ServerEvent Ct → Prop} (h : (machine env).Reach G s) :
    RouteTable.tableMachine.Reach (fun _ _ => True) s.routes := by
  induction h with
  | init hInit =>
    obtain ⟨mesh, rooms, aliases, rfl⟩ := hInit
    exact .init rfl
  | step _ _ _ ih => exact (leads_next env _ _).reach ih

-- ---------------------------------------------------------------------------
-- The view of a room
-- ---------------------------------------------------------------------------

/-- What a query finds when only the devices of the room are looked at. -/
def roomTarget (env : SignalingEnv Ct) (s : Signaling) (room : String) (qb : QueryBody) :
    Option RouteEntry :=
  let withIp (ip : String) := (s.routes.devices room).find? fun e => e.ip = ip ∧ ip ≠ ""
  match qb.name with
  | some raw =>
    let name := env.toLowercase (trim raw)
    if name = "" then none
    else
      match s.aliases[name]? with
      | some ip => withIp ip
      | none => ((s.routes.devices room).find? (·.aliasName = some name)).filter (·.ip ≠ "")
  | none => withIp qb.ip

/-- The alias is none of the administrator's, and the first device that
registered it is in another room than the first one of the room. -/
structure HiddenAlias (s : Signaling) (room name : String) : Prop where
  notAdmin : s.aliases[name]? = none
  own : ∃ e, (s.routes.devices room).find? (·.aliasName = some name) = some e ∧ e.ip ≠ ""
  other : ∃ e, s.routes.snapshot.find? (·.aliasName = some name) = some e ∧ e.room ≠ room

/-- The query is for such an alias. -/
def Hides (env : SignalingEnv Ct) (s : Signaling) (room : String) (qb : QueryBody) : Prop :=
  ∃ raw, qb.name = some raw ∧ env.toLowercase (trim raw) ≠ "" ∧
    s.HiddenAlias room (env.toLowercase (trim raw))

/-- The servers have the same routes for the room, and the same aliases of the
administrator. -/
structure AgreeOn (s s' : Signaling) (room : String) : Prop where
  routes : ∀ k, (s.routes.get k).filter (·.room = room) = (s'.routes.get k).filter (·.room = room)
  aliases : s.aliases = s'.aliases

theorem AgreeOn.devices (h : AgreeOn s s' room) : s.routes.devices room = s'.routes.devices room := by
  have hMap : (s.routes.byKey.filter fun _ e => e.room = room) =
      s'.routes.byKey.filter fun _ e => e.room = room := by
    refine ExtTreeMap.ext_getElem? fun k => ?_
    rw [ExtTreeMap.getElem?_filter', ExtTreeMap.getElem?_filter']
    exact h.routes k
  have hDevices : ∀ t : RouteTable,
      t.devices room = (t.byKey.filter fun _ e => e.room = room).toList.map (·.2) := by
    intro t
    unfold RouteTable.devices RouteTable.snapshot
    rw [ExtTreeMap.toList_filter, List.filter_map]
    rfl
  rw [hDevices, hDevices, hMap]

theorem AgreeOn.roomTarget (h : AgreeOn s s' room) (env : SignalingEnv Ct) (qb : QueryBody) :
    s.roomTarget env room qb = s'.roomTarget env room qb := by
  unfold Signaling.roomTarget
  rw [h.devices, h.aliases]

/-- A device of the room is found by its IP. -/
theorem filter_getByIp (h : s.routes.IpIndexed) (room ip : String) :
    (s.routes.getByIp ip).filter (·.room = room) =
      (s.routes.devices room).find? fun e => e.ip = ip ∧ ip ≠ "" := by
  cases hFind : (s.routes.devices room).find? fun e => e.ip = ip ∧ ip ≠ "" with
  | none =>
    rw [Option.filter_eq_none_iff]
    intro e hGet
    obtain ⟨hSnapshot, hIp, hNe⟩ := h.getByIp_eq_some.mp hGet
    rw [decide_eq_true_eq]
    intro hRoom
    have hNot := List.find?_eq_none.mp hFind e (RouteTable.mem_devices.mpr ⟨hSnapshot, hRoom⟩)
    rw [decide_eq_true_eq] at hNot
    exact hNot ⟨hIp, hNe⟩
  | some e =>
    have hIp := List.find?_some hFind
    rw [decide_eq_true_eq] at hIp
    obtain ⟨hSnapshot, hRoom⟩ := RouteTable.mem_devices.mp (List.mem_of_find?_eq_some hFind)
    rw [h.getByIp_eq_some.mpr ⟨hSnapshot, hIp.1, hIp.2⟩, Option.filter_some, decide_eq_true hRoom]
    rfl

/-- An alias of a device leads to a device of the room unless it is hidden. -/
theorem aliasTarget_cases (h : s.routes.IpIndexed) (room : String) (hAdmin : s.aliases[name]? = none) :
    (s.HiddenAlias room name ∧
      ((s.resolveAlias name).bind s.routes.getByIp).filter (·.room = room) = none) ∨
    (¬ s.HiddenAlias room name ∧
      ((s.resolveAlias name).bind s.routes.getByIp).filter (·.room = room) =
        ((s.routes.devices room).find? (·.aliasName = some name)).filter (·.ip ≠ "")) := by
  unfold resolveAlias
  rw [hAdmin]
  dsimp only
  cases hFirst : s.routes.snapshot.find? (·.aliasName = some name) with
  | none =>
    right
    have hNone : (s.routes.devices room).find? (·.aliasName = some name) = none := by
      rw [List.find?_eq_none] at hFirst ⊢
      exact fun e he => hFirst e (RouteTable.mem_devices.mp he).1
    refine ⟨fun hHidden => ?_, ?_⟩
    · obtain ⟨e, hOther, _⟩ := hHidden.other
      rw [hFirst] at hOther
      cases hOther
    · rw [hNone]
      rfl
  | some e =>
    have hSnapshot := List.mem_of_find?_eq_some hFirst
    -- the IP of the first device leads back to it
    have hBack : (s.routes.getByIp e.ip).filter (·.room = room) =
        if e.ip ≠ "" ∧ e.room = room then some e else none := by
      by_cases hIp : e.ip = ""
      · rw [if_neg (fun hBoth => hBoth.1 hIp), Option.filter_eq_none_iff]
        intro e' hGet
        exact absurd hIp (h.getByIp_eq_some.mp hGet).2.2
      · rw [h.getByIp_eq_some.mpr ⟨hSnapshot, rfl, hIp⟩]
        by_cases hRoom : e.room = room
        · simp [hIp, hRoom]
        · simp [hRoom]
    show (s.HiddenAlias room name ∧ (s.routes.getByIp e.ip).filter (·.room = room) = none) ∨
      (¬ s.HiddenAlias room name ∧ (s.routes.getByIp e.ip).filter (·.room = room) = _)
    rw [hBack]
    by_cases hRoom : e.room = room
    · right
      have hOwn : (s.routes.devices room).find? (·.aliasName = some name) = some e :=
        KeyedList.find?_filter_of_first hFirst (decide_eq_true hRoom)
      refine ⟨fun hHidden => ?_, ?_⟩
      · obtain ⟨e', hOther, hNot⟩ := hHidden.other
        rw [hFirst] at hOther
        cases hOther
        exact hNot hRoom
      · rw [hOwn, Option.filter_some]
        by_cases hIp : e.ip = ""
        · simp [hIp]
        · simp [hIp, hRoom]
    · rw [if_neg (fun hBoth => hRoom hBoth.2)]
      cases hOwn : ((s.routes.devices room).find? (·.aliasName = some name)).filter (·.ip ≠ "") with
      | none =>
        refine .inr ⟨fun hHidden => ?_, rfl⟩
        obtain ⟨e', hOwn', hIp⟩ := hHidden.own
        rw [hOwn', Option.filter_some, decide_eq_true hIp] at hOwn
        cases hOwn
      | some e' =>
        obtain ⟨hFind, hIp⟩ := Option.filter_eq_some_iff.mp hOwn
        exact .inl ⟨⟨hAdmin, ⟨e', hFind, of_decide_eq_true hIp⟩, e, hFirst, hRoom⟩, rfl⟩

/-- A query finds what there is in the room, unless it is hidden. -/
theorem queryTarget_cases (h : s.routes.IpIndexed) (env : SignalingEnv Ct) (v : SessionView)
    (qb : QueryBody) :
    (s.Hides env v.room qb ∧ s.queryTarget v (s.queryIp env qb) = none) ∨
    (¬ s.Hides env v.room qb ∧
      s.queryTarget v (s.queryIp env qb) = s.roomTarget env v.room qb) := by
  unfold queryTarget queryIp roomTarget Hides
  cases hName : qb.name with
  | none =>
    right
    constructor
    · rintro ⟨_, hSome, _⟩
      cases hSome
    · exact filter_getByIp h v.room qb.ip
  | some raw =>
    dsimp only
    by_cases hBlank : env.toLowercase (trim raw) = ""
    · rw [if_pos hBlank, if_pos hBlank]
      refine .inr ⟨?_, rfl⟩
      rintro ⟨raw', hSame, hText, _⟩
      cases hSame
      exact hText hBlank
    · rw [if_neg hBlank, if_neg hBlank]
      have hHides : (∃ raw', some raw = some raw' ∧ env.toLowercase (trim raw') ≠ "" ∧
          s.HiddenAlias v.room (env.toLowercase (trim raw'))) ↔
            s.HiddenAlias v.room (env.toLowercase (trim raw)) := by
        constructor
        · rintro ⟨raw', hSame, _, hHidden⟩
          cases hSame
          exact hHidden
        · intro hHidden
          exact ⟨raw, rfl, hBlank, hHidden⟩
      rw [hHides]
      cases hAdmin : s.aliases[env.toLowercase (trim raw)]? with
      | none => exact aliasTarget_cases h v.room hAdmin
      | some ip =>
        right
        constructor
        · intro hHidden
          have hNot := hHidden.notAdmin
          rw [hAdmin] at hNot
          cases hNot
        · unfold resolveAlias
          rw [hAdmin]
          exact filter_getByIp h v.room ip

/-- Something is hidden only if there is something in the room. -/
theorem roomTarget_of_hides (h : s.Hides env room qb) : ∃ e, s.roomTarget env room qb = some e := by
  obtain ⟨raw, hName, hText, hHidden⟩ := h
  obtain ⟨e, hOwn, hIp⟩ := hHidden.own
  refine ⟨e, ?_⟩
  unfold roomTarget
  rw [hName]
  dsimp only
  rw [if_neg hText, hHidden.notAdmin, hOwn]
  simp [hIp]

/-- A hit and a miss are told apart. -/
theorem queryAnswer_none_ne (qb : QueryBody) (e : RouteEntry) :
    queryAnswer qb none ≠ queryAnswer qb (some e) := by
  intro hSame
  have hOk := congrArg ResponseBody.ok hSame
  cases hOk

/-- **Queries and other rooms.** Two servers that agree on a room give its
sessions the same answer to a query if and only if a device of another room
hides the queried device in both or in neither; and a device of the room is
found if and only if none hides it. -/
theorem query_noninterference_iff (env : SignalingEnv Ct) {s s' : Signaling} (v : SessionView)
    (hs : RouteTable.tableMachine.Reach (fun _ _ => True) s.routes)
    (hs' : RouteTable.tableMachine.Reach (fun _ _ => True) s'.routes) (hAgree : AgreeOn s s' v.room)
    (sender : RawKey) (src : SourceAddr) (now : Nat) (qb : QueryBody) :
    ((s.execute env sender v src now (.query qb)).2 = (s'.execute env sender v src now (.query qb)).2 ↔
      (s.Hides env v.room qb ↔ s'.Hides env v.room qb)) ∧
    ((s.execute env sender v src now (.query qb)).2 =
        .reply (queryAnswer qb (s.roomTarget env v.room qb)) ↔ ¬ s.Hides env v.room qb) := by
  have hAnswer : ∀ s : Signaling, (s.execute env sender v src now (.query qb)).2 =
      .reply (queryAnswer qb (s.queryTarget v (s.queryIp env qb))) := fun _ => rfl
  have hRoom := hAgree.roomTarget env qb
  rw [hAnswer, hAnswer]
  simp only [Answer.reply.injEq]
  rcases queryTarget_cases (RouteTable.ipIndexed_reach hs) env v qb with
    ⟨hHides, hTarget⟩ | ⟨hHides, hTarget⟩
  · obtain ⟨e, hOwn⟩ := roomTarget_of_hides hHides
    rw [hTarget, hOwn]
    refine ⟨?_, iff_of_false (queryAnswer_none_ne qb e) (not_not_intro hHides)⟩
    rcases queryTarget_cases (RouteTable.ipIndexed_reach hs') env v qb with
      ⟨hHides', hTarget'⟩ | ⟨hHides', hTarget'⟩
    · rw [hTarget']
      exact iff_of_true rfl (iff_of_true hHides hHides')
    · rw [hTarget', ← hRoom, hOwn]
      exact iff_of_false (queryAnswer_none_ne qb e) (fun hSame => hHides' (hSame.mp hHides))
  · rw [hTarget]
    refine ⟨?_, iff_of_true rfl hHides⟩
    rcases queryTarget_cases (RouteTable.ipIndexed_reach hs') env v qb with
      ⟨hHides', hTarget'⟩ | ⟨hHides', hTarget'⟩
    · obtain ⟨e, hOwn⟩ := roomTarget_of_hides hHides'
      rw [hTarget', hRoom, hOwn]
      exact iff_of_false (queryAnswer_none_ne qb e).symm (fun hSame => hHides (hSame.mpr hHides'))
    · rw [hTarget', hRoom]
      exact iff_of_true rfl (iff_of_false hHides hHides')

-- ---------------------------------------------------------------------------
-- An example
-- ---------------------------------------------------------------------------

/-- Device `k`, with the alias `nas`. -/
def exampleNas (k : RawKey) (ip room : String) : RouteEntry :=
  { publicKey := k
    ip := ip
    endpoint := "192.0.2.1:4000"
    lastSeen := 0
    relayRk := none
    room := room
    aliasName := some "nas" }

/-- Device 2 is alone in the lab. -/
def exampleLab : Signaling :=
  { mesh := sampleMesh
    routes := ({} : RouteTable).upsert (exampleNas 2 "10.13.13.2" "lab") }

/-- Device 1 registers the same alias in the shop. -/
def exampleShop : Signaling :=
  { exampleLab with routes := exampleLab.routes.upsert (exampleNas 1 "10.13.13.1" "shop") }

def exampleLabView : SessionView :=
  { sk := 9, ikX := 3, ip := "10.13.13.3", nextSeq := 1, deviceId := "", room := "lab" }

def exampleNasQuery : QueryBody := { ip := "", name := some "nas" }

theorem exampleLab_reach :
    RouteTable.tableMachine.Reach (fun _ _ => True) exampleLab.routes ∧
      RouteTable.tableMachine.Reach (fun _ _ => True) exampleShop.routes := by
  have hLab : RouteTable.tableMachine.Reach (fun _ _ => True) exampleLab.routes :=
    (RouteTable.leads_upsert {} _).reach (.init rfl)
  exact ⟨hLab, (RouteTable.leads_upsert _ _).reach hLab⟩

/-- The shop is not seen from the lab. -/
theorem exampleLab_agree : AgreeOn exampleLab exampleShop "lab" where
  routes k := by
    have hFree : RouteTable.displaced exampleLab.routes (exampleNas 1 "10.13.13.1" "shop") = none := by
      decide +kernel
    have hNone : exampleLab.routes.byKey[(1 : RawKey)]? = none := by decide +kernel
    show (exampleLab.routes.byKey[k]?).filter _ =
      ((exampleLab.routes.upsert (exampleNas 1 "10.13.13.1" "shop")).byKey[k]?).filter _
    rw [RouteTable.upsert_byKey, hFree, getElem?_insert]
    split
    · rename_i hKey
      have hOne : k = 1 := hKey
      rw [hOne, hNone]
      rfl
    · rfl
  aliases := rfl

theorem query_noninterference_sample :
    ((exampleLab.execute sampleServerEnv 50 exampleLabView sampleSrc 0 (.query exampleNasQuery)).2 =
        (exampleShop.execute sampleServerEnv 50 exampleLabView sampleSrc 0 (.query exampleNasQuery)).2 ↔
      (exampleLab.Hides sampleServerEnv "lab" exampleNasQuery ↔
        exampleShop.Hides sampleServerEnv "lab" exampleNasQuery)) ∧
    ((exampleLab.execute sampleServerEnv 50 exampleLabView sampleSrc 0 (.query exampleNasQuery)).2 =
        .reply (queryAnswer exampleNasQuery
          (exampleLab.roomTarget sampleServerEnv "lab" exampleNasQuery)) ↔
      ¬ exampleLab.Hides sampleServerEnv "lab" exampleNasQuery) :=
  query_noninterference_iff sampleServerEnv exampleLabView exampleLab_reach.1 exampleLab_reach.2
    exampleLab_agree 50 sampleSrc 0 exampleNasQuery

/-- The device of the shop hides the one of the lab from the lab. -/
theorem query_noninterference_fails :
    RouteTable.tableMachine.Reach (fun _ _ => True) exampleLab.routes ∧
    RouteTable.tableMachine.Reach (fun _ _ => True) exampleShop.routes ∧
    AgreeOn exampleLab exampleShop "lab" ∧
    (exampleLab.execute sampleServerEnv 50 exampleLabView sampleSrc 0 (.query exampleNasQuery)).2 =
      .reply (queryAnswer exampleNasQuery (some (exampleNas 2 "10.13.13.2" "lab"))) ∧
    (exampleShop.execute sampleServerEnv 50 exampleLabView sampleSrc 0 (.query exampleNasQuery)).2 =
      .reply (queryAnswer exampleNasQuery none) := by
  refine ⟨exampleLab_reach.1, exampleLab_reach.2, exampleLab_agree, ?_, ?_⟩
  · decide +kernel
  · decide +kernel

end Signaling

end LinkMesh
