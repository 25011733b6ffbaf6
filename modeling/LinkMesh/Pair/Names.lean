import LinkMesh.Client.Names
import LinkMesh.Pair.Signaling
import LinkMesh.Server.Query

/-!
# Names between the server and a client

The aliases of the administrator, from `resolve_alias` on the server
(`linkmesh-server/src/signaling.rs`) to the resolutions of a client
(`linkmesh-client/src/connection.rs`, `linkmesh-client/src/dns.rs`). A query
tells the querier an alias of the device it asked for, and the device the alias
of the querier; the client keeps both for later.

## Results

* `answer_by_name_right`  — an answer to a query by name gives the address of
  the administrator.
* `admin_alias_runs`      — in a run in which nobody is announced under the name
  with another address, the client resolves it to nothing but this address.
-/

namespace LinkMesh

open Std KeyMap TtlMap

-- ---------------------------------------------------------------------------
-- A client that knows one address for a name
-- ---------------------------------------------------------------------------

namespace Names

/-- The client has no local alias for the name, and whatever else it has for it
is this address. -/
structure OnlyAt (env : NameEnv) (n p : String) (s : Names) : Prop where
  locals : ∀ i, (s.conns i).localAliases[n]? = none
  learned : ∀ i ip t, (s.conns i).learnedAliases[n]? = some (ip, t) → ip = p
  cache : ∀ ip t, s.dns.cache[n]? = some (ip, t) → ip = p
  keys : ∀ l ∈ s.waiting, env.normalise l.key = l.key
  returned : ∀ ip, (n, ip) ∈ s.returned → ip = p

/-- No entry of the table is about the name. -/
def NoAlias (env : NameEnv) (n : String) (aliases : AliasTable) : Prop :=
  ∀ name ip, aliases[name]? = some ip → env.normalise name ≠ n

/-- What a client without a local alias for the name does, and what it is told
about the name. -/
def TellsOnly (env : NameEnv) (n p : String) (s : Names) : NameEvent → Prop
  | .learn _ name ip _ => env.normalise name = n → ip = p
  | .reload _ aliases => NoAlias env n aliases
  | .connect _ aliases => NoAlias env n aliases
  | .answer k (some ip) _ => ∀ l, s.waiting[k]? = some l → l.key = n → ip = p
  | _ => True

variable {env : NameEnv} {n p key ip : String} {s : Names} {i : Nat} {fails : Nat → Bool}
  {aliases : AliasTable}

theorem NoAlias.getElem? (h : NoAlias env n aliases) (hn : env.normalise n = n) : aliases[n]? = none := by
  match hEntry : aliases[n]? with
  | none => rfl
  | some ip => exact absurd hn (h n ip hEntry)

/-- Caching such a table leaves the entry of the name as it is. -/
theorem NoAlias.insertAll_cache (h : NoAlias env n aliases) (hNe : n ≠ "") {now : Nat} {r : DnsRegistry} :
    (r.insertAll env now aliases.toList).cache[n]? = r.cache[n]? := by
  have hNone : lastSpelled env n aliases.toList = none := by
    unfold lastSpelled
    rw [Option.map_eq_none_iff, List.find?_eq_none]
    intro e hMem
    have hOther := h e.1 e.2
      (ExtTreeMap.mem_toList_iff_getElem?_eq_some.mp (List.mem_reverse.mp hMem))
    simp [hOther]
  rw [Names.insertAll_cache hNe, hNone]

/-- Updating one connection with tables that know nothing else. -/
theorem OnlyAt.setConn (h : OnlyAt env n p s) {a : Aliases} (hLocal : a.localAliases[n]? = none)
    (hLearned : ∀ ip t, a.learnedAliases[n]? = some (ip, t) → ip = p) :
    OnlyAt env n p (s.setConn i a) := by
  have hConn : ∀ j, (s.setConn i a).conns j = a ∨ (s.setConn i a).conns j = s.conns j := by
    intro j
    by_cases hj : j = i
    · subst hj
      exact .inl (Function.update_self ..)
    · exact .inr (Function.update_of_ne hj ..)
  refine ⟨fun j => ?_, fun j ip t hEntry => ?_, h.cache, h.keys, h.returned⟩
  · rcases hConn j with hEq | hEq
    · rw [hEq]
      exact hLocal
    · rw [hEq]
      exact h.locals j
  · rcases hConn j with hEq | hEq
    · rw [hEq] at hEntry
      exact hLearned ip t hEntry
    · rw [hEq] at hEntry
      exact h.learned j ip t hEntry

/-- A new cache. -/
theorem OnlyAt.setDns (h : OnlyAt env n p s) {dns : DnsRegistry}
    (hCache : ∀ ip t, dns.cache[n]? = some (ip, t) → ip = p) : OnlyAt env n p { s with dns := dns } :=
  ⟨h.locals, h.learned, hCache, h.keys, h.returned⟩

/-- A cache entry for another name, or for this address. -/
theorem OnlyAt.insert (h : OnlyAt env n p s) {t : Nat} (hKey : key = n → ip = p) :
    ∀ q u, (s.dns.cache.insert key (ip, t))[n]? = some (q, u) → q = p := by
  intro q u hEntry
  rcases insert_cases hEntry with ⟨hEq, hSame⟩ | hOld
  · cases hSame
    exact hKey hEq.symm
  · exact h.cache q u hOld

theorem OnlyAt.find? (h : OnlyAt env n p s) (hFind : (s.conns i).find? s.now n = some ip) : ip = p := by
  unfold Aliases.find? at hFind
  rw [h.locals i] at hFind
  obtain ⟨t, hEntry, _⟩ := fresh_eq_some.mp hFind
  exact h.learned i ip t hEntry

/-- Trying the connections finds no other address. -/
theorem OnlyAt.tryResolvers (h : OnlyAt env n p s) (hKey : env.normalise key = key) (is : List Nat) :
    OnlyAt env n p (s.tryResolvers env key fails is).1 ∧
      ∀ ip, (s.tryResolvers env key fails is).2 = .found ip → key = n → ip = p := by
  induction is generalizing s with
  | nil => exact ⟨h, fun _ hFound => by cases hFound⟩
  | cons i rest ih =>
    unfold Names.tryResolvers
    rw [hKey]
    dsimp only
    split
    · exact ih h
    · split
      · rename_i q hFind
        have hRight : key = n → q = p := fun hEq => h.find? (hEq ▸ hFind)
        refine ⟨h.setDns (h.insert hRight), ?_⟩
        intro ip hFound hEq
        cases hFound
        exact hRight hEq
      · have hForget : OnlyAt env n p (s.setConn i ((s.conns i).forget key)) := by
          refine h.setConn (h.locals i) ?_
          intro q t hEntry
          have hErased : ((s.conns i).learnedAliases.erase key)[n]? = some (q, t) := hEntry
          exact h.learned i q t (of_getElem?_erase hErased).2
        split
        · exact ih hForget
        · refine ⟨⟨hForget.locals, hForget.learned, hForget.cache, ?_, hForget.returned⟩,
            fun _ hFound => by cases hFound⟩
          intro l hMem
          rcases List.mem_append.mp hMem with hOld | hNew
          · exact hForget.keys l hOld
          · cases List.mem_singleton.mp hNew
            exact hKey

/-- A result goes to the caller. -/
theorem OnlyAt.logged {r : Names × Outcome} (h : OnlyAt env n p r.1)
    (hFound : ∀ ip, r.2 = .found ip → key = n → ip = p) : OnlyAt env n p (logged key r) := by
  unfold Names.logged
  split
  · rename_i s q
    refine ⟨h.locals, h.learned, h.cache, h.keys, ?_⟩
    intro ip hMem
    rcases List.mem_cons.mp hMem with hEq | hOld
    · cases hEq
      exact hFound _ rfl rfl
    · exact h.returned ip hOld
  · exact h

theorem OnlyAt.learnAlias (h : OnlyAt env n p s) {name oldest : String}
    (hLower : ∀ a, env.normalise (env.normalise a) = env.normalise a)
    (hName : env.normalise name = n → ip = p) : OnlyAt env n p (s.learnAlias env i name ip oldest) := by
  unfold Names.learnAlias
  dsimp only
  split
  · exact h
  · have hConn : OnlyAt env n p
        (s.setConn i ((s.conns i).learn s.now (env.normalise name) ip oldest)) := by
      refine h.setConn (h.locals i) ?_
      intro q t hEntry
      have hInsert : ∀ q t, ((s.conns i).learnedAliases.insert (env.normalise name) (ip, s.now))[n]? =
          some (q, t) → q = p := by
        intro q t hEntry
        rcases insert_cases hEntry with ⟨hEq, hSame⟩ | hOld
        · cases hSame
          exact hName hEq.symm
        · exact h.learned i q t hOld
      unfold Aliases.learn at hEntry
      dsimp only at hEntry
      split at hEntry
      · exact hInsert q t (of_getElem?_erase hEntry).2
      · exact hInsert q t hEntry
    refine hConn.setDns ?_
    intro q t hEntry
    unfold DnsRegistry.insert at hEntry
    rw [hLower] at hEntry
    dsimp only at hEntry
    split at hEntry
    · exact h.cache q t hEntry
    · exact h.insert hName q t hEntry

theorem onlyAt_start (hNe : n ≠ "") {now : Nat} (hTable : NoAlias env n aliases) :
    OnlyAt env n p (start env now aliases) where
  locals _ := by simp [start]
  learned _ ip t hEntry := by simp [start] at hEntry
  cache ip t hEntry := by
    have hCache : (DnsRegistry.insertAll env now {} aliases.toList).cache[n]? = some (ip, t) := hEntry
    rw [hTable.insertAll_cache hNe] at hCache
    simp at hCache
  keys l hMem := by cases hMem
  returned ip hMem := by cases hMem

/-- A client that is told nothing else goes on knowing one address. -/
theorem onlyAt_next (hLower : ∀ a, env.normalise (env.normalise a) = env.normalise a)
    (hn : env.normalise n = n) (hNe : n ≠ "") (h : OnlyAt env n p s) {e : NameEvent}
    (hTells : TellsOnly env n p s e) : OnlyAt env n p (s.next env e) := by
  match e with
  | .tick d => exact ⟨h.locals, h.learned, h.cache, h.keys, h.returned⟩
  | .learn i name ip oldest => exact h.learnAlias hLower hTells
  | .reload i aliases =>
    have hTable : NoAlias env n aliases := hTells
    dsimp only [next]
    split
    · unfold reloadAliases
      split
      · exact h
      · have hConn : OnlyAt env n p (s.setConn i { s.conns i with localAliases := aliases }) :=
          h.setConn (hTable.getElem? hn) (h.learned i)
        refine hConn.setDns ?_
        intro ip t hEntry
        have hSame : (s.dns.insertAll env s.now aliases.toList).cache[n]? = some (ip, t) := hEntry
        rw [hTable.insertAll_cache hNe] at hSame
        exact h.cache ip t hSame
    · exact h
  | .connect i aliases =>
    have hTable : NoAlias env n aliases := hTells
    dsimp only [next]
    split
    · exact h
    · exact (h.setConn (hTable.getElem? hn) (fun ip t hEntry => by simp at hEntry)).setDns h.cache
  | .disconnect i => exact h.setDns h.cache
  | .ask name fails =>
    dsimp only [next]
    unfold resolve
    dsimp only
    split
    · exact h.logged fun _ hFound => by cases hFound
    · split
      · rename_i q hCached
        refine h.logged ?_
        intro ip hFound hEq
        cases hFound
        obtain ⟨t, hEntry, _⟩ := fresh_eq_some.mp hCached
        exact h.cache q t (hEq ▸ hEntry)
      · have hTried : OnlyAt env n p (s.tryResolvers env (env.normalise name) fails s.dns.resolvers).1 ∧
            ∀ ip, (s.tryResolvers env (env.normalise name) fails s.dns.resolvers).2 = .found ip →
              env.normalise name = n → ip = p := h.tryResolvers (hLower name) s.dns.resolvers
        exact hTried.1.logged hTried.2
  | .answer k result fails =>
    dsimp only [next]
    split
    · rename_i l hWaiting
      have hTaken : OnlyAt env n p { s with waiting := s.waiting.eraseIdx k } :=
        ⟨h.locals, h.learned, h.cache, fun l hMem => h.keys l (List.mem_of_mem_eraseIdx hMem),
          h.returned⟩
      cases result with
      | some ip =>
        have hRight : l.key = n → ip = p := hTells l hWaiting
        refine (hTaken.setDns (h.insert hRight)).logged ?_
        intro q hFound hEq
        cases hFound
        exact hRight hEq
      | none =>
        have hTried : OnlyAt env n p
            (Names.tryResolvers env l.key fails l.rest { s with waiting := s.waiting.eraseIdx k }).1 ∧
            ∀ ip, (Names.tryResolvers env l.key fails l.rest
              { s with waiting := s.waiting.eraseIdx k }).2 = .found ip → l.key = n → ip = p :=
          hTaken.tryResolvers (h.keys l (List.mem_of_getElem? hWaiting)) l.rest
        exact hTried.1.logged hTried.2
    · exact h

end Names

-- ---------------------------------------------------------------------------
-- What the server tells
-- ---------------------------------------------------------------------------

/-- A message of the server that carries names. -/
inductive Push where
  | notify (peer : PeerInfo)
  /-- the answer to a query that found a device -/
  | answer (qb : QueryBody) (target : RouteEntry)
  deriving DecidableEq, Repr

variable {Ct : Type}

namespace Signaling

/-- `notify_peer`: the querier as its route describes it. -/
def notifyPeer (env : SignalingEnv Ct) (s : Signaling) (sender : RawKey) (src : SourceAddr) : PeerInfo :=
  let info := s.routes.get sender
  { publicKey := keyB64 (keyBytes sender)
    endpoint := env.addrText src
    relayRk := info.bind (·.relayRk)
    aliasName := info.bind (·.aliasName)
    ip := info.map (·.ip) }

/-- The query that a datagram puts to the server. -/
def queryOf (env : SignalingEnv Ct) (s : Signaling) (f : SignalFrame Ct) :
    Option (SessionView × QueryBody) :=
  match s.sessions[f.sender]? with
  | some e =>
    match e.view.openFrame env f.payload with
    | some plaintext =>
      match planRequest env e.view f.msgType plaintext with
      | .query qb => some (e.view, qb)
      | _ => none
    | none => none
  | none => none

/-- The messages that a query causes: to the device it found and to the querier. -/
def pushes (env : SignalingEnv Ct) (s : Signaling) (f : SignalFrame Ct) (src : SourceAddr) :
    List (RawKey × Push) :=
  match s.queryOf env f with
  | some (v, qb) =>
    match s.queryTarget v (s.queryIp env qb) with
    | some target =>
      [(target.publicKey, .notify (s.notifyPeer env v.ikX src)), (v.ikX, .answer qb target)]
    | none => []
  | none => []

end Signaling

namespace Push

/-- The alias and the address that the client learns. -/
def aliasOf : Push → Option (String × String)
  | .notify peer =>
    match peer.aliasName, peer.ip with
    | some name, some ip => some (name, ip)
    | _, _ => none
  | .answer qb target =>
    match (queryAnswer qb (some target)).data with
    | .queryHit _ ip _ _ _ aliasName => if aliasName = "" then none else some (aliasName, ip)
    | _ => none

/-- The address that ends the resolutions waiting for this key. -/
def resultFor (key : String) : Push → Option String
  | .notify _ => none
  | .answer qb target =>
    match (queryAnswer qb (some target)).data with
    | .queryHit req ip _ _ _ _ => if req = key ∧ ip ≠ "" then some ip else none
    | _ => none

end Push

-- ---------------------------------------------------------------------------
-- Runs
-- ---------------------------------------------------------------------------

/-- A server, one of its clients, and everything the server has sent to it. -/
structure NameWorld where
  srv : Signaling
  client : Names
  inbox : List Push := []

inductive NameWorldEvent (Ct : Type) where
  | server (e : ServerEvent Ct)
  /-- the client's own: time, DNS queries, heartbeats and connections -/
  | own (e : NameEvent)
  /-- a message reaches a connection of the client -/
  | deliver (j i : Nat) (oldest : String)
  /-- a waiting resolution ends with an answer -/
  | finish (k j : Nat) (fails : Nat → Bool)
  /-- or without one -/
  | giveUp (k : Nat) (fails : Nat → Bool)

/-- The names of a client are lowered as those of the server are. -/
def SignalingEnv.nameEnv (env : SignalingEnv Ct) : NameEnv := { toLowercase := env.toLowercase }

namespace NameWorld

variable (env : SignalingEnv Ct) (me : RawKey)

/-- What an event of the server sends to the client. -/
def received (s : Signaling) : ServerEvent Ct → List Push
  | .datagram f src _ => ((s.pushes env f src).filter (·.1 = me)).map (·.2)
  | _ => []

def next (w : NameWorld) : NameWorldEvent Ct → NameWorld
  | .server e => { w with srv := w.srv.next env e, inbox := w.inbox ++ received env me w.srv e }
  | .own e => { w with client := w.client.next env.nameEnv e }
  | .deliver j i oldest =>
    match w.inbox[j]?.bind Push.aliasOf with
    | some (name, ip) => { w with client := w.client.next env.nameEnv (.learn i name ip oldest) }
    | none => w
  | .finish k j fails =>
    match w.client.waiting[k]?.bind fun l => w.inbox[j]?.bind (Push.resultFor l.key) with
    | some ip => { w with client := w.client.next env.nameEnv (.answer k (some ip) fails) }
    | none => w
  | .giveUp k fails => { w with client := w.client.next env.nameEnv (.answer k none fails) }

/-- The administrator has bound the name, which `validate_alias` has lowered,
to the address. -/
structure Bound (n p : String) (aliases : ExtTreeMap String String) : Prop where
  entry : aliases[n]? = some p
  normal : env.nameEnv.normalise n = n
  nonempty : n ≠ ""

/-- Runs in which the binding stays, for a client without a local alias for the
name. -/
def machine (n p : String) : Machine NameWorld (NameWorldEvent Ct) where
  init w :=
    RouteTable.tableMachine.Reach (fun _ _ => True) w.srv.routes ∧ Bound env n p w.srv.aliases ∧
      (∃ now aliases, Names.NoAlias env.nameEnv n aliases ∧
        w.client = Names.start env.nameEnv now aliases) ∧ w.inbox = []
  enabled w e :=
    match e with
    | .server (.administer _ aliases) => aliases[n]? = some p
    | .server _ => True
    | .own (.reload _ aliases) => Names.NoAlias env.nameEnv n aliases
    | .own (.connect _ aliases) => Names.NoAlias env.nameEnv n aliases
    | .own (.learn ..) => False
    | .own (.answer ..) => False
    | .own _ => True
    | .deliver j _ _ => j < w.inbox.length
    | .finish k j _ => k < w.client.waiting.length ∧ j < w.inbox.length
    | .giveUp k _ => k < w.client.waiting.length
  next := next env me

/-- A NOTIFY or an answer to a query by IP that has the name for another
address: the device registered the name itself. -/
def Misnames (n p : String) : Push → Prop
  | .notify peer => ∃ name ip, peer.aliasName = some name ∧ peer.ip = some ip ∧
      env.nameEnv.normalise name = n ∧ ip ≠ p
  | .answer qb target => qb.name = none ∧ target.ip ≠ p ∧
      ((∃ name, target.aliasName = some name ∧ env.nameEnv.normalise name = n) ∨ qb.ip = n)

/-- The step takes in no such message. -/
def TakesNone (n p : String) (w : NameWorld) : NameWorldEvent Ct → Prop
  | .deliver j _ _ => ∀ m, w.inbox[j]? = some m → ¬ Misnames env n p m
  | .finish _ j _ => ∀ m, w.inbox[j]? = some m → ¬ Misnames env n p m
  | _ => True

variable {env : SignalingEnv Ct} {me : RawKey} {n p : String} {s : Signaling} {w : NameWorld}

/-- An answer to a query by name gives the address of the administrator. -/
theorem answer_by_name_right (hRoutes : s.routes.IpIndexed) (hBound : s.aliases[n]? = some p)
    (hNe : n ≠ "") {f : SignalFrame Ct} {src : SourceAddr} {dest : RawKey} {qb : QueryBody}
    {target : RouteEntry} {name : String} (hMem : (dest, .answer qb target) ∈ s.pushes env f src)
    (hAsked : qb.name = some name) (hName : env.nameEnv.normalise name = n) : target.ip = p := by
  unfold Signaling.pushes at hMem
  split at hMem
  · rename_i v qb' hQuery
    split at hMem
    · rename_i found hTarget
      have hEq : qb' = qb ∧ found = target := by
        rcases List.mem_cons.mp hMem with hNotify | hRest
        · cases hNotify
        · cases List.mem_singleton.mp hRest
          exact ⟨rfl, rfl⟩
      obtain ⟨rfl, rfl⟩ := hEq
      have hIp : s.queryIp env qb' = some p := by
        have hLower : env.toLowercase (trim name) = n := hName
        unfold Signaling.queryIp Signaling.resolveAlias
        rw [hAsked]
        dsimp only
        rw [hLower, if_neg hNe, hBound]
      unfold Signaling.queryTarget at hTarget
      rw [hIp] at hTarget
      obtain ⟨hGet, _⟩ := Option.filter_eq_some_iff.mp hTarget
      exact (hRoutes.getByIp_eq_some.mp hGet).2.1
    · cases hMem
  · cases hMem

theorem execute_aliases {sender : RawKey} {v : SessionView} {src : SourceAddr} {now : Nat}
    {plan : RequestPlan} : (s.execute env sender v src now plan).1.aliases = s.aliases := by
  by_cases hBye : plan = .bye
  · subst hBye
    rfl
  · obtain ⟨_, hEq⟩ := Signaling.execute_frame env s sender v src now hBye
    rw [hEq]

/-- Only the administrator changes the aliases of the server. -/
theorem aliases_next {e : ServerEvent Ct} (hOther : ∀ rooms aliases, e ≠ .administer rooms aliases) :
    (s.next env e).aliases = s.aliases := by
  match e with
  | .datagram f src d =>
    show (s.handleSignaling env f src d).1.aliases = s.aliases
    rcases Signaling.handleSignaling_cases env s f src d with
      ⟨hSession, hKind⟩ | ⟨hFree, ab, hCarries⟩ | hBypass
    · rw [Signaling.handleSignaling_session d hKind hSession]
      rcases Signaling.handleSession_cases env s f src d.request with
        hSame | ⟨e, plaintext, hEntry, hOpen⟩
      · rw [hSame]
      · rw [Signaling.handleSession_opened hEntry hOpen]
        obtain ⟨_, hCommit⟩ := Signaling.commitCounter_frame s f.sender e.view.nextSeq d.request.now
        exact execute_aliases.trans (by rw [hCommit])
    · rw [Signaling.handleSignaling_auth src d hCarries hFree]
      rcases Signaling.handleAuth_cases env s f.sender ab src d.auth with
        ⟨⟨r, hEq⟩, _⟩ | ⟨r, nonce, _, hEq, _⟩ | ⟨room, nonce, ekC, _, hEq⟩
      · rw [hEq]
      · obtain ⟨_, hReplay⟩ := Signaling.replayCheck_frame s f.sender nonce
        rw [hEq, hReplay]
      · obtain ⟨_, hAfter⟩ := Signaling.afterAuth_eq env s f.sender src d.auth nonce
          (Signaling.authEntry env f.sender ab d.auth room nonce ekC)
        rw [hEq, hAfter]
    · rcases hBypass.change with ⟨_, _, _, hEq⟩ | ⟨_, hEq⟩
      · rw [hEq]
      · rw [hEq]
        rfl
  | .relay srcKey now =>
    obtain ⟨_, hEq⟩ := Signaling.relayRefresh_frame s srcKey now
    show (s.relayRefresh srcKey now).aliases = s.aliases
    rw [hEq]
  | .revoke deviceId reason now =>
    show (s.revokeDevice env deviceId reason now).1.aliases = s.aliases
    match hResult : (s.revokeDevice env deviceId reason now).2 with
    | .error _ =>
      obtain ⟨_, hEq⟩ := Signaling.revokeDevice_error hResult
      rw [hEq]
    | .ok _ =>
      obtain ⟨_, hEq⟩ := Signaling.revokeDevice_ok hResult
      rw [hEq]
  | .cleanup now =>
    show (s.cleanupPass env now).aliases = s.aliases
    rcases Signaling.cleanupPass_cases env s now with ⟨_, _, hEq⟩ | ⟨_, _, hEq⟩
    · rw [hEq]
    · rw [hEq]
  | .delPeer key => rfl
  | .administer rooms aliases => exact absurd rfl (hOther rooms aliases)

theorem mem_received {e : ServerEvent Ct} {m : Push} :
    m ∈ received env me s e ↔ ∃ f src d, e = .datagram f src d ∧ (me, m) ∈ s.pushes env f src := by
  unfold received
  split
  · rename_i f src d
    simp only [List.mem_map, List.mem_filter, decide_eq_true_eq, Prod.exists]
    constructor
    · rintro ⟨dest, m', ⟨hPush, rfl⟩, rfl⟩
      exact ⟨f, src, d, rfl, hPush⟩
    · rintro ⟨f', src', d', hEq, hPush⟩
      cases hEq
      exact ⟨me, m, ⟨hPush, rfl⟩, rfl⟩
  · rename_i hOther
    refine iff_of_false List.not_mem_nil ?_
    rintro ⟨f, src, d, hEq, _⟩
    exact hOther f src d hEq

/-- The server keeps the binding, the client has no other address for the name,
and no answer by name on the way to it has one. -/
structure Right (env : SignalingEnv Ct) (n p : String) (w : NameWorld) : Prop where
  routes : RouteTable.tableMachine.Reach (fun _ _ => True) w.srv.routes
  bound : Bound env n p w.srv.aliases
  named : ∀ qb target name, .answer qb target ∈ w.inbox → qb.name = some name →
    env.nameEnv.normalise name = n → target.ip = p
  client : Names.OnlyAt env.nameEnv n p w.client

/-- What the client learns from a message that is no misnomer. -/
theorem Right.learns (h : Right env n p w) {m : Push} (hMem : m ∈ w.inbox)
    (hSpared : ¬ Misnames env n p m) {name ip : String} (hAlias : m.aliasOf = some (name, ip))
    (hName : env.nameEnv.normalise name = n) : ip = p := by
  by_contra hWrong
  match m with
  | .notify peer =>
    unfold Push.aliasOf at hAlias
    dsimp only at hAlias
    split at hAlias
    · rename_i hPeer hIp
      cases hAlias
      exact hSpared ⟨_, _, hPeer, hIp, hName, hWrong⟩
    · cases hAlias
  | .answer qb target =>
    unfold Push.aliasOf queryAnswer at hAlias
    dsimp only [ResponseBody.okWithData] at hAlias
    split at hAlias
    · cases hAlias
    · rename_i hText
      obtain ⟨rfl, rfl⟩ := Prod.mk.inj (Option.some.inj hAlias)
      match hAsked : qb.name with
      | some raw =>
        rw [hAsked] at hName
        exact hWrong (h.named qb target raw hMem hAsked hName)
      | none =>
        rw [hAsked] at hName hText
        match hOwn : target.aliasName with
        | some a =>
          rw [hOwn] at hName
          exact hSpared ⟨hAsked, hWrong, .inl ⟨a, hOwn, hName⟩⟩
        | none =>
          rw [hOwn] at hText
          exact hText rfl

theorem Right.resolves (h : Right env n p w) {m : Push} (hMem : m ∈ w.inbox)
    (hSpared : ¬ Misnames env n p m) {ip : String} (hResult : m.resultFor n = some ip) : ip = p := by
  by_contra hWrong
  match m with
  | .notify peer => cases hResult
  | .answer qb target =>
    unfold Push.resultFor queryAnswer at hResult
    dsimp only [ResponseBody.okWithData] at hResult
    split at hResult
    · rename_i hReq
      cases hResult
      match hAsked : qb.name with
      | some raw =>
        rw [hAsked] at hReq
        have hRaw : raw = n := hReq.1
        exact hWrong (h.named qb target raw hMem hAsked (hRaw.symm ▸ h.bound.normal))
      | none =>
        rw [hAsked] at hReq
        exact hSpared ⟨hAsked, hWrong, .inr hReq.1⟩
    · cases hResult

theorem Right.setClient (h : Right env n p w)
    (hLower : ∀ a, env.nameEnv.normalise (env.nameEnv.normalise a) = env.nameEnv.normalise a)
    {e : NameEvent} (hTells : Names.TellsOnly env.nameEnv n p w.client e) :
    Right env n p { w with client := w.client.next env.nameEnv e } :=
  ⟨h.routes, h.bound, h.named,
    Names.onlyAt_next hLower h.bound.normal h.bound.nonempty h.client hTells⟩

theorem right_next (hLower : ∀ a, env.nameEnv.normalise (env.nameEnv.normalise a) =
      env.nameEnv.normalise a) (h : Right env n p w) {e : NameWorldEvent Ct}
    (hEnabled : (machine env me n p).enabled w e) (hTakes : TakesNone env n p w e) :
    Right env n p (w.next env me e) := by
  match e with
  | .server e =>
    refine ⟨(Signaling.leads_next env w.srv e).reach h.routes, ?_, ?_, h.client⟩
    · by_cases hAdmin : ∃ rooms aliases, e = .administer rooms aliases
      · obtain ⟨rooms, aliases, rfl⟩ := hAdmin
        exact ⟨hEnabled, h.bound.normal, h.bound.nonempty⟩
      · show Bound env n p (w.srv.next env e).aliases
        rw [aliases_next fun rooms aliases hEq => hAdmin ⟨rooms, aliases, hEq⟩]
        exact h.bound
    · intro qb target name hMem hAsked hName
      rcases List.mem_append.mp hMem with hOld | hNew
      · exact h.named qb target name hOld hAsked hName
      · obtain ⟨f, src, _, _, hPush⟩ := mem_received.mp hNew
        exact answer_by_name_right (RouteTable.ipIndexed_reach h.routes) h.bound.entry
          h.bound.nonempty hPush hAsked hName
  | .own e =>
    have hTells : Names.TellsOnly env.nameEnv n p w.client e := by
      match e with
      | .reload .. => exact hEnabled
      | .connect .. => exact hEnabled
      | .learn .. => exact hEnabled.elim
      | .answer .. => exact hEnabled.elim
      | .tick _ => trivial
      | .disconnect _ => trivial
      | .ask .. => trivial
    exact h.setClient hLower hTells
  | .deliver j i oldest =>
    dsimp only [next]
    split
    · rename_i name ip hLearnt
      obtain ⟨m, hAt, hAlias⟩ := Option.bind_eq_some_iff.mp hLearnt
      have hTells : Names.TellsOnly env.nameEnv n p w.client (.learn i name ip oldest) :=
        h.learns (List.mem_of_getElem? hAt) (hTakes m hAt) hAlias
      exact h.setClient hLower hTells
    · exact h
  | .finish k j fails =>
    dsimp only [next]
    split
    · rename_i ip hEnds
      obtain ⟨l, hWaiting, hEnds⟩ := Option.bind_eq_some_iff.mp hEnds
      obtain ⟨m, hAt, hResult⟩ := Option.bind_eq_some_iff.mp hEnds
      have hTells : Names.TellsOnly env.nameEnv n p w.client (.answer k (some ip) fails) := by
        intro l' hWaiting' hKey
        rw [hWaiting] at hWaiting'
        cases hWaiting'
        exact h.resolves (List.mem_of_getElem? hAt) (hTakes m hAt) (hKey ▸ hResult)
      exact h.setClient hLower hTells
    · exact h
  | .giveUp k fails => exact h.setClient hLower trivial

/-- **Precedence of the administrator's aliases.** A client without a local
alias for the name resolves it to the administrator's address only, in every run
in which it is not told of a device that registered the name itself. -/
theorem admin_alias_runs (hLower : ∀ a, env.nameEnv.normalise (env.nameEnv.normalise a) =
      env.nameEnv.normalise a)
    (h : (machine env me n p).Reach (TakesNone env n p) w) :
    ∀ ip, (n, ip) ∈ w.client.returned → ip = p := by
  have hRight : Right env n p w := by
    refine h.invariant ?_ fun w e hw hEnabled hTakes => right_next hLower hw hEnabled hTakes
    rintro w ⟨hRoutes, hBound, ⟨now, aliases, hNone, hClient⟩, hInbox⟩
    refine ⟨hRoutes, hBound, ?_, hClient ▸ Names.onlyAt_start hBound.nonempty hNone⟩
    intro qb target name hMem
    rw [hInbox] at hMem
    cases hMem
  exact hRight.client.returned

-- ---------------------------------------------------------------------------
-- An example
-- ---------------------------------------------------------------------------

/-- A query that finds a device sends it a NOTIFY, and the querier an answer. -/
theorem received_of_query {f : SignalFrame Ct} {src : SourceAddr} {d : SignalDraw} {v : SessionView}
    {qb : QueryBody} {target : RouteEntry} (hQuery : s.queryOf env f = some (v, qb))
    (hTarget : s.queryTarget v (s.queryIp env qb) = some target) (hOther : target.publicKey ≠ v.ikX) :
    received env target.publicKey s (.datagram f src d) = [.notify (s.notifyPeer env v.ikX src)] ∧
      received env v.ikX s (.datagram f src d) = [.answer qb target] := by
  have hPushes : s.pushes env f src =
      [(target.publicKey, .notify (s.notifyPeer env v.ikX src)), (v.ikX, .answer qb target)] := by
    unfold Signaling.pushes
    rw [hQuery]
    dsimp only
    rw [hTarget]
  unfold received
  dsimp only
  rw [hPushes]
  simp [hOther, hOther.symm]

end NameWorld

namespace Names

variable {env : NameEnv} {s : Names} {n ip : String} {i : Nat} {fails : Nat → Bool}

/-- A learned address is what the name is resolved to next. -/
theorem returned_of_learn (hn : env.normalise n = n) (hNe : n ≠ "") (hIp : isIpv4 ip = true)
    (oldest : String) :
    (n, ip) ∈ ((s.next env (.learn i n ip oldest)).next env (.ask n fails)).returned := by
  have hParses : ¬ (n = "" ∨ (IpAddr.parse ip).isNone) := by
    rintro (hEmpty | hNone)
    · exact hNe hEmpty
    · unfold isIpv4 at hIp
      simp [Option.isNone_iff_eq_none.mp hNone] at hIp
  have hTaken : ¬ (n = "" ∨ !isIpv4 ip) := by
    rintro (hEmpty | hNot)
    · exact hNe hEmpty
    · simp [hIp] at hNot
  have hCached : (s.next env (.learn i n ip oldest)).cached n = some ip := by
    have hCache : (s.next env (.learn i n ip oldest)).dns.cache = s.dns.cache.insert n (ip, s.now) := by
      show (s.learnAlias env i n ip oldest).dns.cache = _
      unfold learnAlias DnsRegistry.insert
      simp only [hn, if_neg hParses, if_neg hTaken]
      rfl
    have hNow : (s.next env (.learn i n ip oldest)).now = s.now := by
      show (s.learnAlias env i n ip oldest).now = _
      unfold learnAlias
      simp only [hn, if_neg hParses]
      rfl
    rw [cached_of_insert hNow hCache]
    exact if_pos rfl
  generalize s.next env (.learn i n ip oldest) = t at hCached ⊢
  have hFresh : fresh t.dns.cache cacheTtl t.now n = some ip := hCached
  dsimp only [next]
  unfold resolve
  simp only [hn, if_neg hNe, hFresh]
  exact List.mem_cons_self ..

end Names

/-- A route of device `k`. -/
def exampleDevice (k : RawKey) (ip : String) (aliasName : Option String) : RouteEntry :=
  { publicKey := k
    ip := ip
    endpoint := "192.0.2.1:4000"
    lastSeen := 0
    relayRk := none
    room := "default"
    aliasName := aliasName }

/-- The administrator's `nas` is 10.13.13.5; device 2 calls itself `nas`, and is
the one with a session. -/
def exampleNamed : Signaling :=
  { sampleOneSession with
    aliases := (∅ : ExtTreeMap String String).insert "nas" "10.13.13.5"
    routes :=
      ((({} : RouteTable).upsert (exampleDevice 2 "10.13.13.2" (some "nas"))).upsert
        (exampleDevice 3 "10.13.13.3" none)).upsert (exampleDevice 5 "10.13.13.5" none) }

def exampleNameWorld : NameWorld :=
  { srv := exampleNamed, client := Names.start sampleServerEnv.nameEnv 0 ∅ }

namespace NameWorld

variable {Ct : Type} {env : SignalingEnv Ct} {n : String} {w : NameWorld}

/-- A message that is delivered decides what its name is resolved to next. -/
theorem returned_of_deliver (me : RawKey) {m : Push} {ip oldest : String} {i : Nat} {fails : Nat → Bool}
    (hInbox : w.inbox = [m]) (hAlias : m.aliasOf = some (n, ip)) (hn : env.nameEnv.normalise n = n)
    (hNe : n ≠ "") (hIp : isIpv4 ip = true) :
    (n, ip) ∈ ((w.next env me (.deliver 0 i oldest)).next env me (.own (.ask n fails))).client.returned := by
  have hDeliver : w.next env me (.deliver 0 i oldest) =
      { w with client := w.client.next env.nameEnv (.learn i n ip oldest) } := by
    have hAt : w.inbox[0]?.bind Push.aliasOf = some (n, ip) := by
      rw [hInbox]
      exact hAlias
    unfold next
    simp only [hAt]
  rw [hDeliver]
  exact Names.returned_of_learn hn hNe hIp oldest

theorem exampleNameWorld_init (me : RawKey) :
    (machine sampleServerEnv me "nas" "10.13.13.5").init exampleNameWorld := by
  refine ⟨?_, ⟨?_, by decide, by decide⟩, ⟨0, ∅, ?_, rfl⟩, rfl⟩
  · have hFirst := (RouteTable.leads_upsert {} (exampleDevice 2 "10.13.13.2" (some "nas"))).reach (.init rfl)
    have hSecond := (RouteTable.leads_upsert _ (exampleDevice 3 "10.13.13.3" none)).reach hFirst
    exact (RouteTable.leads_upsert _ (exampleDevice 5 "10.13.13.5" none)).reach hSecond
  · exact ExtTreeMap.getElem?_insert_self
  · intro name ip hEntry
    simp at hEntry

/-- Device 2 puts a query. -/
theorem exampleNamed_query {qb : QueryBody} {body : Bytes} (hBody : encodeQuery qb = .ok body) :
    exampleNamed.queryOf sampleServerEnv (sampleFirstFrame { msgType := msgQuery, body := body }) =
      some ((sampleEntry 2 50 11 0 1 0).view, qb) := by
  have hEntry : exampleNamed.sessions[(50 : RawKey)]? = some (sampleEntry 2 50 11 0 1 0) :=
    (Signaling.sampleOneSession_entry 50).trans (if_pos rfl)
  have hOpen := sampleFirstFrame_opens { msgType := msgQuery, body := body }
  unfold Signaling.queryOf
  rw [show (sampleFirstFrame { msgType := msgQuery, body := body }).sender = 50 from rfl, hEntry]
  dsimp only
  rw [hOpen]
  dsimp only
  unfold planRequest
  simp only [decodeQuery_encodeQuery hBody]
  rfl

theorem exampleNamed_targets :
    (exampleNamed.routes.getByIp "10.13.13.3").filter (·.room = "default") =
        some (exampleDevice 3 "10.13.13.3" none) ∧
      (exampleNamed.routes.getByIp "10.13.13.5").filter (·.room = "default") =
        some (exampleDevice 5 "10.13.13.5" none) ∧
      exampleNamed.routes.get 2 = some (exampleDevice 2 "10.13.13.2" (some "nas")) := by
  decide +kernel

/-- Device 2 looks for `nas` by name, and learns the address of the administrator. -/
theorem admin_alias_runs_example :
    ∃ f : SignalFrame (RawKey × Nonce × Bytes),
      ("nas", "10.13.13.5") ∈ ((machine sampleServerEnv 2 "nas" "10.13.13.5").run exampleNameWorld
        [.own (.connect 0 ∅), .server (.datagram f sampleSrc (sampleSignalDraw 0 11)),
          .deliver 0 0 "nas", .own (.ask "nas" fun _ => false)]).client.returned ∧
      ∀ ip, ("nas", ip) ∈ ((machine sampleServerEnv 2 "nas" "10.13.13.5").run exampleNameWorld
        [.own (.connect 0 ∅), .server (.datagram f sampleSrc (sampleSignalDraw 0 11)),
          .deliver 0 0 "nas", .own (.ask "nas" fun _ => false)]).client.returned → ip = "10.13.13.5" := by
  have hName : putOptStr nameLen (some "nas") =
      .ok [[1], utf8 "nas" ++ List.replicate (nameLen - (utf8 "nas").length) 0] :=
    bind_eq_ok.mpr ⟨_, wireStrSet_ok (by decide +kernel) (by decide +kernel), rfl⟩
  have hEncodes : ∃ body, encodeQuery { ip := "", name := some "nas" } = .ok body :=
    exists_bind_ok (wireStrSet_ok (by decide +kernel) (by decide +kernel))
      (exists_bind_ok hName ⟨_, rfl⟩)
  obtain ⟨body, hBody⟩ := hEncodes
  have hReceived : received sampleServerEnv 2 exampleNamed (.datagram
      (sampleFirstFrame { msgType := msgQuery, body := body }) sampleSrc (sampleSignalDraw 0 11)) =
      [.answer { ip := "", name := some "nas" } (exampleDevice 5 "10.13.13.5" none)] :=
    (received_of_query (exampleNamed_query hBody) exampleNamed_targets.2.1 (by decide)).2
  generalize sampleFirstFrame { msgType := msgQuery, body := body } = f at hReceived
  have hInbox : ((exampleNameWorld.next sampleServerEnv 2 (.own (.connect 0 ∅))).next sampleServerEnv 2
      (.server (.datagram f sampleSrc (sampleSignalDraw 0 11)))).inbox =
      [.answer { ip := "", name := some "nas" } (exampleDevice 5 "10.13.13.5" none)] := hReceived
  have hAlias : (Push.answer { ip := "", name := some "nas" }
      (exampleDevice 5 "10.13.13.5" none)).aliasOf = some ("nas", "10.13.13.5") := by
    unfold Push.aliasOf queryAnswer ResponseBody.okWithData exampleDevice
    simp
  have hSpared : TakesNone sampleServerEnv "nas" "10.13.13.5"
      ((exampleNameWorld.next sampleServerEnv 2 (.own (.connect 0 ∅))).next sampleServerEnv 2
        (.server (.datagram f sampleSrc (sampleSignalDraw 0 11)))) (.deliver 0 0 "nas") := by
    intro m hAt
    rw [hInbox] at hAt
    cases hAt
    rintro ⟨hByIp, _⟩
    cases hByIp
  refine ⟨f, returned_of_deliver 2 hInbox hAlias (by decide) (by decide) (by decide), ?_⟩
  have hLower : ∀ a, sampleServerEnv.nameEnv.normalise (sampleServerEnv.nameEnv.normalise a) =
      sampleServerEnv.nameEnv.normalise a := fun a => trim_trim a
  refine admin_alias_runs hLower
    (Machine.reach_run (.init (exampleNameWorld_init 2)) ⟨?_, trivial, trivial, trivial, ?_, hSpared,
      trivial, trivial, trivial⟩)
  · intro name ip hEntry
    simp at hEntry
  · show 0 < ((exampleNameWorld.next sampleServerEnv 2 (.own (.connect 0 ∅))).next sampleServerEnv 2
      (.server (.datagram f sampleSrc (sampleSignalDraw 0 11)))).inbox.length
    rw [hInbox]
    exact Nat.one_pos

/-- Device 2 looks for device 3, which learns from the NOTIFY that 10.13.13.2 is
`nas`. -/
theorem admin_alias_fails :
    ∃ f : SignalFrame (RawKey × Nonce × Bytes),
      (machine sampleServerEnv 3 "nas" "10.13.13.5").init exampleNameWorld ∧
      Machine.Admissible (machine sampleServerEnv 3 "nas" "10.13.13.5") (fun _ _ => True)
        exampleNameWorld
        [.own (.connect 0 ∅), .server (.datagram f sampleSrc (sampleSignalDraw 0 11)),
          .deliver 0 0 "nas", .own (.ask "nas" fun _ => false)] ∧
      ("nas", "10.13.13.2") ∈ ((machine sampleServerEnv 3 "nas" "10.13.13.5").run exampleNameWorld
        [.own (.connect 0 ∅), .server (.datagram f sampleSrc (sampleSignalDraw 0 11)),
          .deliver 0 0 "nas", .own (.ask "nas" fun _ => false)]).client.returned := by
  have hEncodes : ∃ body, encodeQuery { ip := "10.13.13.3", name := none } = .ok body :=
    exists_bind_ok (wireStrSet_ok (by decide +kernel) (by decide +kernel)) (exists_bind_ok rfl ⟨_, rfl⟩)
  obtain ⟨body, hBody⟩ := hEncodes
  have hReceived : received sampleServerEnv 3 exampleNamed (.datagram
      (sampleFirstFrame { msgType := msgQuery, body := body }) sampleSrc (sampleSignalDraw 0 11)) =
      [.notify (exampleNamed.notifyPeer sampleServerEnv 2 sampleSrc)] :=
    (received_of_query (exampleNamed_query hBody) exampleNamed_targets.1 (by decide)).1
  generalize sampleFirstFrame { msgType := msgQuery, body := body } = f at hReceived
  have hInbox : ((exampleNameWorld.next sampleServerEnv 3 (.own (.connect 0 ∅))).next sampleServerEnv 3
      (.server (.datagram f sampleSrc (sampleSignalDraw 0 11)))).inbox =
      [.notify (exampleNamed.notifyPeer sampleServerEnv 2 sampleSrc)] := hReceived
  have hAlias : (Push.notify (exampleNamed.notifyPeer sampleServerEnv 2 sampleSrc)).aliasOf =
      some ("nas", "10.13.13.2") := by
    unfold Push.aliasOf Signaling.notifyPeer
    rw [exampleNamed_targets.2.2]
    rfl
  refine ⟨f, exampleNameWorld_init 3, ⟨?_, trivial, trivial, trivial, ?_, trivial, trivial, trivial,
    trivial⟩, returned_of_deliver 3 hInbox hAlias (by decide) (by decide) (by decide)⟩
  · intro name ip hEntry
    simp at hEntry
  · show 0 < ((exampleNameWorld.next sampleServerEnv 3 (.own (.connect 0 ∅))).next sampleServerEnv 3
      (.server (.datagram f sampleSrc (sampleSignalDraw 0 11)))).inbox.length
    rw [hInbox]
    exact Nat.one_pos

end NameWorld

end LinkMesh
