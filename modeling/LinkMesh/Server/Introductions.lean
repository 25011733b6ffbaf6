import LinkMesh.Server.Answers
import LinkMesh.Server.RelayRuns

/-!
# Introductions

A QUERY that finds its target introduces two devices: the target is told of the
querier (`notify_peer`, `linkmesh-server/src/signaling.rs`), the querier gets the
endpoint of the target. `notify_peer` locks the routes once more, so that
anything else may run between the search and the NOTIFY; the worker answers
after it.

A worker keeps the source address of its datagram through all its sections. The
run notes every session request that was opened, with the address it came from.

## Results

* `introductions_authentic` — whom the server names, with which endpoint, has
  been heard at this endpoint itself, in a session of the room that is served.
-/

namespace LinkMesh

open Std KeyMap

variable {Ct : Type}

-- ---------------------------------------------------------------------------
-- `notify_peer`
-- ---------------------------------------------------------------------------

/-- A session request that was opened, and the address it came from. -/
structure Contact (Ct : Type) where
  frame : SignalFrame Ct
  src : SourceAddr
  view : SessionView
  plaintext : Bytes

/-- A QUERY has found its target: `notify_peer` is next. -/
structure Introduction where
  target : RouteEntry
  querier : SessionView
  src : SourceAddr

/-- A NOTIFY that was sent, for the identity whose key seals it. -/
structure Notice where
  target : RawKey
  addr : SourceAddr
  body : NotifyBody

/-- `notify_peer`. Nothing is sent to another room, nor when the body does not fit
the wire or the endpoint of the target is no address. -/
def Introduction.notices (env : SignalingEnv Ct) (srv : Signaling) (i : Introduction) : List Notice :=
  if i.target.room ≠ i.querier.room then []
  else
    let body : NotifyBody := { peer := srv.notifyPeer env i.querier.ikX i.src }
    match encodeNotify body, endpointAddr i.target.endpoint with
    | .ok _, .ok addr => [{ target := i.target.publicKey, addr := addr, body := body }]
    | _, _ => []

namespace Task

/-- What the next section notes as heard. -/
def contacts : Task Ct → List (Contact Ct)
  | .opened f src v plaintext => [{ frame := f, src := src, view := v, plaintext := plaintext }]
  | _ => []

/-- The introduction to make after the next section, with the source of the worker. -/
def introduces (srv : Signaling) (src : SourceAddr) : Task Ct → Option Introduction
  | .resolved v _ ip => (srv.queryTarget v ip).map fun target => { target := target, querier := v, src := src }
  | _ => none

end Task

/-- The server with the introductions that its workers have to make. -/
structure Introductions (Ct : Type) where
  server : Workers Ct
  /-- where the datagram of a worker came from -/
  source : Nat → SourceAddr
  pending : Nat → Option Introduction := fun _ => none
  heard : List (Contact Ct) := []
  told : List Notice := []
  /-- who has authenticated in this run, and in which room -/
  authenticated : List (RawKey × String) := []

inductive IntroductionEvent (Ct : Type) where
  | server (ev : WorkerEvent Ct)
  /-- `notify_peer` of a worker -/
  | introduce (w : Nat)

namespace Introductions

/-- The source addresses of the workers after an event. -/
def sources (n : Nat) (source : Nat → SourceAddr) : WorkerEvent Ct → Nat → SourceAddr
  | .receive _ src _ => Function.update source (shardIndex src n) src
  | _ => source

def next (env : SignalingEnv Ct) (n : Nat) (s : Introductions Ct) : IntroductionEvent Ct → Introductions Ct
  | .server ev =>
    { s with
      server := s.server.next env n ev
      source := sources n s.source ev
      pending :=
        match ev with
        | .work w _ =>
          Function.update s.pending w ((s.server.tasks w).introduces s.server.srv (s.source w))
        | _ => s.pending
      heard :=
        match ev with
        | .work w _ => s.heard ++ (s.server.tasks w).contacts
        | _ => s.heard
      authenticated := s.authenticated ++ Relays.admits env s.server ev }
  | .introduce w =>
    match s.pending w with
    | some i =>
      { s with
        pending := Function.update s.pending w none
        told := s.told ++ i.notices env s.server.srv }
    | none => s

/-- A worker answers when it has made its introduction. -/
def enabled (env : SignalingEnv Ct) (n : Nat) (s : Introductions Ct) : IntroductionEvent Ct → Prop
  | .server (.work w random) => Workers.enabled env n s.server (.work w random) ∧ s.pending w = none
  | .server ev => Workers.enabled env n s.server ev
  | .introduce w => s.pending w ≠ none

/-- The server with `n` workers, over any interleaving. -/
def machine (env : SignalingEnv Ct) (n : Nat) : Machine (Introductions Ct) (IntroductionEvent Ct) where
  init s := ∃ server source, (Workers.machine env n).init server ∧ s = { server := server, source := source }
  enabled := enabled env n
  next := next env n

end Introductions

-- ---------------------------------------------------------------------------
-- Who was heard
-- ---------------------------------------------------------------------------

namespace Contact

variable (env : SignalingEnv Ct) (c : Contact Ct)

/-- The frame was sealed under the key and the counter of the session. -/
def Opened : Prop := c.view.openFrame env c.frame.payload = some c.plaintext

def plan : RequestPlan := planRequest env c.view c.frame.msgType c.plaintext

/-- The request says where the device is. -/
def Locates : Prop := c.plan env = .heartbeat ∨ ∃ relayRk aliasName, c.plan env = .register relayRk aliasName

end Contact

section

variable (env : SignalingEnv Ct) (heard : List (Contact Ct))

/-- A device of the room was heard at the endpoint, in its own session. -/
def HeardAt (ikX : RawKey) (room endpoint : String) : Prop :=
  ∃ c ∈ heard, c.Opened env ∧ c.Locates env ∧ c.view.ikX = ikX ∧ c.view.room = room ∧
    env.addrText c.src = endpoint

/-- The session has asked, from the address. -/
def Asked (v : SessionView) (src : SourceAddr) (qb : QueryBody) : Prop :=
  ∃ c ∈ heard, c.Opened env ∧ c.view = v ∧ c.src = src ∧ c.plan env = .query qb

/-- A device is shown to a session that has asked, with an endpoint at which it was
heard, in the room of the session. -/
def ShowsHeard (v : SessionView) (body : ResponseBody) : Prop :=
  ∀ req ip publicKey endpoint relayRk aliasName,
    body.data = .queryHit req ip publicKey endpoint relayRk aliasName →
    ∃ src qb ikX, Asked env heard v src qb ∧ req = qb.name.getD qb.ip ∧
      publicKey = keyB64 (keyBytes ikX) ∧ HeardAt env heard ikX v.room endpoint

variable {env heard} {heard' : List (Contact Ct)} {ikX : RawKey} {room endpoint : String} {v : SessionView}
  {src : SourceAddr} {qb : QueryBody} {body : ResponseBody}

theorem HeardAt.mono (h : HeardAt env heard ikX room endpoint) (hMore : heard ⊆ heard') :
    HeardAt env heard' ikX room endpoint := by
  obtain ⟨c, hc, hRest⟩ := h
  exact ⟨c, hMore hc, hRest⟩

theorem Asked.mono (h : Asked env heard v src qb) (hMore : heard ⊆ heard') : Asked env heard' v src qb := by
  obtain ⟨c, hc, hRest⟩ := h
  exact ⟨c, hMore hc, hRest⟩

theorem ShowsHeard.mono (h : ShowsHeard env heard v body) (hMore : heard ⊆ heard') :
    ShowsHeard env heard' v body := by
  intro req ip publicKey endpoint relayRk aliasName hData
  obtain ⟨src, qb, ikX, hAsked, hReq, hKey, hHeard⟩ := h _ _ _ _ _ _ hData
  exact ⟨src, qb, ikX, hAsked.mono hMore, hReq, hKey, hHeard.mono hMore⟩

/-- An answer without a device shows none. -/
theorem showsHeard_of_ne
    (h : ∀ req ip publicKey endpoint relayRk aliasName,
      body.data ≠ .queryHit req ip publicKey endpoint relayRk aliasName) :
    ShowsHeard env heard v body := by
  intro req ip publicKey endpoint relayRk aliasName hData
  exact absurd hData (h _ _ _ _ _ _)

/-- Every route is one of a device that was heard where it is said to be. -/
abbrev RoutesHeard (env : SignalingEnv Ct) (heard : List (Contact Ct)) : RouteTable → Prop :=
  RouteTable.All fun e => HeardAt env heard e.publicKey e.room e.endpoint

theorem RoutesHeard.mono {t : RouteTable} (h : RoutesHeard env heard t) (hMore : heard ⊆ heard') :
    RoutesHeard env heard' t := fun k e hEntry => (h k e hEntry).mono hMore

theorem RoutesHeard.queryTarget {s : Signaling} (h : RoutesHeard env heard s.routes) {ip : Option String}
    {e : RouteEntry} (hTarget : s.queryTarget v ip = some e) :
    HeardAt env heard e.publicKey v.room e.endpoint := by
  obtain ⟨hFound, hRoom⟩ := Option.filter_eq_some_iff.mp hTarget
  obtain ⟨ip, _, hByIp⟩ := Option.bind_eq_some_iff.mp hFound
  obtain ⟨k, _, hEntry⟩ := Option.bind_eq_some_iff.mp hByIp
  rw [← of_decide_eq_true hRoom]
  exact h k e hEntry

theorem RoutesHeard.queryAnswer {s : Signaling} (h : RoutesHeard env heard s.routes)
    (hAsked : Asked env heard v src qb) (ip : Option String) :
    ShowsHeard env heard v (queryAnswer qb (s.queryTarget v ip)) := by
  unfold LinkMesh.queryAnswer
  dsimp only
  split
  · rename_i e hTarget
    intro req ip publicKey endpoint relayRk aliasName hData
    cases hData
    exact ⟨src, qb, e.publicKey, hAsked, rfl, rfl, h.queryTarget hTarget⟩
  · exact showsHeard_of_ne fun _ _ _ _ _ _ hData => by cases hData

end

-- ---------------------------------------------------------------------------
-- Sections
-- ---------------------------------------------------------------------------

/-- What a worker holds goes back to what was heard from its source. -/
def Task.Backed (env : SignalingEnv Ct) (heard : List (Contact Ct)) (src : SourceAddr) : Task Ct → Prop
  | .dispatched _ src' => src' = src
  | .opened f src' v plaintext => src' = src ∧ v.openFrame env f.payload = some plaintext
  | .committed _ src' v plan =>
    src' = src ∧ ∃ c ∈ heard, c.Opened env ∧ c.view = v ∧ c.src = src ∧ c.plan env = plan
  | .searching v qb _ => Asked env heard v src qb
  | .resolved v qb _ => Asked env heard v src qb
  | .answering v (.reply body) => ShowsHeard env heard v body
  | _ => True

namespace Task

variable {env : SignalingEnv Ct} {heard heard' : List (Contact Ct)} {src : SourceAddr} {t : Task Ct}
  {srv : Signaling} {now : Nat}

theorem Backed.mono (h : t.Backed env heard src) (hMore : heard ⊆ heard') : t.Backed env heard' src := by
  cases t with
  | committed sender src' v plan =>
    obtain ⟨hSrc, c, hc, hRest⟩ := h
    exact ⟨hSrc, c, hMore hc, hRest⟩
  | searching v qb name => exact Asked.mono h hMore
  | resolved v qb ip => exact Asked.mono h hMore
  | answering v answer =>
    cases answer with
    | reply body => exact ShowsHeard.mono h hMore
    | _ => trivial
  | _ => exact h

/-- A route is stored for the session whose request was heard. -/
theorem step_routesHeard (hTask : t.Backed env heard src) (hRoutes : RoutesHeard env heard srv.routes)
    (hKeyed : srv.routes.Keyed) : RoutesHeard env heard (t.step env srv now).1.routes := by
  cases t with
  | opened f src' v plaintext =>
    show RoutesHeard env heard (srv.commitCounter f.sender v.nextSeq now).routes
    rw [Signaling.commitCounter_routes]
    exact hRoutes
  | dispatched f src' =>
    rw [step_dispatched]
    exact hRoutes
  | relaying srcKey =>
    show RoutesHeard env heard (srv.refreshRoute srcKey now).routes
    unfold Signaling.refreshRoute
    split
    · rename_i e hOld
      have hHeard : HeardAt env heard e.publicKey e.room e.endpoint := hRoutes srcKey e hOld
      rw [hKeyed srcKey e hOld] at hHeard
      exact hRoutes.upsert hHeard
    · exact hRoutes
  | committed sender src' v plan =>
    obtain ⟨rfl, c, hc, hOpened, rfl, rfl, hPlan⟩ := hTask
    cases plan with
    | bye => exact hRoutes.remove
    | register relayRk aliasName =>
      exact hRoutes.upsert ⟨c, hc, hOpened, .inr ⟨relayRk, aliasName, hPlan⟩, rfl, rfl, rfl⟩
    | heartbeat =>
      show RoutesHeard env heard (srv.heartbeatRoute env c.view c.src now).routes
      unfold Signaling.heartbeatRoute
      split
      · exact hRoutes.upsert ⟨c, hc, hOpened, .inl hPlan, rfl, rfl, rfl⟩
      · exact hRoutes
    | _ => exact hRoutes
  | _ => exact hRoutes

/-- What a worker holds after a section. -/
theorem step_backed (hTask : t.Backed env heard src) (hRoutes : RoutesHeard env heard srv.routes) :
    (t.step env srv now).2.Backed env (heard ++ t.contacts) src := by
  cases t with
  | dispatched f src' =>
    rcases dispatched_cases env srv now f src' with hEq | ⟨e, plaintext, _, hOpen, hEq⟩
    · rw [hEq]
      trivial
    · rw [hEq]
      exact ⟨hTask, hOpen⟩
  | opened f src' v plaintext =>
    obtain ⟨rfl, hOpen⟩ := hTask
    exact ⟨rfl, _, List.mem_append_right _ (List.mem_singleton_self _), hOpen, rfl, rfl, rfl⟩
  | committed sender src' v plan =>
    show Backed env (heard ++ []) src _
    rw [List.append_nil]
    obtain ⟨rfl, c, hc, hOpened, hView, hSrc, hPlan⟩ := hTask
    cases plan with
    | query qb =>
      have hAsked : Asked env heard v src' qb := ⟨c, hc, hOpened, hView, hSrc, hPlan⟩
      show (lookup env srv v qb : Task Ct).Backed env heard src'
      rcases lookup_cases env srv v qb with ⟨ip, hEq⟩ | ⟨name, hEq⟩
      · rw [hEq]
        exact hAsked
      · rw [hEq]
        exact hAsked
    | fail | refuse | bye => trivial
    | register | heartbeat | unsupported => exact showsHeard_of_ne fun _ _ _ _ _ _ hData => by cases hData
  | searching v qb name => exact Backed.mono (t := .searching v qb name) hTask (List.subset_append_left _ _)
  | resolved v qb ip =>
    show ShowsHeard env (heard ++ []) v _
    rw [List.append_nil]
    exact hRoutes.queryAnswer hTask ip
  | left v => exact showsHeard_of_ne fun _ _ _ _ _ _ hData => by cases hData
  | _ => trivial

/-- An answer that is sealed is the one the worker holds. -/
theorem seals_cases {random : Nonce} {y : SealedResponse} (h : y ∈ t.seals env random) :
    ∃ v answer, t = .answering v answer ∧ y.key = v.sk ∧
      (answer = .reply y.body ∨ ∃ msg, answer = .refused msg ∧ y.body = .err msg) := by
  cases t with
  | answering v answer =>
    refine ⟨v, answer, rfl, ?_⟩
    unfold seals sealAnswer at h
    dsimp only at h
    cases answer with
    | failed msg => cases h
    | refused msg =>
      dsimp only at h
      split at h
      · rename_i body payload hSeal
        split at hSeal
        · cases hSeal
        · cases hSeal
          rw [List.mem_singleton.mp h]
          exact ⟨rfl, .inr ⟨msg, rfl, rfl⟩⟩
      · cases h
    | reply body' =>
      dsimp only at h
      split at h
      · rename_i body payload hSeal
        split at hSeal
        · cases hSeal
        · cases hSeal
          rw [List.mem_singleton.mp h]
          exact ⟨rfl, .inl rfl⟩
      · cases h
  | _ => cases h

end Task

/-- Only the sections of the workers store routes. -/
theorem Workers.next_routes_all {P : RouteEntry → Prop} {env : SignalingEnv Ct} {n : Nat} {s : Workers Ct}
    {ev : WorkerEvent Ct} (h : s.srv.routes.All P)
    (hWork : ∀ w random, ev = .work w random → ((s.tasks w).step env s.srv s.clock).1.routes.All P) :
    (s.next env n ev).srv.routes.All P := by
  cases ev with
  | receive f src d =>
    unfold next
    dsimp only
    split
    · exact h
    · rename_i hHandshake
      show (s.srv.handleSignaling env f src d).1.routes.All P
      rcases (Signaling.handleSignaling_handshake env src d hHandshake).routes with hEq | ⟨_, _, hEq⟩
      · rw [hEq]
        exact h
      · rw [hEq]
        exact h.remove
  | relay srcKey src =>
    obtain ⟨tasks, hEq⟩ := next_relay_frame env n s srcKey src
    rw [hEq]
    exact h
  | work w random => exact hWork w random rfl
  | proceed c => exact (s.control c).step_all h
  | clean => exact s.cleaner.step_all h
  | delPeer key => exact h.remove
  | tick => exact h
  | revoke => exact h
  | administer => exact h

-- ---------------------------------------------------------------------------
-- Runs
-- ---------------------------------------------------------------------------

/-- The introduction names devices that were heard, in one room. -/
structure Introduction.Backed (env : SignalingEnv Ct) (heard : List (Contact Ct)) (i : Introduction) : Prop where
  querier : ∃ qb, Asked env heard i.querier i.src qb
  target : HeardAt env heard i.target.publicKey i.querier.room i.target.endpoint

/-- The NOTIFY goes to an endpoint of its target, and tells of the source of a
QUERY of the same room. -/
def Notice.Backed (env : SignalingEnv Ct) (heard : List (Contact Ct)) (t : Notice) : Prop :=
  ∃ v src qb endpoint, Asked env heard v src qb ∧
    t.body.peer.publicKey = keyB64 (keyBytes v.ikX) ∧ t.body.peer.endpoint = env.addrText src ∧
    HeardAt env heard t.target v.room endpoint ∧ endpointAddr endpoint = .ok t.addr

/-- A response is sealed for the session to which it shows what was heard. -/
def SealedResponse.Backed (env : SignalingEnv Ct) (heard : List (Contact Ct)) (y : SealedResponse) : Prop :=
  ∃ v, v.sk = y.key ∧ ShowsHeard env heard v y.body

section

variable {env : SignalingEnv Ct} {heard heard' : List (Contact Ct)}

theorem Introduction.Backed.mono {i : Introduction} (h : i.Backed env heard) (hMore : heard ⊆ heard') :
    i.Backed env heard' where
  querier := h.querier.imp fun _ hAsked => hAsked.mono hMore
  target := h.target.mono hMore

theorem Notice.Backed.mono {t : Notice} (h : t.Backed env heard) (hMore : heard ⊆ heard') :
    t.Backed env heard' := by
  obtain ⟨v, src, qb, endpoint, hAsked, hKey, hEndpoint, hHeard, hAddr⟩ := h
  exact ⟨v, src, qb, endpoint, hAsked.mono hMore, hKey, hEndpoint, hHeard.mono hMore, hAddr⟩

theorem SealedResponse.Backed.mono {y : SealedResponse} (h : y.Backed env heard) (hMore : heard ⊆ heard') :
    y.Backed env heard' := by
  obtain ⟨v, hKey, hShows⟩ := h
  exact ⟨v, hKey, hShows.mono hMore⟩

/-- What `notify_peer` sends. -/
theorem Introduction.Backed.notices {i : Introduction} (h : i.Backed env heard) (srv : Signaling) :
    ∀ t ∈ i.notices env srv, t.Backed env heard := by
  intro t ht
  unfold Introduction.notices at ht
  split at ht
  · cases ht
  · dsimp only at ht
    split at ht
    · rename_i bytes addr hEncode hAddr
      rw [List.mem_singleton.mp ht]
      obtain ⟨qb, hAsked⟩ := h.querier
      exact ⟨i.querier, i.src, qb, i.target.endpoint, hAsked, rfl, rfl, h.target, hAddr⟩
    · cases ht

end

namespace Introductions

variable {env : SignalingEnv Ct} {n : Nat} {s : Introductions Ct}

/-- The introduction of one worker is made. -/
theorem next_introduce {w : Nat} {i : Introduction} (hPending : s.pending w = some i) :
    s.next env n (.introduce w) =
      { s with
        pending := Function.update s.pending w none
        told := s.told ++ i.notices env s.server.srv } := by
  unfold next
  dsimp only
  rw [hPending]

/-- Whatever the server has, makes and has sent goes back to what was heard. -/
structure Authentic (env : SignalingEnv Ct) (s : Introductions Ct) : Prop where
  routes : RoutesHeard env s.heard s.server.srv.routes
  tasks : ∀ w, (s.server.tasks w).Backed env s.heard (s.source w)
  pending : ∀ w i, s.pending w = some i → i.Backed env s.heard
  told : ∀ t ∈ s.told, t.Backed env s.heard
  sent : ∀ y ∈ s.server.sent, y.Backed env s.heard
  /-- who is heard has authenticated in the room that its session says -/
  known : ∀ c ∈ s.heard, (c.view.ikX, c.view.room) ∈ s.authenticated
  attested : Attested s.authenticated s.server

/-- A worker has nothing in hand when it takes a datagram. -/
theorem Authentic.receive (h : Authentic env s) {f : SignalFrame Ct} {src : SourceAddr} {d : SignalDraw}
    (hIdle : s.server.tasks (shardIndex src n) = .idle) (w : Nat) :
    ((s.server.next env n (.receive f src d)).tasks w).Backed env s.heard
      (sources n s.source (.receive f src d) w) := by
  have hKept : (s.server.tasks w).Backed env s.heard (sources n s.source (.receive f src d) w) := by
    unfold sources
    dsimp only
    rw [Function.update_apply]
    split
    · rename_i hWorker
      rw [hWorker, hIdle]
      trivial
    · exact h.tasks w
  unfold Workers.next
  dsimp only
  split
  · rw [Workers.setTask_tasks]
    split
    · rename_i hWorker
      rw [hWorker]
      show src = Function.update s.source _ src _
      rw [Function.update_self]
    · exact hKept
  · exact hKept

/-- A section of a worker. -/
theorem Authentic.work (h : Authentic env s) (w : Nat) (random : Nonce) :
    Authentic env (s.next env n (.server (.work w random))) := by
  have hKeyed := RouteTable.keyed_reach h.attested.table
  have hMore : s.heard ⊆ s.heard ++ (s.server.tasks w).contacts := List.subset_append_left _ _
  refine ⟨?_, ?_, ?_, ?_, ?_, ?_, h.attested.next env n (.work w random)⟩
  · exact (Task.step_routesHeard (h.tasks w) h.routes hKeyed).mono hMore
  · intro v
    show (Function.update s.server.tasks w _ v).Backed env _ (s.source v)
    rw [Function.update_apply]
    split
    · rename_i hWorker
      rw [hWorker]
      exact Task.step_backed (h.tasks w) h.routes
    · exact (h.tasks v).mono hMore
  · intro v i hPending
    change Function.update s.pending w _ v = some i at hPending
    rw [Function.update_apply] at hPending
    split at hPending
    · refine Introduction.Backed.mono ?_ hMore
      have hTask := h.tasks w
      generalize s.server.tasks w = t at hTask hPending
      cases t with
      | resolved u qb ip =>
        obtain ⟨target, hTarget, rfl⟩ := Option.map_eq_some_iff.mp hPending
        exact ⟨⟨qb, hTask⟩, h.routes.queryTarget hTarget⟩
      | _ => cases hPending
    · exact (h.pending v i hPending).mono hMore
  · exact fun t ht => (h.told t ht).mono hMore
  · intro y hy
    change y ∈ s.server.sent ++ (s.server.tasks w).seals env random at hy
    rcases List.mem_append.mp hy with hOld | hNew
    · exact (h.sent y hOld).mono hMore
    · obtain ⟨v, answer, hTask, hKey, hAnswer⟩ := Task.seals_cases hNew
      refine SealedResponse.Backed.mono ⟨v, hKey.symm, ?_⟩ hMore
      rcases hAnswer with rfl | ⟨msg, rfl, hBody⟩
      · have hBacked := h.tasks w
        rw [hTask] at hBacked
        exact hBacked
      · rw [hBody]
        exact showsHeard_of_ne fun _ _ _ _ _ _ hData => by cases hData
  · intro c hc
    refine List.mem_append_left _ ?_
    rcases List.mem_append.mp hc with hOld | hNew
    · exact h.known c hOld
    · have hView : (s.server.tasks w).view = some c.view := by
        generalize s.server.tasks w = t at hNew ⊢
        cases t with
        | opened f src v plaintext =>
          rw [List.mem_singleton.mp hNew]
          rfl
        | _ => cases hNew
      exact h.attested.views w c.view hView

theorem Authentic.next (h : Authentic env s) {e : IntroductionEvent Ct} (hEnabled : enabled env n s e) :
    Authentic env (s.next env n e) := by
  cases e with
  | introduce w =>
    cases hPending : s.pending w with
    | none => exact absurd hPending hEnabled
    | some i =>
      rw [next_introduce hPending]
      refine ⟨h.routes, h.tasks, fun v i' hOther => ?_, fun t ht => ?_, h.sent, h.known, h.attested⟩
      · dsimp only at hOther
        rw [Function.update_apply] at hOther
        split at hOther
        · cases hOther
        · exact h.pending v i' hOther
      · rcases List.mem_append.mp ht with hOld | hNew
        · exact h.told t hOld
        · exact (h.pending w i hPending).notices s.server.srv t hNew
  | server ev =>
    have hAttested := h.attested.next env n ev
    have hKnown : ∀ c ∈ s.heard, (c.view.ikX, c.view.room) ∈ s.authenticated ++ Relays.admits env s.server ev :=
      fun c hc => List.mem_append_left _ (h.known c hc)
    have hRoutes : (∀ w random, ev ≠ .work w random) →
        RoutesHeard env s.heard (s.server.next env n ev).srv.routes := fun hEv =>
      Workers.next_routes_all h.routes fun w random hEq => absurd hEq (hEv w random)
    cases ev with
    | work w random => exact h.work w random
    | receive f src d =>
      have hSent : (s.server.next env n (.receive f src d)).sent = s.server.sent := by
        obtain ⟨srv, tasks, keys, hEq⟩ := Workers.next_receive_frame env n s.server f src d
        rw [hEq]
      refine ⟨hRoutes nofun, h.receive hEnabled.1, h.pending, h.told, fun y hy => ?_, hKnown, hAttested⟩
      change y ∈ (s.server.next env n (.receive f src d)).sent at hy
      rw [hSent] at hy
      exact h.sent y hy
    | relay srcKey src =>
      have hRelay : ∀ w, ((s.server.next env n (.relay srcKey src)).tasks w).Backed env s.heard
          (s.source w) := by
        intro w
        unfold Workers.next
        dsimp only
        split
        · rw [Workers.setTask_tasks]
          split
          · trivial
          · exact h.tasks w
        · exact h.tasks w
      obtain ⟨tasks, hEq⟩ := Workers.next_relay_frame env n s.server srcKey src
      refine ⟨hRoutes nofun, hRelay, h.pending, h.told, fun y hy => ?_, hKnown, hAttested⟩
      change y ∈ (s.server.next env n (.relay srcKey src)).sent at hy
      rw [hEq] at hy
      exact h.sent y hy
    | tick | revoke | proceed | clean | delPeer | administer =>
      exact ⟨hRoutes nofun, h.tasks, h.pending, h.told, h.sent, hKnown, hAttested⟩

theorem authentic_reach (h : (machine env n).Reach (fun _ _ => True) s) : Authentic env s := by
  refine h.invariant (I := Authentic env) ?_ fun s e hInv hEnabled _ => hInv.next hEnabled
  rintro _ ⟨_, source, ⟨clock, mesh, rooms, aliases, rfl⟩, rfl⟩
  have hAttested : Attested [] (.start clock mesh rooms aliases : Workers Ct) := .start clock mesh rooms aliases
  refine ⟨fun k e hEntry => ?_, fun _ => trivial, nofun, nofun, nofun, nofun, hAttested⟩
  rw [Workers.start, Signaling.start, ExtTreeMap.getElem?_empty] at hEntry
  cases hEntry

/-- The introductions only delay the answers of the workers. -/
theorem server_reach (h : (machine env n).Reach (fun _ _ => True) s) :
    (Workers.machine env n).Reach (fun _ _ => True) s.server := by
  refine h.simulate Introductions.server ?_ ?_
  · rintro _ ⟨server, source, hInit, rfl⟩
    exact hInit
  · intro s e _ hEnabled _
    cases e with
    | introduce w =>
      refine .inl ?_
      show (s.next env n (.introduce w)).server = _
      cases hPending : s.pending w with
      | none =>
        unfold next
        dsimp only
        rw [hPending]
      | some i => rw [next_introduce hPending]
    | server ev =>
      refine .inr ⟨ev, ?_, trivial, rfl⟩
      cases ev with
      | work w random => exact hEnabled.1
      | _ => exact hEnabled

theorem reach_introduced {w : Nat} (h : (machine env n).Reach (fun _ _ => True) s)
    (hOthers : ∀ v, v ≠ w → s.pending v = none) :
    ∃ s', (machine env n).Reach (fun _ _ => True) s' ∧ s'.server = s.server ∧ ∀ v, s'.pending v = none := by
  cases hOwn : s.pending w with
  | none =>
    refine ⟨s, h, rfl, fun v => ?_⟩
    by_cases hWorker : v = w
    · rw [hWorker]
      exact hOwn
    · exact hOthers v hWorker
  | some i =>
    have hEnabled : enabled env n s (.introduce w) := fun hEq => by cases hOwn.symm.trans hEq
    have hStep : (machine env n).Reach (fun _ _ => True) (s.next env n (.introduce w)) :=
      .step (M := machine env n) (e := .introduce w) h hEnabled trivial
    refine ⟨_, hStep, ?_, fun v => ?_⟩
    · rw [next_introduce hOwn]
    · rw [next_introduce hOwn]
      dsimp only
      rw [Function.update_apply]
      split
      · rfl
      · rename_i hOther
        exact hOthers v hOther

/-- Introductions that are made at once hold nothing up. -/
theorem reach_of_workers {server : Workers Ct} (h : (Workers.machine env n).Reach (fun _ _ => True) server) :
    ∃ s, (machine env n).Reach (fun _ _ => True) s ∧ s.server = server ∧ ∀ w, s.pending w = none := by
  induction h with
  | init hInit => exact ⟨_, .init ⟨_, fun _ => sampleSrc, hInit, rfl⟩, rfl, fun _ => rfl⟩
  | @step server ev _ hEnabled _ ih =>
    obtain ⟨s, hs, rfl, hNone⟩ := ih
    have hReach : enabled env n s (.server ev) →
        (machine env n).Reach (fun _ _ => True) (s.next env n (.server ev)) := fun hEnabled' =>
      .step hs hEnabled' trivial
    cases ev with
    | work w random =>
      refine reach_introduced (w := w) (hReach ⟨hEnabled, hNone w⟩) fun v hOther => ?_
      show Function.update s.pending w _ v = none
      rw [Function.update_of_ne hOther]
      exact hNone v
    | tick | receive | relay | revoke | proceed | clean | delPeer | administer =>
      exact ⟨_, hReach hEnabled, rfl, hNone⟩

/-- **Introductions are authentic.** In every run of the server, with any
interleaving of its workers, every route, every NOTIFY and every answer to a QUERY
tells an endpoint at which the server has heard the device in the device's own
session; a NOTIFY goes to such an endpoint of its target. Both devices of an
introduction have authenticated in one room, and the querier has asked. -/
theorem introductions_authentic (h : (machine env n).Reach (fun _ _ => True) s) :
    RoutesHeard env s.heard s.server.srv.routes ∧ (∀ t ∈ s.told, t.Backed env s.heard) ∧
      (∀ y ∈ s.server.sent, y.Backed env s.heard) ∧
      ∀ c ∈ s.heard, (c.view.ikX, c.view.room) ∈ s.authenticated := by
  have hAuthentic := authentic_reach h
  exact ⟨hAuthentic.routes, hAuthentic.told, hAuthentic.sent, hAuthentic.known⟩

/-- Device 2 has registered in its room. -/
theorem introductions_authentic_sample :
    ∃ s : Introductions (RawKey × Nonce × Bytes), s.server = Relays.exampleLabRoute ∧
      HeardAt sampleServerEnv s.heard 2 "lab" Relays.exampleLabEndpoint.endpoint := by
  obtain ⟨s, hs, hServer, _⟩ := reach_of_workers
    (Relays.reach_exampleLabRoute.mono fun _ _ _ => trivial)
  have hRoute : s.server.srv.routes.get 2 = some Relays.exampleLabEndpoint := by
    rw [hServer, Relays.exampleLabRoute_routes, Relays.exampleTable_get]
    rfl
  exact ⟨s, hServer, (introductions_authentic hs).1 2 Relays.exampleLabEndpoint hRoute⟩

end Introductions

end LinkMesh
