import LinkMesh.Server.Auth
import LinkMesh.Basis.IpAddr
import LinkMesh.Basis.Machine

/-!
# The revocation list version of a server

`Conn::new`, `ensure_server_pubkey` and `auth_handshake` of
`linkmesh-client/src/connection.rs`, and the life of connections under the
`ConnManager`. A connection is made from `client.json`, runs one handshake,
and ends; the version it accepts is kept in its own copy of the server's
entry, and no part of the daemon writes `client.json`.

## Results

* `handshake_accepts`     — a handshake accepts a version iff every check
  before it passes, the comparison with the version of `client.json` included.
* `accepted_ascends_iff` — the accepted versions of a run never decrease iff
  no connection is shown a version between the one in `client.json` and the
  last accepted one.
-/

namespace LinkMesh

variable {Ct : Type}

-- ---------------------------------------------------------------------------
-- A connection
-- ---------------------------------------------------------------------------

/-- `ServerEntry`, as far as a handshake reads it. -/
structure ServerEntry where
  name : String
  publicKey : Option String
  /-- pinned by `--join` -/
  meshRootPub : Option String
  deviceCert : Option DeviceCert
  /-- "only newer versions are accepted, against rollback" -/
  crlVersion : Option Nat
  deriving DecidableEq, Repr

/-- The parts of `client.json` that one connection is made from. -/
structure ClientConfig where
  server : ServerEntry
  vmnicName : String
  vmnicIp : String
  privateKey : RawKey
  deriving DecidableEq, Repr

/-- `Conn` up to its registration. -/
structure Conn where
  server : ServerEntry
  vmnicName : String
  localPriv : RawKey
  localIp : String
  serverPub : RawKey := 0
  sessionSk : Option RawKey := none
  sessionPub : Option RawKey := none
  deriving DecidableEq, Repr

/-- What a handshake takes from the crates it calls. -/
structure ConnEnv (Ct : Type) where
  crypto : SignalingCrypto Ct
  signatures : Signatures
  /-- `{:?}` -/
  debugText : String → String

/-- What a handshake reads from outside: the key the server presents, the
clock, its random draws, and what the wait for AUTH_RESP ends in. -/
structure Handshake where
  presented : Except String RawKey
  now : Nat
  ekCPriv : RawKey
  nonce : Bytes
  answer : Except String AuthRespBody

/-- `derive_session_key_client` -/
def SignalingCrypto.deriveSessionKeyClient (C : SignalingCrypto Ct)
    (ekCPriv ikXCPriv ikSPub ekSPub : RawKey) (salt : Bytes) : RawKey :=
  C.hkdfSession salt
    (C.sharedSecret ekCPriv ikSPub, C.sharedSecret ikXCPriv ekSPub, C.sharedSecret ekCPriv ekSPub)

namespace Conn

/-- `Conn::new` -/
def new (cfg : ClientConfig) : Conn :=
  { server := cfg.server
    vmnicName := cfg.vmnicName
    localPriv := cfg.privateKey
    localIp := cfg.vmnicIp }

/-- `if c { return Err(msg) }` -/
def failIf (c : Bool) (msg : String) : Except String Unit := if c then .error msg else .ok ()

/-- `ensure_server_pubkey`: the saved key is the one presented, and the device
has joined; it gives the server's key. -/
def ensureServerPubkey (c : Conn) (x : Handshake) : Except String RawKey := do
  let received ← x.presented
  let some stored := c.server.publicKey
    | .error s!"服务器 {c.server.name} 的公钥尚未保存。请先执行 linkmesh-client --join \"{c.server.name}\" \"{c.vmnicName}\" --code LMJ-... 加入网格"
  let storedRaw ← parsePublicKey stored
  failIf (received ≠ storedRaw)
    s!"服务器 {c.server.name} 的公钥与本地已保存的公钥不一致（服务器可能已更换密钥，或存在中间人攻击）。请核实后更新 client.json 中该服务器的 public_key，或重新 --join 完成信任确认"
  failIf c.server.meshRootPub.isNone
    s!"服务器 {c.server.name} 未加入网格。请先执行 linkmesh-client --join \"{c.server.name}\" \"{c.vmnicName}\" --code LMJ-... 加入网格"
  let some cert := c.server.deviceCert
    | .error s!"服务器 {c.server.name} 启用了网格认证但本机尚未加入。请先执行 linkmesh-client --join \"{c.server.name}\" \"{c.vmnicName}\" --code LMJ-..."
  failIf (x.now < cert.validFrom ∨ cert.notAfter < x.now) "设备证书已过期，请重新 --join"
  .ok received

/-- The version only advances. -/
def versionCheck (stored : Option Nat) (v : Nat) : Except String Unit :=
  match stored with
  | some prev => failIf (v < prev) s!"服务器 CRL 版本回退（{prev} -> {v}），拒绝连接"
  | none => .ok ()

/-- The checks of the ServerInfo against the pinned root, and the version check;
the entry keeps the version it accepts. -/
def acceptServerInfo (S : Signatures) (server : ServerEntry) (meshRootB64 : String)
    (si : ServerInfo) : Except String ServerEntry := do
  let rootPub ← parseSigPublic meshRootB64
  (si.verify S rootPub).mapError ("AUTH_RESP ServerInfo 签名校验失败: " ++ ·)
  failIf (si.meshRootPub ≠ meshRootB64)
    "服务器出示的网格根与本地固定根不一致（可能已更换网格或遭中间人）"
  versionCheck server.crlVersion si.crlVersion
  .ok { server with crlVersion := some si.crlVersion }

/-- The session key, and the address that AUTH_RESP assigns. -/
def openSession (env : ConnEnv Ct) (c : Conn) (x : Handshake) (resp : AuthRespBody) :
    Except String Conn := do
  let ekS ← parsePublicKey resp.ekS
  failIf (resp.allocatedIp = "")
    "服务端未分配虚拟 IP（请确认已 --join 加入网格并持有设备证书）"
  failIf (IpAddr.parse resp.allocatedIp).isNone
    s!"服务端分配的虚拟 IP {env.debugText resp.allocatedIp} 非法"
  .ok
    { c with
      sessionSk := some
        (env.crypto.deriveSessionKeyClient x.ekCPriv c.localPriv c.serverPub ekS x.nonce)
      sessionPub := some (env.crypto.publicKey x.ekCPriv)
      localIp := resp.allocatedIp }

/-- This device is on the list of the answer. -/
def revokedBy (c : Conn) (crl : Crl) : Bool :=
  c.server.deviceCert.any fun cert => crl.isRevoked cert.deviceId

/-- `auth_handshake` from the arrival of its answer: the version it accepts, if
it comes to that, and the connection or the error it ends in. -/
def authHandshake (env : ConnEnv Ct) (c : Conn) (x : Handshake) :
    Option Nat × Except String Conn :=
  if c.server.deviceCert = none then (none, .error "未加入网格，缺少设备证书")
  else
    match x.answer with
    | .error e => (none, .error e)
    | .ok resp =>
      match openSession env c x resp with
      | .error e => (none, .error e)
      | .ok c =>
        match c.server.meshRootPub with
        | none => (none, .ok c)
        | some meshRootB64 =>
          match acceptServerInfo env.signatures c.server meshRootB64 resp.serverInfo with
          | .error e => (none, .error e)
          | .ok server =>
            let c := { c with server := server }
            -- refused all the same when the device is revoked
            if c.revokedBy resp.crl then
              (server.crlVersion, .error "本设备已被吊销，无法连接（请联系管理员重新签发）")
            else (server.crlVersion, .ok c)

/-- `run` up to its registration. -/
def handshake (env : ConnEnv Ct) (c : Conn) (x : Handshake) : Option Nat × Except String Conn :=
  match c.ensureServerPubkey x with
  | .error e => (none, .error e)
  | .ok received => authHandshake env { c with serverPub := received } x

-- ---------------------------------------------------------------------------
-- What a handshake accepts
-- ---------------------------------------------------------------------------

/-- The connection is shown this ServerInfo, and everything that is checked
before its version is in order. -/
structure Shown (env : ConnEnv Ct) (c : Conn) (x : Handshake) (si : ServerInfo) : Prop where
  serverKey : ∃ key, c.ensureServerPubkey x = .ok key
  answer : ∃ resp ekS, x.answer = .ok resp ∧ resp.serverInfo = si ∧
    parsePublicKey resp.ekS = .ok ekS ∧ resp.allocatedIp ≠ "" ∧ (IpAddr.parse resp.allocatedIp).isSome
  root : ∃ meshRootB64 rootPub, c.server.meshRootPub = some meshRootB64 ∧
    parseSigPublic meshRootB64 = .ok rootPub ∧ si.verify env.signatures rootPub = .ok () ∧
    si.meshRootPub = meshRootB64

/-- The version is not below the one that the connection was made with. -/
def NotBelow (stored : Option Nat) (v : Nat) : Prop := ∀ prev, stored = some prev → prev ≤ v

variable {env : ConnEnv Ct} {c : Conn} {x : Handshake} {v : Nat}

theorem failIf_eq_ok {b : Bool} {msg : String} {u : Unit} : failIf b msg = .ok u ↔ b = false := by
  cases b <;> simp [failIf]

theorem versionCheck_eq_ok {stored : Option Nat} {u : Unit} :
    versionCheck stored v = .ok u ↔ NotBelow stored v := by
  unfold versionCheck NotBelow
  split
  · rw [failIf_eq_ok]
    simp
  · simp

theorem acceptServerInfo_eq_ok {S : Signatures} {server server' : ServerEntry} {rootB64 : String}
    {si : ServerInfo} :
    acceptServerInfo S server rootB64 si = .ok server' ↔
      (∃ rootPub, parseSigPublic rootB64 = .ok rootPub ∧ si.verify S rootPub = .ok ()) ∧
        si.meshRootPub = rootB64 ∧ NotBelow server.crlVersion si.crlVersion ∧
        server' = { server with crlVersion := some si.crlVersion } := by
  have hSigned : ∀ rootPub u, (si.verify S rootPub).mapError
      ("AUTH_RESP ServerInfo 签名校验失败: " ++ ·) = .ok u ↔ si.verify S rootPub = .ok () := by
    intro rootPub u
    cases si.verify S rootPub <;> simp [Except.mapError]
  unfold acceptServerInfo
  simp only [bind_eq_ok, failIf_eq_ok, versionCheck_eq_ok, hSigned]
  constructor
  · rintro ⟨rootPub, hRoot, _, hSign, _, hMesh, _, hOrder, hEq⟩
    exact ⟨⟨rootPub, hRoot, hSign⟩, by simpa using hMesh, hOrder, (Except.ok.inj hEq).symm⟩
  · rintro ⟨⟨rootPub, hRoot, hSign⟩, hMesh, hOrder, rfl⟩
    exact ⟨rootPub, hRoot, (), hSign, (), by simpa using hMesh, (), hOrder, rfl⟩

theorem openSession_eq_ok {resp : AuthRespBody} :
    (∃ c', openSession env c x resp = .ok c') ↔
      ∃ ekS, parsePublicKey resp.ekS = .ok ekS ∧ resp.allocatedIp ≠ "" ∧
        (IpAddr.parse resp.allocatedIp).isSome := by
  unfold openSession
  simp only [bind_eq_ok, failIf_eq_ok]
  constructor
  · rintro ⟨c', ekS, hKey, _, hEmpty, _, hIp, _⟩
    exact ⟨ekS, hKey, by simpa using hEmpty, by simpa using hIp⟩
  · rintro ⟨ekS, hKey, hEmpty, hIp⟩
    exact ⟨_, ekS, hKey, (), by simpa using hEmpty, (), by simpa using hIp, rfl⟩

/-- The session leaves the entry of the server as it is. -/
theorem openSession_server {resp : AuthRespBody} {c' : Conn}
    (h : openSession env c x resp = .ok c') : c'.server = c.server := by
  unfold openSession at h
  simp only [bind_eq_ok] at h
  obtain ⟨ekS, _, _, _, _, _, hEq⟩ := h
  cases hEq
  rfl

theorem ensureServerPubkey_joined {key : RawKey} (h : c.ensureServerPubkey x = .ok key) :
    c.server.deviceCert ≠ none := by
  unfold ensureServerPubkey at h
  obtain ⟨received, _, h⟩ := bind_eq_ok.mp h
  split at h
  · obtain ⟨_, _, h⟩ := bind_eq_ok.mp h
    obtain ⟨_, _, h⟩ := bind_eq_ok.mp h
    obtain ⟨_, _, h⟩ := bind_eq_ok.mp h
    split at h
    · rename_i cert hCert
      rw [hCert]
      exact Option.some_ne_none cert
    · cases h
  · cases h

theorem authHandshake_accepts (hCert : c.server.deviceCert ≠ none) :
    (authHandshake env c x).1 = some v ↔
      ∃ si, (∃ resp ekS, x.answer = .ok resp ∧ resp.serverInfo = si ∧
          parsePublicKey resp.ekS = .ok ekS ∧ resp.allocatedIp ≠ "" ∧
          (IpAddr.parse resp.allocatedIp).isSome) ∧
        (∃ rootB64 rootPub, c.server.meshRootPub = some rootB64 ∧
          parseSigPublic rootB64 = .ok rootPub ∧ si.verify env.signatures rootPub = .ok () ∧
          si.meshRootPub = rootB64) ∧
        NotBelow c.server.crlVersion si.crlVersion ∧ si.crlVersion = v := by
  unfold authHandshake
  rw [if_neg hCert]
  constructor
  · intro h
    split at h
    · cases h
    · rename_i resp hAnswer
      split at h
      · cases h
      · rename_i c' hSession
        obtain ⟨ekS, hKey, hEmpty, hIp⟩ := openSession_eq_ok.mp ⟨c', hSession⟩
        rw [openSession_server hSession] at h
        split at h
        · cases h
        · rename_i rootB64 hRoot
          split at h
          · cases h
          · rename_i server hAccept
            obtain ⟨⟨rootPub, hPub, hSign⟩, hMesh, hOrder, rfl⟩ := acceptServerInfo_eq_ok.mp hAccept
            refine ⟨resp.serverInfo, ⟨resp, ekS, hAnswer, rfl, hKey, hEmpty, hIp⟩,
              ⟨rootB64, rootPub, hRoot, hPub, hSign, hMesh⟩, hOrder, ?_⟩
            -- accepted also when the device turns out to be revoked
            dsimp only at h
            split at h
            · exact Option.some.inj h
            · exact Option.some.inj h
  · rintro ⟨si, ⟨resp, ekS, hAnswer, rfl, hKey, hEmpty, hIp⟩,
      ⟨rootB64, rootPub, hRoot, hPub, hSign, hMesh⟩, hOrder, rfl⟩
    obtain ⟨c', hSession⟩ : ∃ c', openSession env c x resp = .ok c' :=
      openSession_eq_ok.mpr ⟨ekS, hKey, hEmpty, hIp⟩
    have hServer : c'.server = c.server := openSession_server hSession
    have hAccept : acceptServerInfo env.signatures c'.server rootB64 resp.serverInfo =
        .ok { c'.server with crlVersion := some resp.serverInfo.crlVersion } :=
      acceptServerInfo_eq_ok.mpr ⟨⟨rootPub, hPub, hSign⟩, hMesh, by rw [hServer]; exact hOrder, rfl⟩
    rw [← hServer] at hRoot
    simp only [hAnswer, hSession, hRoot, hAccept]
    split
    · rfl
    · rfl

/-- A handshake accepts the version of the ServerInfo it is shown iff that is not
below the one the connection was made with. -/
theorem handshake_accepts :
    (c.handshake env x).1 = some v ↔
      ∃ si, Shown env c x si ∧ NotBelow c.server.crlVersion si.crlVersion ∧ si.crlVersion = v := by
  unfold handshake
  split
  · rename_i hKey
    constructor
    · intro h
      cases h
    · rintro ⟨si, hShown, _⟩
      obtain ⟨key, hOk⟩ := hShown.serverKey
      rw [hKey] at hOk
      cases hOk
  · rename_i received hKey
    have hCert : { c with serverPub := received }.server.deviceCert ≠ none :=
      ensureServerPubkey_joined hKey
    rw [authHandshake_accepts hCert]
    constructor
    · rintro ⟨si, hAnswer, hRoot, hOrder, hEq⟩
      exact ⟨si, ⟨⟨received, hKey⟩, hAnswer, hRoot⟩, hOrder, hEq⟩
    · rintro ⟨si, hShown, hOrder, hEq⟩
      exact ⟨si, hShown.answer, hShown.root, hOrder, hEq⟩

end Conn

-- ---------------------------------------------------------------------------
-- The connections of a daemon
-- ---------------------------------------------------------------------------

/-- A connection is made and runs; it is gone when it has ended. -/
inductive ConnTask where
  | made (c : Conn)
  | running (c : Conn)
  deriving DecidableEq, Repr

/-- The connections to one server, and what `client.json` has about it. -/
structure Connections where
  config : ClientConfig
  conns : Nat → Option ConnTask
  /-- the versions accepted so far, the last one first -/
  accepted : List Nat

inductive ConnEvent where
  /-- `start`, `start_all` or `recreate_conn`: `client.json` is read -/
  | make (i : Nat)
  | handshake (i : Nat) (x : Handshake)
  /-- a disconnect, or a failure after the handshake -/
  | finish (i : Nat)
  /-- the process ends and another one begins -/
  | restart

namespace Connections

/-- No connection yet; the version of `client.json` is the one `--join` accepted. -/
def initial (config : ClientConfig) : Connections :=
  { config := config
    conns := fun _ => none
    accepted := config.server.crlVersion.toList }

def setTask (s : Connections) (i : Nat) (task : Option ConnTask) : Connections :=
  { s with conns := Function.update s.conns i task }

variable (env : ConnEnv Ct)

def next (s : Connections) : ConnEvent → Connections
  | .make i => s.setTask i (some (.made (Conn.new s.config)))
  | .handshake i x =>
    match s.conns i with
    | some (.made c) =>
      let (version, result) := c.handshake env x
      let s := s.setTask i (result.toOption.map .running)
      { s with accepted := version.toList ++ s.accepted }
    | _ => s
  | .finish i => s.setTask i none
  | .restart => { s with conns := fun _ => none }

def machine : Machine Connections ConnEvent where
  init s := ∃ config, s = initial config
  enabled s e :=
    match e with
    | .make i => s.conns i = none
    | .handshake i _ => ∃ c, s.conns i = some (.made c)
    | .finish i => s.conns i ≠ none
    | .restart => True
  next := next env

/-- No accepted version is below an earlier one. -/
def Ascends (s : Connections) : Prop := s.accepted.Pairwise fun later earlier => earlier ≤ later

/-- What is shown to a connection made from `client.json` is below the version
there, or not below the last accepted one. -/
def NoOlder (s : Connections) : ConnEvent → Prop
  | .handshake i x =>
    s.conns i = some (.made (Conn.new s.config)) →
      ∀ si, Conn.Shown env (Conn.new s.config) x si →
        Conn.NotBelow s.config.server.crlVersion si.crlVersion →
        Conn.NotBelow s.accepted.head? si.crlVersion
  | _ => True

/-- A connection that has not run is as `client.json` makes it. -/
def FromConfig (s : Connections) : Prop :=
  ∀ i c, s.conns i = some (.made c) → c = Conn.new s.config

variable {env} {s : Connections} {e : ConnEvent}

theorem fromConfig_setTask {i : Nat} {task : Option ConnTask} (h : FromConfig s)
    (hTask : ∀ c, task = some (.made c) → c = Conn.new s.config) : FromConfig (s.setTask i task) := by
  intro j c hConn
  by_cases hj : j = i
  · subst hj
    have hSelf : (s.setTask j task).conns j = task := Function.update_self ..
    rw [hSelf] at hConn
    exact hTask c hConn
  · have hOther : (s.setTask i task).conns j = s.conns j := Function.update_of_ne hj ..
    rw [hOther] at hConn
    exact h j c hConn

theorem fromConfig_next (h : FromConfig s) : FromConfig (next env s e) := by
  unfold next
  split
  · exact fromConfig_setTask h fun c hEq => (ConnTask.made.inj (Option.some.inj hEq)).symm
  · split
    · refine fromConfig_setTask h ?_
      intro c hEq
      obtain ⟨_, _, hMade⟩ := Option.map_eq_some_iff.mp hEq
      cases hMade
    · exact h
  · exact fromConfig_setTask h fun c hEq => by simp at hEq
  · intro i c hConn
    cases hConn

/-- A version is added to the ascending ones iff it is not below the last. -/
theorem ascends_cons {v : Nat} {vs : List Nat} (h : vs.Pairwise fun later earlier => earlier ≤ later) :
    (v :: vs).Pairwise (fun later earlier => earlier ≤ later) ↔ Conn.NotBelow vs.head? v := by
  rw [List.pairwise_cons, and_iff_left h]
  unfold Conn.NotBelow
  constructor
  · intro hAll last hLast
    exact hAll last (List.mem_of_head? hLast)
  · intro hLast w hMem
    match vs, h with
    | last :: vs, h =>
      have hTop : last ≤ v := hLast last rfl
      rcases List.mem_cons.mp hMem with rfl | hEarlier
      · exact hTop
      · exact ((List.pairwise_cons.mp h).1 w hEarlier).trans hTop

theorem ascends_next (hConfig : FromConfig s) (h : Ascends s) :
    Ascends (next env s e) ↔ NoOlder env s e := by
  match e with
  | .make i => exact iff_of_true h trivial
  | .finish i => exact iff_of_true h trivial
  | .restart => exact iff_of_true h trivial
  | .handshake i x =>
    unfold next NoOlder
    dsimp only
    split
    · rename_i c hConn
      obtain rfl := hConfig i c hConn
      show List.Pairwise _ (_ ++ s.accepted) ↔ _
      constructor
      · intro hAfter _ si hShown hOrder
        rw [Conn.handshake_accepts.mpr ⟨si, hShown, hOrder, rfl⟩] at hAfter
        exact (ascends_cons h).mp hAfter
      · intro hNone
        match hVersion : ((Conn.new s.config).handshake env x).1 with
        | none => exact h
        | some v =>
          obtain ⟨si, hShown, hOrder, rfl⟩ := Conn.handshake_accepts.mp hVersion
          exact (ascends_cons h).mpr (hNone hConn si hShown hOrder)
    · rename_i hOther
      exact iff_of_true h fun hConn => absurd hConn (hOther _)

/-- The accepted versions of a run never decrease iff no connection made from
`client.json` is shown a ServerInfo from between the version there and the last
accepted one. -/
theorem accepted_ascends_iff (env : ConnEnv Ct) (config : ClientConfig) (es : List ConnEvent) :
    (∀ pre, pre <+: es → Ascends ((machine env).run (initial config) pre)) ↔
      ∀ pre e, pre ++ [e] <+: es → NoOlder env ((machine env).run (initial config) pre) e := by
  refine Machine.along_run_iff_inv (I := FromConfig) ?_ ?_ (fun _ _ => fromConfig_next)
    (fun _ _ => ascends_next) es
  · intro i c hConn
    cases hConn
  · show List.Pairwise _ config.server.crlVersion.toList
    match config.server.crlVersion with
    | none => exact List.Pairwise.nil
    | some v => exact List.pairwise_singleton ..

-- ---------------------------------------------------------------------------
-- A restart between two handshakes
-- ---------------------------------------------------------------------------

theorem next_make_conns {i : Nat} :
    (next env s (.make i)).conns i = some (.made (Conn.new s.config)) :=
  Function.update_self ..

/-- A connection that is made and shown a ServerInfo adds what it accepts. -/
theorem accepted_make_handshake {i : Nat} {x : Handshake} :
    ((machine env).run s [.make i, .handshake i x]).accepted =
      ((Conn.new s.config).handshake env x).1.toList ++ s.accepted := by
  have hMade : (next env s (.make i)).conns i = some (.made (Conn.new s.config)) := next_make_conns
  show (next env (next env s (.make i)) (.handshake i x)).accepted = _
  generalize hNext : next env s (.make i) = t at hMade ⊢
  have hAccepted : t.accepted = s.accepted := by
    rw [← hNext]
    rfl
  unfold next
  dsimp only
  rw [hMade, ← hAccepted]
  rfl

@[simp] theorem config_next : (next env s e).config = s.config := by
  unfold next
  split
  · rfl
  · split
    · rfl
    · rfl
  · rfl
  · rfl

/-- No part of the daemon writes `client.json`. -/
theorem config_run {es : List ConnEvent} : ((machine env).run s es).config = s.config :=
  Machine.run_invariant (I := fun t : Connections => t.config = s.config)
    (fun _ _ hSame => config_next.trans hSame) rfl es

/-- What the first connection accepted is lost with the process. -/
theorem not_ascends_of_restart {config : ClientConfig} {x y : Handshake} {v w : Nat}
    (hFirst : ((Conn.new config).handshake env x).1 = some v)
    (hSecond : ((Conn.new config).handshake env y).1 = some w) (hOlder : w < v) :
    ¬ Ascends ((machine env).run (initial config)
      [.make 0, .handshake 0 x, .restart, .make 0, .handshake 0 y]) := by
  have hBefore : ((machine env).run (initial config) [.make 0, .handshake 0 x, .restart]).accepted =
      v :: config.server.crlVersion.toList := by
    have hEq : ((machine env).run (initial config) [.make 0, .handshake 0 x]).accepted =
        ((Conn.new config).handshake env x).1.toList ++ (initial config).accepted := accepted_make_handshake
    rw [hFirst] at hEq
    exact hEq
  have hConfig : ((machine env).run (initial config) [.make 0, .handshake 0 x, .restart]).config =
      config := config_run
  intro h
  generalize hRestarted : (machine env).run (initial config) [.make 0, .handshake 0 x, .restart] = t
    at hBefore hConfig
  have hAfter : ((machine env).run t [.make 0, .handshake 0 y]).accepted =
      ((Conn.new t.config).handshake env y).1.toList ++ t.accepted := accepted_make_handshake
  rw [hConfig, hSecond, hBefore] at hAfter
  have hSorted : (w :: v :: config.server.crlVersion.toList).Pairwise
      fun later earlier => earlier ≤ later := by
    rw [← show _ = w :: v :: config.server.crlVersion.toList from hAfter, ← hRestarted]
    exact h
  have : v ≤ w := (List.pairwise_cons.mp hSorted).1 v (List.mem_cons_self ..)
  omega

end Connections

def exampleInfo (v : Nat) : ServerInfo :=
  { meshId := "mesh"
    serverName := "server"
    meshRootPub := sampleKeyText 1
    serverIkX := sampleKeyText 7
    serverIkSPub := sampleKeyText 7
    protocolVer := 2
    crlVersion := v
    authRequired := true
    signature := none }

/-- The root has signed the versions 3 and 5. -/
def exampleConnEnv : ConnEnv (RawKey × Nonce × Bytes) where
  crypto := sampleCrypto
  signatures := sampleSignatures [(exampleInfo 3).canonicalBytes, (exampleInfo 5).canonicalBytes]
  debugText s := s

/-- Device 2 has joined at version 1. -/
def exampleConfig : ClientConfig :=
  { server :=
      { name := "server"
        publicKey := some (sampleKeyText 7)
        meshRootPub := some (sampleKeyText 1)
        deviceCert := some (sampleCert 2)
        crlVersion := some 1 }
    vmnicName := "lm0"
    vmnicIp := "10.13.13.2"
    privateKey := 2 }

def exampleHandshake (v : Nat) : Handshake :=
  { presented := .ok 7
    now := 0
    ekCPriv := 50
    nonce := Layout.beBytes 12 1
    answer := .ok
      { ekS := sampleKeyText 11
        sessionId := ""
        crl := { meshId := "mesh", version := v, entries := [], signature := none }
        serverInfo := (exampleInfo v).sign exampleConnEnv.signatures (keyBytes 1)
        allocatedIp := "10.13.13.2" } }

theorem exampleHandshake_accepts {v : Nat} (hSigned : v = 3 ∨ v = 5) :
    ((Conn.new exampleConfig).handshake exampleConnEnv (exampleHandshake v)).1 = some v := by
  have hIssued : [(exampleInfo 3).canonicalBytes, (exampleInfo 5).canonicalBytes].contains
      (exampleInfo v).canonicalBytes = true := by
    rw [List.contains_iff_mem]
    rcases hSigned with rfl | rfl
    · exact List.mem_cons_self ..
    · exact List.mem_cons_of_mem _ (List.mem_cons_self ..)
  have hKey : ∀ k < 256 ^ 32, parsePublicKey (sampleKeyText k) = .ok k :=
    fun k hk => parsePublicKey_keyB64 hk
  refine Conn.handshake_accepts.mpr ⟨(exampleInfo v).sign exampleConnEnv.signatures (keyBytes 1),
    ⟨⟨7, ?_⟩, ?_, ?_⟩, ?_, rfl⟩
  · show (do
      let storedRaw ← parsePublicKey (sampleKeyText 7)
      _) = _
    rw [hKey 7 (by decide)]
    rfl
  · have hIp : "10.13.13.2" ≠ "" ∧ (IpAddr.parse "10.13.13.2").isSome := by decide
    exact ⟨_, 11, rfl, rfl, hKey 11 (by decide), hIp⟩
  · have hVerify : ((exampleInfo v).sign exampleConnEnv.signatures (keyBytes 1)).verify
        exampleConnEnv.signatures (keyBytes 1) = .ok () := by
      apply ServerInfo.verify_sign
      · simp only [exampleConnEnv, sampleSignatures, List.length_replicate]
      · simp only [exampleConnEnv, sampleSignatures, hIssued]
    exact ⟨sampleKeyText 1, keyBytes 1, rfl, parseSigPublic_keyB64 (keyBytes_length 1), hVerify, rfl⟩
  · intro prev hPrev
    cases hPrev
    show 1 ≤ v
    omega

namespace Connections

/-- The server shows version 5, and after a restart the older version 3, which
is accepted: `client.json` still has version 1. -/
theorem accepted_falls :
    Machine.Admissible (machine exampleConnEnv) (fun _ _ => True) (initial exampleConfig)
        [.make 0, .handshake 0 (exampleHandshake 5), .restart, .make 0,
          .handshake 0 (exampleHandshake 3)] ∧
      ¬ Ascends ((machine exampleConnEnv).run (initial exampleConfig)
        [.make 0, .handshake 0 (exampleHandshake 5), .restart, .make 0,
          .handshake 0 (exampleHandshake 3)]) := by
  constructor
  · have hMade : ∀ s : Connections, ∃ c, (next exampleConnEnv s (.make 0)).conns 0 = some (.made c) :=
      fun s => ⟨_, next_make_conns⟩
    exact ⟨rfl, trivial, hMade _, trivial, trivial, trivial, rfl, trivial, hMade _, trivial, trivial⟩
  · exact not_ascends_of_restart (exampleHandshake_accepts (.inr rfl))
      (exampleHandshake_accepts (.inl rfl)) (by decide)

end Connections

end LinkMesh
