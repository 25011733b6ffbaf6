import LinkMesh.Basis.KeyedList
import LinkMesh.Basis.Machine
import LinkMesh.Client.Config
import LinkMesh.Wire.Signal

/-!
# The commands of a client

The commands that write `client.json` (`linkmesh-client/src/main.rs`), `--join`
with what it asks the server for, and the runs of one command after the other. A
command that ends in an error writes nothing.

## Results

* `config_valid_iff` — when the configuration is accepted after every command.
* `join_pinned`      — what `--join` saves is complete, and stays.
-/

namespace LinkMesh

open Std Conn

-- ---------------------------------------------------------------------------
-- `--join`
-- ---------------------------------------------------------------------------

/-- What `--join` gets from outside: the ServerInfo, whether the fingerprint of its
root is trusted, and the response to the JOIN. -/
structure Joining where
  info : Except String ServerInfo
  trusted : Bool
  answer : Except String ResponseBody

namespace ClientFile

/-- `--token` before the token that is saved. -/
def joinToken (entry : SavedServer) (token : Option String) : Option String :=
  match token with
  | some t => if trim t ≠ "" then some (trim t) else entry.token
  | none => entry.token

/-- The first alias for the address of the card. -/
def selfAlias (c : ClientFile) (vmnic : String) : Option String :=
  let ip := ((c.findVmnic vmnic).map (·.ip)).getD ""
  (c.aliases.toList.find? (·.2 = ip)).map (·.1)

/-- What the device asks for. -/
def joinBody (env : CliEnv) (c : ClientFile) (localPub : RawKey) (vmnic code : String)
    (token : Option String) : Except String JoinBody := do
  let deviceId ← c.deviceId env
  let some ikSPub := c.signingPublicB64 | .error "缺少设备签名公钥"
  .ok
    { code := code
      deviceId := deviceId
      ikX := keyB64 (keyBytes localPub)
      ikSPub := ikSPub
      requestedIp := none
      token := token
      aliasName := c.selfAlias vmnic }

/-- The entry of a server after JOIN. -/
def joinedEntry (info : ServerInfo) (cert : DeviceCert) (token : Option String) (s : SavedServer) : SavedServer :=
  { s with
    meshRootPub := some info.meshRootPub
    deviceCert := some cert
    publicKey := some info.serverIkX
    crlVersion := some info.crlVersion
    token := token.or s.token }

def saveJoin (c : ClientFile) (server vmnic : String) (info : ServerInfo) (cert : DeviceCert) (ip : String)
    (token : Option String) : ClientFile :=
  { c with
    servers := modifyFirst (·.name = server) (joinedEntry info cert token) c.servers
    vmNics := modifyFirst (·.name = vmnic) (fun n => { n with ip := ip }) c.vmNics }

/-- `run_join`, up to what it prints after it has saved. -/
def runJoin (env : CliEnv) (c : ClientFile) (server vmnic code : String) (token : Option String)
    (x : Joining) : Except String ClientFile := do
  failIf c.identity.isNone "尚未生成设备身份，请先执行 --genkey"
  let some entry := c.findServer server | .error s!"服务器 {server} 未配置"
  failIf (IpAddr.parseSocket entry.endpoint).isNone
    s!"服务器地址 {entry.endpoint} 解析失败: invalid socket address syntax"
  let localPub ← c.publicKey
  let info ← x.info.mapError ("获取服务器信息失败: " ++ ·)
  -- the ServerInfo carries the root that it is verified with
  let rootPub ← parseSigPublic info.meshRootPub
  (info.verify env.mesh.signatures rootPub).mapError ("服务器信息签名无效（可能被篡改或非本网格）: " ++ ·)
  failIf (!x.trusted) s!"已拒绝信任网格 {server} 的根指纹，未加入"
  failIf (entry.meshRootPub.any (· ≠ info.meshRootPub))
    "服务器出示的网格根与本地已固定的根不一致（可能换了网格或存在中间人）"
  let body ← c.joinBody env localPub vmnic code (joinToken entry token)
  let _ ← c.privateKey
  let _ ← parsePublicKey info.serverIkX
  let _ ← encodeJoin body
  let resp ← x.answer
  failIf (!resp.ok) (resp.error.getD "加入失败")
  match resp.data with
  | .join _ ip cert _ _ => .ok (c.saveJoin server vmnic info cert ip (joinToken entry token))
  | _ => .error "加入响应缺少证书"

end ClientFile

-- ---------------------------------------------------------------------------
-- The commands
-- ---------------------------------------------------------------------------

/-- The port 8080 when none is given. -/
def normalizeEndpoint (ep : String) : String := if ep.toList.contains ':' then ep else s!"{ep}:8080"

/-- A command with what it reads from outside. -/
inductive CliCommand where
  | genkey (id : DeviceIdentity)
  | join (server vmnic code : String) (token : Option String) (x : Joining)
  | newvmnic (name : String) (ip : Option String)
  | delvmnic (name : String)
  | newserver (endpoint name : String)
  | setAlias (name ip : String)
  | delAlias (name : String)
  /-- the daemon has a connection of this server, or not -/
  | connect (server vmnic : String) (token : Option String) (running : Bool)
  | disconnect (server : String)
  /-- the daemon stops, or does not run -/
  | stop (stopped : Except String Unit)

namespace CliCommand

/-- `--join` is for a server that is not joined. -/
def execJoin (env : CliEnv) (c : ClientFile) (server vmnic code : String) (token : Option String)
    (x : Joining) : Except String ClientFile := do
  failIf (c.findVmnic vmnic).isNone s!"虚拟网卡 {vmnic} 未配置，请先 --newvmnic"
  failIf c.identity.isNone "尚未生成设备身份，请先执行 --genkey"
  failIf (c.findServer server).isNone s!"服务器 {server} 未配置"
  failIf ((c.findServer server).any (·.isJoined)) s!"已加入服务器 {server} 的网格，无需重复加入"
  c.runJoin env server vmnic code token x

def execNewvmnic (c : ClientFile) (name : String) (ip : Option String) : Except String ClientFile := do
  failIf (c.findVmnic name).isSome s!"虚拟网卡 {name} 已存在"
  let ip := ip.getD s!"10.13.13.{c.vmNics.length + 1}"
  failIf (ip ≠ "" && (IpAddr.parse ip).isNone) s!"虚拟 IP {ip} 非法"
  .ok { c with vmNics := c.vmNics ++ [{ name := name, ip := ip }] }

def execDelvmnic (c : ClientFile) (name : String) : Except String ClientFile := do
  failIf (c.findVmnic name).isNone s!"虚拟网卡 {name} 不存在"
  .ok
    { c with
      connections := c.connections.filter (·.vmNic ≠ name)
      vmNics := c.vmNics.filter (·.name ≠ name) }

/-- Without a name, the servers of the address are deleted. -/
def execNewserver (c : ClientFile) (endpoint name : String) : ClientFile :=
  if name = "" then { c with servers := c.servers.filter (·.endpoint ≠ endpoint) }
  else
    match c.findServer name with
    | some _ =>
      { c with
        servers := modifyFirst (·.name = name) (fun s => { s with endpoint := normalizeEndpoint endpoint }) c.servers }
    | none => { c with servers := c.servers ++ [SavedServer.new name (normalizeEndpoint endpoint)] }

def execSetAlias (env : CliEnv) (c : ClientFile) (name ip : String) : Except String ClientFile := do
  let name ← normalizeAlias env name
  failIf (IpAddr.parse (trim ip)).isNone s!"虚拟 IP {env.debugText (trim ip)} 非法"
  .ok { c with aliases := c.aliases.insert name (trim ip) }

/-- The connection is added unless the server has one. -/
def connected (c : ClientFile) (server vmnic : String) (token : Option String) : ClientFile :=
  { c with
    connections :=
      if (c.findConnection server).isNone then c.connections ++ [{ server := server, vmNic := vmnic }]
      else c.connections
    servers :=
      match token with
      | some t =>
        if trim t ≠ "" then
          modifyFirst (·.name = server) (fun s => { s with token := some (trim t) }) c.servers
        else c.servers
      | none => c.servers }

def execConnect (env : CliEnv) (c : ClientFile) (server vmnic : String) (token : Option String)
    (running : Bool) : Except String ClientFile := do
  let some entry := c.findServer server | .error s!"服务器 {server} 未配置"
  failIf (c.findVmnic vmnic).isNone s!"虚拟网卡 {vmnic} 未配置"
  failIf (entry.meshRootPub.isNone || entry.deviceCert.isNone)
    s!"服务器 {server} 尚未加入网格。请先执行 linkmesh-client --join \"{server}\" \"{vmnic}\" --code LMJ-... 加入网格"
  c.validate env
  failIf running s!"已连接到服务器 {server}（连接正在运行）"
  .ok (connected c server vmnic token)

/-- The file that the command leaves, or the error it ends in. -/
def exec (env : CliEnv) (c : ClientFile) : CliCommand → Except String ClientFile
  | genkey id => c.genkey id
  | join server vmnic code token x => execJoin env c server vmnic code token x
  | newvmnic name ip => execNewvmnic c name ip
  | delvmnic name => execDelvmnic c name
  | newserver endpoint name => .ok (execNewserver c endpoint name)
  | setAlias name ip => execSetAlias env c name ip
  | delAlias name =>
    if name ∈ c.aliases then .ok { c with aliases := c.aliases.erase name }
    else .error s!"别名 {name} 不存在"
  | connect server vmnic token running => execConnect env c server vmnic token running
  | disconnect server => .ok { c with connections := c.connections.filter (·.server ≠ server) }
  | stop stopped => do
    stopped
    .ok { c with connections := [] }

end CliCommand

namespace ClientFile

/-- The configuration after a command. -/
def next (env : CliEnv) (c : ClientFile) (cmd : CliCommand) : ClientFile :=
  match cmd.exec env c with
  | .ok c' => c'
  | .error _ => c

/-- One command after the other, from a new configuration. -/
def machine (env : CliEnv) : Machine ClientFile CliCommand where
  init c := c = {}
  enabled _ _ := True
  next := next env

end ClientFile

-- ---------------------------------------------------------------------------
-- What a JOIN takes
-- ---------------------------------------------------------------------------

namespace ClientFile

variable {c : ClientFile} {server vmnic : String} {info : ServerInfo} {cert : DeviceCert} {ip : String}
variable {token : Option String}

theorem saveJoin_serverNames :
    (c.saveJoin server vmnic info cert ip token).servers.map (·.name) = c.servers.map (·.name) := by
  apply MeshConfig.modifyFirst_map
  exact fun _ => rfl

theorem saveJoin_nicNames :
    (c.saveJoin server vmnic info cert ip token).vmNics.map (·.name) = c.vmNics.map (·.name) := by
  apply MeshConfig.modifyFirst_map
  exact fun _ => rfl

end ClientFile

theorem mapError_eq_ok {α : Type} {x : Except String α} {f : String → String} {a : α} :
    x.mapError f = .ok a ↔ x = .ok a := by
  cases x <;> simp [Except.mapError]

/-- Every step of `--join` goes well. -/
structure Joins (env : CliEnv) (c : ClientFile) (server vmnic code : String) (token : Option String)
    (x : Joining) (entry : SavedServer) (info : ServerInfo) (body : JoinBody) (cert : DeviceCert)
    (ip : String) : Prop where
  identity : c.identity.isSome
  found : c.findServer server = some entry
  endpoint : (IpAddr.parseSocket entry.endpoint).isSome
  received : x.info = .ok info
  root : ∃ rootPub, parseSigPublic info.meshRootPub = .ok rootPub ∧
    info.verify env.mesh.signatures rootPub = .ok ()
  trusted : x.trusted = true
  pinned : ∀ root, entry.meshRootPub = some root → root = info.meshRootPub
  asks : ∃ localPub, c.publicKey = .ok localPub ∧
    c.joinBody env localPub vmnic code (ClientFile.joinToken entry token) = .ok body
  privateKey : ∃ key, c.privateKey = .ok key
  serverKey : ∃ key, parsePublicKey info.serverIkX = .ok key
  encodes : ∃ bytes, encodeJoin body = .ok bytes
  answer : ∃ resp deviceId serverInfo crl, x.answer = .ok resp ∧ resp.ok = true ∧
    resp.data = .join deviceId ip cert serverInfo crl

theorem runJoin_eq_ok {env : CliEnv} {c c' : ClientFile} {server vmnic code : String} {token : Option String}
    {x : Joining} : c.runJoin env server vmnic code token x = .ok c' ↔
      ∃ entry info body cert ip, Joins env c server vmnic code token x entry info body cert ip ∧
        c' = c.saveJoin server vmnic info cert ip (ClientFile.joinToken entry token) := by
  have hPins : ∀ (root : Option String) (r : String), (root.any (· ≠ r)) = false ↔ ∀ q, root = some q → q = r := by
    intro root r
    cases root <;> simp
  unfold ClientFile.runJoin
  simp only [bind_eq_ok, failIf_eq_ok]
  constructor
  · rintro ⟨_, hIdentity, h⟩
    split at h
    · rename_i entry hEntry
      simp only [bind_eq_ok, failIf_eq_ok, mapError_eq_ok] at h
      obtain ⟨_, hEndpoint, localPub, hPub, info, hInfo, rootPub, hRoot, _, hVerify, _, hTrusted, _, hPinned,
        body, hBody, priv, hPriv, key, hKey, bytes, hBytes, resp, hResp, _, hOk, h⟩ := h
      split at h
      · rename_i deviceId ip cert serverInfo crl hData
        refine ⟨entry, info, body, cert, ip, ?_, (Except.ok.inj h).symm⟩
        exact
          { identity := by simpa using hIdentity
            found := hEntry
            endpoint := Option.isNone_eq_false_iff.mp hEndpoint
            received := hInfo
            root := ⟨rootPub, hRoot, hVerify⟩
            trusted := by simpa using hTrusted
            pinned := (hPins _ _).mp hPinned
            asks := ⟨localPub, hPub, hBody⟩
            privateKey := ⟨priv, hPriv⟩
            serverKey := ⟨key, hKey⟩
            encodes := ⟨bytes, hBytes⟩
            answer := ⟨resp, deviceId, serverInfo, crl, hResp, by simpa using hOk, hData⟩ }
      · cases h
    · cases h
  · rintro ⟨entry, info, body, cert, ip, h, rfl⟩
    refine ⟨(), by simpa using h.identity, ?_⟩
    obtain ⟨rootPub, hRoot, hVerify⟩ := h.root
    obtain ⟨localPub, hPub, hBody⟩ := h.asks
    obtain ⟨priv, hPriv⟩ := h.privateKey
    obtain ⟨key, hKey⟩ := h.serverKey
    obtain ⟨bytes, hBytes⟩ := h.encodes
    obtain ⟨resp, deviceId, serverInfo, crl, hResp, hOk, hData⟩ := h.answer
    rw [h.found]
    simp only [bind_eq_ok, failIf_eq_ok, mapError_eq_ok]
    refine ⟨(), Option.isNone_eq_false_iff.mpr h.endpoint, localPub, hPub, info, h.received, rootPub, hRoot, (),
      hVerify, (), by simpa using h.trusted, (), (hPins _ _).mpr h.pinned, body, hBody, priv, hPriv, key, hKey,
      bytes, hBytes, resp, hResp, (), by simpa using hOk, ?_⟩
    rw [hData]

-- ---------------------------------------------------------------------------
-- Accepted configurations
-- ---------------------------------------------------------------------------

section

variable {α : Type} {p : α → Bool} {f : α → α} {a : α} {l : List α}

/-- The first element that satisfies the test is there, changed. -/
theorem mem_modifyFirst_self (h : l.find? p = some a) : f a ∈ modifyFirst p f l := by
  induction l with
  | nil => cases h
  | cons b l ih =>
    unfold modifyFirst
    by_cases hHead : p b = true
    · rw [List.find?_cons_of_pos hHead] at h
      cases h
      rw [if_pos hHead]
      exact List.mem_cons_self ..
    · rw [List.find?_cons_of_neg hHead] at h
      rw [if_neg hHead]
      exact List.mem_cons_of_mem _ (ih h)

/-- It is still the first one, when the change keeps the test. -/
theorem find?_modifyFirst_self (h : l.find? p = some a) (hTest : p (f a) = true) :
    (modifyFirst p f l).find? p = some (f a) := by
  induction l with
  | nil => cases h
  | cons b l ih =>
    unfold modifyFirst
    by_cases hHead : p b = true
    · rw [List.find?_cons_of_pos hHead] at h
      cases h
      rw [if_pos hHead, List.find?_cons_of_pos hTest]
    · rw [List.find?_cons_of_neg hHead] at h
      rw [if_neg hHead, List.find?_cons_of_neg hHead]
      exact ih h

/-- What holds of every element holds after a change that keeps it. -/
theorem forall_modifyFirst {P : α → Prop} (h : ∀ a ∈ l, P a) (hf : ∀ a ∈ l, P a → P (f a)) :
    ∀ a ∈ modifyFirst p f l, P a := by
  intro a ha
  rcases MeshConfig.mem_modifyFirst ha with hOld | ⟨b, hb, rfl⟩
  · exact h a hOld
  · exact hf b hb (h b hb)

end

namespace CliCommand

/-- What the command leaves has addresses where `validate` wants them: a card has a
name, a server an address, and no server is deleted that a connection refers to. -/
def Sound (c : ClientFile) : CliCommand → Prop
  | newvmnic name _ => name ≠ ""
  | newserver endpoint name =>
    if name = "" then ∀ k ∈ c.connections, ∃ s ∈ c.servers, s.endpoint ≠ endpoint ∧ s.name = k.server
    else (IpAddr.parseSocket (normalizeEndpoint endpoint)).isSome
  | join _ _ _ _ x => ∀ resp deviceId ip cert info crl, x.answer = .ok resp →
    resp.data = .join deviceId ip cert info crl → ip = "" ∨ (IpAddr.parse ip).isSome
  | _ => True

variable {env : CliEnv} {c c' : ClientFile}

theorem valid_join {server vmnic code : String} {token : Option String} {x : Joining} (h : c.Valid env)
    (hExec : execJoin env c server vmnic code token x = .ok c') :
    c'.Valid env ↔ (join server vmnic code token x).Sound c := by
  unfold execJoin at hExec
  simp only [bind_eq_ok, failIf_eq_ok] at hExec
  obtain ⟨_, hNic, _, _, _, _, _, _, hRun⟩ := hExec
  obtain ⟨entry, info, body, cert, ip, hJoins, rfl⟩ := runJoin_eq_ok.mp hRun
  obtain ⟨resp, deviceId, serverInfo, crl, hAnswer, _, hData⟩ := hJoins.answer
  obtain ⟨nic, hFound⟩ := Option.isSome_iff_exists.mp (Option.isNone_eq_false_iff.mp hNic)
  constructor
  · intro hValid resp' deviceId' ip' cert' info' crl' hAnswer' hData'
    rw [hAnswer] at hAnswer'
    cases hAnswer'
    rw [hData] at hData'
    cases hData'
    exact (hValid.nics _ (mem_modifyFirst_self hFound)).ip
  · intro hSound
    have hIp := hSound resp deviceId ip cert serverInfo crl hAnswer hData
    refine ⟨?_, ?_, ?_, h.aliases, h.dnsPort, ?_, h.punch⟩
    · rw [ClientFile.saveJoin_nicNames]
      exact h.nicNames
    · exact forall_modifyFirst h.nics fun n _ hn => ⟨hn.name, hn.mtu, hIp⟩
    · refine forall_modifyFirst h.servers fun s _ hs => ⟨hs.name, hs.endpoint, fun pk hPk => ?_⟩
      cases hPk
      exact hJoins.serverKey
    · intro k hk
      unfold ClientFile.Refers
      rw [ClientFile.saveJoin_serverNames, ClientFile.saveJoin_nicNames]
      exact h.connections k hk

theorem valid_newvmnic {name : String} {ip : Option String} (h : c.Valid env)
    (hExec : execNewvmnic c name ip = .ok c') : c'.Valid env ↔ (newvmnic name ip).Sound c := by
  unfold execNewvmnic at hExec
  simp only [bind_eq_ok, failIf_eq_ok] at hExec
  obtain ⟨_, hNew, _, hIp, hEq⟩ := hExec
  cases hEq
  generalize ip.getD s!"10.13.13.{c.vmNics.length + 1}" = text at hIp
  have hFresh : name ∉ c.vmNics.map (·.name) := by
    rw [← ClientFile.findVmnic_isSome]
    simpa using hNew
  constructor
  · exact fun hValid => (hValid.nics _ (List.mem_append_right _ (List.mem_singleton_self _))).name
  · intro hName
    refine ⟨?_, ?_, h.servers, h.aliases, h.dnsPort, ?_, h.punch⟩
    · dsimp only
      rw [List.map_append, List.map_singleton]
      refine List.nodup_append.mpr ⟨h.nicNames, List.nodup_singleton _, fun a ha b hb hEq => ?_⟩
      rw [hEq, List.mem_singleton.mp hb] at ha
      exact hFresh ha
    · intro n hn
      rcases List.mem_append.mp hn with hOld | hAdded
      · exact h.nics n hOld
      · rw [List.mem_singleton.mp hAdded]
        refine ⟨hName, ⟨by show 68 ≤ 1280; decide, by show 1280 ≤ 65535; decide⟩, ?_⟩
        rcases Classical.em (text = "") with hBlank | hText
        · exact .inl hBlank
        · exact .inr (by simpa [hText] using hIp)
    · intro k hk
      refine ⟨(h.connections k hk).1, ?_⟩
      dsimp only
      rw [List.map_append]
      exact List.mem_append_left _ (h.connections k hk).2

theorem valid_delvmnic {name : String} (h : c.Valid env) (hExec : execDelvmnic c name = .ok c') :
    c'.Valid env := by
  unfold execDelvmnic at hExec
  simp only [bind_eq_ok, failIf_eq_ok] at hExec
  obtain ⟨_, _, hEq⟩ := hExec
  cases hEq
  refine ⟨h.nicNames.sublist (List.filter_sublist.map _), fun n hn => h.nics n (List.mem_of_mem_filter hn),
    h.servers, h.aliases, h.dnsPort, fun k hk => ?_, h.punch⟩
  obtain ⟨hMem, hOther⟩ := List.mem_filter.mp hk
  obtain ⟨hServer, hNic⟩ := h.connections k hMem
  refine ⟨hServer, ?_⟩
  obtain ⟨n, hn, hName⟩ := List.mem_map.mp hNic
  refine List.mem_map.mpr ⟨n, List.mem_filter.mpr ⟨hn, ?_⟩, hName⟩
  rw [hName]
  exact hOther

theorem valid_newserver {endpoint name : String} (h : c.Valid env) :
    (execNewserver c endpoint name).Valid env ↔ (newserver endpoint name).Sound c := by
  unfold execNewserver
  by_cases hName : name = ""
  · rw [if_pos hName]
    show _ ↔ if name = "" then _ else _
    rw [if_pos hName]
    constructor
    · intro hValid k hk
      obtain ⟨s, hs, hServer⟩ := List.mem_map.mp (hValid.connections k hk).1
      obtain ⟨hMem, hOther⟩ := List.mem_filter.mp hs
      exact ⟨s, hMem, of_decide_eq_true hOther, hServer⟩
    · intro hSound
      refine ⟨h.nicNames, h.nics, fun s hs => h.servers s (List.mem_of_mem_filter hs), h.aliases, h.dnsPort,
        fun k hk => ⟨?_, (h.connections k hk).2⟩, h.punch⟩
      obtain ⟨s, hMem, hOther, hServer⟩ := hSound k hk
      exact List.mem_map.mpr ⟨s, List.mem_filter.mpr ⟨hMem, decide_eq_true hOther⟩, hServer⟩
  · rw [if_neg hName]
    show _ ↔ if name = "" then _ else _
    rw [if_neg hName]
    split
    · rename_i s hFound
      have hNames : (modifyFirst (·.name = name)
          (fun s : SavedServer => { s with endpoint := normalizeEndpoint endpoint }) c.servers).map (·.name) =
          c.servers.map (·.name) := by
        apply MeshConfig.modifyFirst_map
        exact fun _ => rfl
      constructor
      · exact fun hValid => (hValid.servers _ (mem_modifyFirst_self hFound)).endpoint
      · intro hSound
        refine ⟨h.nicNames, h.nics, ?_, h.aliases, h.dnsPort, fun k hk => ?_, h.punch⟩
        · exact forall_modifyFirst h.servers fun s _ hs => ⟨hs.name, hSound, hs.publicKey⟩
        · unfold ClientFile.Refers
          dsimp only
          rw [hNames]
          exact h.connections k hk
    · constructor
      · exact fun hValid => (hValid.servers _ (List.mem_append_right _ (List.mem_singleton_self _))).endpoint
      · intro hSound
        refine ⟨h.nicNames, h.nics, ?_, h.aliases, h.dnsPort, fun k hk => ⟨?_, (h.connections k hk).2⟩, h.punch⟩
        · intro s hs
          rcases List.mem_append.mp hs with hOld | hNew
          · exact h.servers s hOld
          · rw [List.mem_singleton.mp hNew]
            exact ⟨hName, hSound, nofun⟩
        · dsimp only
          rw [List.map_append]
          exact List.mem_append_left _ (h.connections k hk).1

theorem valid_setAlias (hLawful : env.caseTables.Lawful) {name ip : String} (h : c.Valid env)
    (hExec : execSetAlias env c name ip = .ok c') : c'.Valid env := by
  unfold execSetAlias at hExec
  simp only [bind_eq_ok, failIf_eq_ok] at hExec
  obtain ⟨normal, hNormal, _, hIp, hEq⟩ := hExec
  cases hEq
  refine ⟨h.nicNames, h.nics, h.servers, fun key p hEntry => ?_, h.dnsPort, h.connections, h.punch⟩
  dsimp only at hEntry
  rw [KeyMap.getElem?_insert] at hEntry
  split at hEntry
  · rename_i hKey
    cases hEntry
    rw [hKey]
    exact ⟨⟨normal, normalizeAlias_normal hLawful hNormal⟩, Option.isNone_eq_false_iff.mp hIp⟩
  · exact h.aliases key p hEntry

theorem valid_connect {server vmnic : String} {token : Option String} {running : Bool} (h : c.Valid env)
    (hExec : execConnect env c server vmnic token running = .ok c') : c'.Valid env := by
  unfold execConnect at hExec
  split at hExec
  · rename_i entry hFound
    simp only [bind_eq_ok, failIf_eq_ok] at hExec
    obtain ⟨_, hNic, _, _, _, _, _, _, hEq⟩ := hExec
    cases hEq
    have hServers : ((connected c server vmnic token).servers.map (·.name) = c.servers.map (·.name)) ∧
        ∀ s ∈ (connected c server vmnic token).servers, s.Valid := by
      unfold connected
      dsimp only
      split
      · split
        · refine ⟨?_, forall_modifyFirst h.servers fun s _ hs => ⟨hs.name, hs.endpoint, hs.publicKey⟩⟩
          apply MeshConfig.modifyFirst_map
          exact fun _ => rfl
        · exact ⟨rfl, h.servers⟩
      · exact ⟨rfl, h.servers⟩
    refine ⟨h.nicNames, h.nics, hServers.2, h.aliases, h.dnsPort, fun k hk => ?_, h.punch⟩
    have hOld : ∀ k, k ∈ c.connections → (connected c server vmnic token).Refers k := by
      intro k hMem
      unfold ClientFile.Refers
      rw [hServers.1]
      exact h.connections k hMem
    unfold connected at hk
    dsimp only at hk
    split at hk
    · rcases List.mem_append.mp hk with hMem | hNew
      · exact hOld k hMem
      · rw [List.mem_singleton.mp hNew]
        refine ⟨?_, ClientFile.findVmnic_isSome.mp (Option.isNone_eq_false_iff.mp hNic)⟩
        rw [hServers.1]
        exact ClientFile.findServer_isSome.mp (Option.isSome_iff_exists.mpr ⟨entry, hFound⟩)
    · exact hOld k hk
  · cases hExec

/-- A command that goes through leaves an accepted configuration accepted exactly
when it is sound. -/
theorem valid_exec_iff (hLawful : env.caseTables.Lawful) (h : c.Valid env) {cmd : CliCommand}
    (hExec : cmd.exec env c = .ok c') : c'.Valid env ↔ cmd.Sound c := by
  have hFewer : ∀ keep : ConnectionEntry → Bool, ({ c with connections := c.connections.filter keep }).Valid env :=
    fun keep => ⟨h.nicNames, h.nics, h.servers, h.aliases, h.dnsPort,
      fun k hk => h.connections k (List.mem_of_mem_filter hk), h.punch⟩
  cases cmd with
  | genkey id =>
    unfold exec ClientFile.genkey at hExec
    dsimp only at hExec
    split at hExec
    · cases hExec
    · cases hExec
      exact iff_of_true ⟨h.nicNames, h.nics, h.servers, h.aliases, h.dnsPort, h.connections, h.punch⟩ trivial
  | join server vmnic code token x => exact valid_join h hExec
  | newvmnic name ip => exact valid_newvmnic h hExec
  | delvmnic name => exact iff_of_true (valid_delvmnic h hExec) trivial
  | newserver endpoint name =>
    cases hExec
    exact valid_newserver h
  | setAlias name ip => exact iff_of_true (valid_setAlias hLawful h hExec) trivial
  | delAlias name =>
    unfold exec at hExec
    dsimp only at hExec
    split at hExec
    · cases hExec
      refine iff_of_true ⟨h.nicNames, h.nics, h.servers, fun key p hEntry => ?_, h.dnsPort, h.connections, h.punch⟩
        trivial
      exact h.aliases key p (KeyMap.of_getElem?_erase hEntry).2
    · cases hExec
  | connect server vmnic token running => exact iff_of_true (valid_connect h hExec) trivial
  | disconnect server =>
    cases hExec
    exact iff_of_true (hFewer _) trivial
  | stop stopped =>
    obtain ⟨_, _, hEq⟩ := bind_eq_ok.mp hExec
    cases hEq
    exact iff_of_true ⟨h.nicNames, h.nics, h.servers, h.aliases, h.dnsPort, nofun, h.punch⟩ trivial

end CliCommand

namespace ClientFile

variable {env : CliEnv} {c : ClientFile}

theorem valid_next_iff (hLawful : env.caseTables.Lawful) (h : c.Valid env) (cmd : CliCommand) :
    (c.next env cmd).Valid env ↔ ∀ c', cmd.exec env c = .ok c' → cmd.Sound c := by
  unfold next
  cases hExec : cmd.exec env c with
  | error e => exact iff_of_true h fun c' hEq => by cases hEq
  | ok c' =>
    refine (CliCommand.valid_exec_iff hLawful h hExec).trans ⟨fun hSound _ _ => hSound, fun hAll => ?_⟩
    exact hAll c' rfl

/-- **The configuration stays accepted.** From a new configuration, `validate`
accepts the file after every command of a run exactly when every command that goes
through names its card, gives its server an address and deletes no server that a
connection refers to, and the server assigns addresses. -/
theorem config_valid_iff (hLawful : env.caseTables.Lawful) (cmds : List CliCommand) :
    (∀ pre, pre <+: cmds → ((machine env).run {} pre).validate env = .ok ()) ↔
      ∀ pre cmd, pre ++ [cmd] <+: cmds →
        ∀ c', cmd.exec env ((machine env).run {} pre) = .ok c' → cmd.Sound ((machine env).run {} pre) := by
  simp only [validate_eq_ok]
  exact Machine.along_run_iff (M := machine env) (P := fun c : ClientFile => c.Valid env)
    (G := fun c cmd => ∀ c', cmd.exec env c = .ok c' → cmd.Sound c) valid_default
    (fun c cmd h => valid_next_iff hLawful h cmd) cmds

end ClientFile

-- ---------------------------------------------------------------------------
-- An example configuration
-- ---------------------------------------------------------------------------

def exampleCliEnv : CliEnv where
  mesh :=
    { signatures := exampleConnEnv.signatures
      sha256 := fun _ => List.replicate 32 0
      toUppercase := fun s => s }
  caseTables := CaseTables.ascii
  debugText s := s

def exampleIdentity : DeviceIdentity :=
  { ikX := ⟨sampleKeyText 2, sampleKeyText 9⟩
    ikS := ⟨sampleKeyText 2, sampleKeyText 9⟩ }

/-- The server of the mesh with the root 1 answers the JOIN of device 2. -/
def exampleJoining : Joining :=
  { info := .ok ((exampleInfo 3).sign exampleConnEnv.signatures (keyBytes 1))
    trusted := true
    answer := .ok
      { ok := true
        error := none
        data := .join "" "10.13.13.2" (sampleCert 2) (exampleInfo 3)
          { meshId := "mesh", version := 3, entries := [], signature := none } } }

def exampleCommands : List CliCommand :=
  [.newvmnic "lm0" none, .newserver "192.0.2.1:4000" "lab", .genkey exampleIdentity,
    .join "lab" "lm0" "LMJ" none exampleJoining]

namespace ClientFile

theorem config_valid_sample :
    ((machine exampleCliEnv).run {} exampleCommands).validate exampleCliEnv = .ok () := by
  have hSound : ∀ cmd ∈ exampleCommands, ∀ c, cmd.Sound c := by
    unfold exampleCommands
    simp only [List.forall_mem_cons, List.not_mem_nil, false_implies, implies_true, and_true]
    refine ⟨fun c => show "lm0" ≠ "" by decide, fun c => ?_, fun c => trivial,
      fun c resp deviceId ip cert info crl hAnswer hData => ?_⟩
    · have hEndpoint : (IpAddr.parseSocket (normalizeEndpoint "192.0.2.1:4000")).isSome := by decide +kernel
      exact hEndpoint
    · cases hAnswer
      cases hData
      exact .inr (by decide)
  refine (config_valid_iff CaseTables.lawful_ascii exampleCommands).mpr (fun pre cmd hPre c' _ => ?_) exampleCommands
    (List.prefix_refl _)
  exact hSound cmd (hPre.subset (List.mem_append_right _ (List.mem_singleton_self _))) _

end ClientFile

-- ---------------------------------------------------------------------------
-- What a JOIN pins
-- ---------------------------------------------------------------------------

section

variable {α β : Type} {p : α → Bool} {f : α → α} {a : α} {l : List α}

/-- An element of the list after a change was there, or it is the first one of the
test, changed. -/
theorem of_mem_modifyFirst (h : a ∈ modifyFirst p f l) : a ∈ l ∨ ∃ b, l.find? p = some b ∧ a = f b := by
  induction l with
  | nil => cases h
  | cons b l ih =>
    unfold modifyFirst at h
    by_cases hHead : p b = true
    · rw [if_pos hHead] at h
      rcases List.mem_cons.mp h with hEq | hTail
      · exact .inr ⟨b, List.find?_cons_of_pos hHead, hEq⟩
      · exact .inl (List.mem_cons_of_mem _ hTail)
    · rw [if_neg hHead] at h
      rw [List.find?_cons_of_neg hHead]
      rcases List.mem_cons.mp h with hEq | hTail
      · exact .inl (hEq ▸ List.mem_cons_self ..)
      · exact (ih hTail).imp_left (List.mem_cons_of_mem _)

/-- The other way round. -/
theorem mem_modifyFirst_of_mem (h : a ∈ l) : a ∈ modifyFirst p f l ∨ l.find? p = some a := by
  induction l with
  | nil => cases h
  | cons b l ih =>
    unfold modifyFirst
    by_cases hHead : p b = true
    · rw [if_pos hHead, List.find?_cons_of_pos hHead]
      rcases List.mem_cons.mp h with rfl | hTail
      · exact .inr rfl
      · exact .inl (List.mem_cons_of_mem _ hTail)
    · rw [if_neg hHead, List.find?_cons_of_neg hHead]
      rcases List.mem_cons.mp h with rfl | hTail
      · exact .inl (List.mem_cons_self ..)
      · exact (ih hTail).imp_left (List.mem_cons_of_mem _)

end

namespace SavedServer

/-- What a handshake with the server rests on. -/
def trust (s : SavedServer) : Option String × Option DeviceCert × Option String × Option Nat :=
  (s.meshRootPub, s.deviceCert, s.publicKey, s.crlVersion)

/-- The same server with the same trust. -/
def Same (s s' : SavedServer) : Prop := s'.name = s.name ∧ s'.trust = s.trust

/-- The trust of a server that was never joined. -/
def noTrust : Option String × Option DeviceCert × Option String × Option Nat := (none, none, none, none)

end SavedServer

namespace CliCommand

variable {env : CliEnv} {c c' : ClientFile}

/-- `--join` of a server goes through, and saves what the entry trusts. -/
structure Pins (env : CliEnv) (c : ClientFile) (cmd : CliCommand) (s : SavedServer) : Type where
  vmnic : String
  code : String
  token : Option String
  x : Joining
  entry : SavedServer
  info : ServerInfo
  body : JoinBody
  cert : DeviceCert
  ip : String
  isJoin : cmd = join s.name vmnic code token x
  joins : Joins env c s.name vmnic code token x entry info body cert ip
  notJoined : entry.isJoined = false
  trust : s.trust = (some info.meshRootPub, some cert, some info.serverIkX, some info.crlVersion)

/-- The command deletes the servers of this address. -/
def Deletes (cmd : CliCommand) (s : SavedServer) : Prop := cmd = newserver s.endpoint ""

/-- What a command can do to the servers. -/
structure ServerSteps (env : CliEnv) (c : ClientFile) (cmd : CliCommand) (c' : ClientFile) : Prop where
  /-- a server of the file after was there with the same trust, or is new, or joins -/
  origin : ∀ s' ∈ c'.servers, (∃ s ∈ c.servers, s.Same s') ∨ s'.trust = SavedServer.noTrust ∨
    Nonempty (Pins env c cmd s')
  /-- a joined server stays with its trust unless it is deleted -/
  stays : ∀ s ∈ c.servers, s.isJoined → (∃ s' ∈ c'.servers, s.Same s') ∨ cmd.Deletes s
  names : (c.servers.map (·.name)).Nodup → (c'.servers.map (·.name)).Nodup
  identity : c.identity.isSome → c'.identity = c.identity

/-- A command that only changes other parts of the servers. -/
theorem ServerSteps.of_map {cmd : CliCommand} {p : SavedServer → Bool} {f : SavedServer → SavedServer}
    (hServers : c'.servers = modifyFirst p f c.servers) (hSame : ∀ s : SavedServer, s.Same (f s))
    (hIdentity : c.identity.isSome → c'.identity = c.identity) : ServerSteps env c cmd c' := by
  refine ⟨fun s' hs' => .inl ?_, fun s hs _ => .inl ?_, fun hNodup => ?_, hIdentity⟩
  · rw [hServers] at hs'
    rcases of_mem_modifyFirst hs' with hOld | ⟨s, hFound, rfl⟩
    · exact ⟨s', hOld, rfl, rfl⟩
    · exact ⟨s, List.mem_of_find?_eq_some hFound, hSame s⟩
  · rw [hServers]
    rcases mem_modifyFirst_of_mem hs with hKept | hFound
    · exact ⟨s, hKept, rfl, rfl⟩
    · exact ⟨f s, mem_modifyFirst_self hFound, hSame s⟩
  · rw [hServers, MeshConfig.modifyFirst_map _ fun s => (hSame s).1]
    exact hNodup

theorem ServerSteps.of_eq {cmd : CliCommand} (hServers : c'.servers = c.servers)
    (hIdentity : c.identity.isSome → c'.identity = c.identity) : ServerSteps env c cmd c' := by
  refine ⟨fun s' hs' => .inl ⟨s', hServers ▸ hs', rfl, rfl⟩, fun s hs _ => .inl ⟨s, hServers ▸ hs, rfl, rfl⟩,
    fun hNodup => ?_, hIdentity⟩
  rw [hServers]
  exact hNodup

theorem serverSteps_join {server vmnic code : String} {token : Option String} {x : Joining}
    (hExec : execJoin env c server vmnic code token x = .ok c') :
    ServerSteps env c (join server vmnic code token x) c' := by
  unfold execJoin at hExec
  simp only [bind_eq_ok, failIf_eq_ok] at hExec
  obtain ⟨_, _, _, _, _, _, _, hNotJoined, hRun⟩ := hExec
  obtain ⟨entry, info, body, cert, ip, hJoins, rfl⟩ := runJoin_eq_ok.mp hRun
  have hFound : c.servers.find? (·.name = server) = some entry := hJoins.found
  have hFresh : entry.isJoined = false := by
    have hAll : (c.findServer server).any (·.isJoined) = false := hNotJoined
    rw [hJoins.found] at hAll
    exact hAll
  have hName : entry.name = server := by
    have hTest := List.find?_some hFound
    exact of_decide_eq_true hTest
  refine ⟨fun s' hs' => ?_, fun s hs hJoined => .inl ?_, fun hNodup => ?_, fun _ => rfl⟩
  · rcases of_mem_modifyFirst hs' with hOld | ⟨s, hs, rfl⟩
    · exact .inl ⟨s', hOld, rfl, rfl⟩
    · rw [hFound] at hs
      cases hs
      subst hName
      exact .inr (.inr ⟨⟨vmnic, code, token, x, entry, info, body, cert, ip, rfl, hJoins, hFresh, rfl⟩⟩)
  · rcases mem_modifyFirst_of_mem (p := (·.name = server))
      (f := ClientFile.joinedEntry info cert (ClientFile.joinToken entry token)) hs with hKept | hThis
    · exact ⟨s, hKept, rfl, rfl⟩
    · rw [hFound] at hThis
      cases hThis
      rw [hFresh] at hJoined
      cases hJoined
  · rw [ClientFile.saveJoin_serverNames]
    exact hNodup

theorem serverSteps_newserver (endpoint name : String) :
    ServerSteps env c (newserver endpoint name) (execNewserver c endpoint name) := by
  unfold execNewserver
  split
  · rename_i hName
    refine ⟨fun s' hs' => .inl ⟨s', List.mem_of_mem_filter hs', rfl, rfl⟩, fun s hs _ => ?_,
      fun hNodup => hNodup.sublist (List.filter_sublist.map _), fun _ => rfl⟩
    by_cases hThis : s.endpoint = endpoint
    · right
      unfold Deletes
      rw [hThis, hName]
    · exact .inl ⟨s, List.mem_filter.mpr ⟨hs, decide_eq_true hThis⟩, rfl, rfl⟩
  · split
    · exact ServerSteps.of_map rfl (fun _ => ⟨rfl, rfl⟩) fun _ => rfl
    · rename_i hNew
      refine ⟨fun s' hs' => ?_, fun s hs _ => .inl ⟨s, List.mem_append_left _ hs, rfl, rfl⟩, fun hNodup => ?_,
        fun _ => rfl⟩
      · rcases List.mem_append.mp hs' with hOld | hAdded
        · exact .inl ⟨s', hOld, rfl, rfl⟩
        · rw [List.mem_singleton.mp hAdded]
          exact .inr (.inl rfl)
      · dsimp only
        rw [List.map_append, List.map_singleton]
        refine List.nodup_append.mpr ⟨hNodup, List.nodup_singleton _, fun a ha b hb hEq => ?_⟩
        rw [hEq, List.mem_singleton.mp hb] at ha
        have hSome : (c.findServer name).isSome := ClientFile.findServer_isSome.mpr ha
        rw [hNew] at hSome
        cases hSome

theorem serverSteps_connect {server vmnic : String} {token : Option String} {running : Bool} {cmd : CliCommand}
    (hExec : execConnect env c server vmnic token running = .ok c') : ServerSteps env c cmd c' := by
  unfold execConnect at hExec
  split at hExec
  · simp only [bind_eq_ok, failIf_eq_ok] at hExec
    obtain ⟨_, _, _, _, _, _, _, _, hEq⟩ := hExec
    cases hEq
    cases token with
    | none => exact ServerSteps.of_eq rfl fun _ => rfl
    | some t =>
      by_cases hText : trim t ≠ ""
      · refine ServerSteps.of_map (p := (·.name = server)) (f := fun s => { s with token := some (trim t) }) ?_
          (fun _ => ⟨rfl, rfl⟩) fun _ => rfl
        unfold connected
        dsimp only
        rw [if_pos hText]
      · refine ServerSteps.of_eq ?_ fun _ => rfl
        unfold connected
        dsimp only
        rw [if_neg hText]
  · cases hExec

theorem serverSteps {cmd : CliCommand} (hExec : cmd.exec env c = .ok c') : ServerSteps env c cmd c' := by
  cases cmd with
  | genkey id =>
    unfold exec ClientFile.genkey at hExec
    dsimp only at hExec
    split at hExec
    · cases hExec
    · rename_i hNone
      cases hExec
      exact ServerSteps.of_eq rfl fun hSome => absurd hSome hNone
  | join server vmnic code token x => exact serverSteps_join hExec
  | newvmnic name ip =>
    unfold exec execNewvmnic at hExec
    simp only [bind_eq_ok, failIf_eq_ok] at hExec
    obtain ⟨_, _, _, _, hEq⟩ := hExec
    cases hEq
    exact ServerSteps.of_eq rfl fun _ => rfl
  | delvmnic name =>
    unfold exec execDelvmnic at hExec
    simp only [bind_eq_ok, failIf_eq_ok] at hExec
    obtain ⟨_, _, hEq⟩ := hExec
    cases hEq
    exact ServerSteps.of_eq rfl fun _ => rfl
  | newserver endpoint name =>
    cases hExec
    exact serverSteps_newserver endpoint name
  | setAlias name ip =>
    unfold exec execSetAlias at hExec
    simp only [bind_eq_ok, failIf_eq_ok] at hExec
    obtain ⟨_, _, _, _, hEq⟩ := hExec
    cases hEq
    exact ServerSteps.of_eq rfl fun _ => rfl
  | delAlias name =>
    unfold exec at hExec
    dsimp only at hExec
    split at hExec
    · cases hExec
      exact ServerSteps.of_eq rfl fun _ => rfl
    · cases hExec
  | connect server vmnic token running => exact serverSteps_connect hExec
  | disconnect server =>
    cases hExec
    exact ServerSteps.of_eq rfl fun _ => rfl
  | stop stopped =>
    obtain ⟨_, _, hEq⟩ := bind_eq_ok.mp hExec
    cases hEq
    exact ServerSteps.of_eq rfl fun _ => rfl

/-- Also when the command fails. -/
theorem serverSteps_next (cmd : CliCommand) : ServerSteps env c cmd (c.next env cmd) := by
  unfold ClientFile.next
  cases hExec : cmd.exec env c with
  | ok c' => exact serverSteps hExec
  | error e => exact ServerSteps.of_eq rfl fun _ => rfl

end CliCommand

namespace ClientFile

variable {env : CliEnv} {c : ClientFile}

theorem nodup_servers (cmds : List CliCommand) : (((machine env).run {} cmds).servers.map (·.name)).Nodup := by
  have hNew : (({} : ClientFile).servers.map (·.name)).Nodup := List.nodup_nil
  exact Machine.run_invariant (M := machine env) (I := fun c : ClientFile => (c.servers.map (·.name)).Nodup)
    (fun _ cmd h => (CliCommand.serverSteps_next cmd).names h) hNew cmds

/-- Names are unique, so a server of the file is the one that is found. -/
theorem findServer_eq_some (cmds : List CliCommand) {s : SavedServer} :
    ((machine env).run {} cmds).findServer s.name = some s ↔ s ∈ ((machine env).run {} cmds).servers := by
  constructor
  · exact List.mem_of_find?_eq_some
  · intro hMem
    obtain ⟨s', hFound⟩ := Option.isSome_iff_exists.mp (findServer_isSome.mpr (List.mem_map_of_mem hMem))
    have hName : s'.name = s.name := by
      have hTest := List.find?_some hFound
      exact of_decide_eq_true hTest
    rw [hFound, List.inj_on_of_nodup_map (nodup_servers cmds) (List.mem_of_find?_eq_some hFound) hMem hName]

/-- The trust of a server is that of one `--join` of the run, with the identity of
the file. -/
theorem trust_origin (cmds : List CliCommand) : ∀ s ∈ ((machine env).run {} cmds).servers,
    s.trust = SavedServer.noTrust ∨ ∃ pre cmd post, cmds = pre ++ cmd :: post ∧
      Nonempty (CliCommand.Pins env ((machine env).run {} pre) cmd s) ∧
      ((machine env).run {} cmds).identity = ((machine env).run {} pre).identity := by
  induction cmds using List.reverseRecOn with
  | nil => exact fun s hs => absurd hs List.not_mem_nil
  | append_singleton cmds cmd ih =>
    intro s' hs'
    rw [Machine.run_concat] at hs' ⊢
    have hSteps : CliCommand.ServerSteps env ((machine env).run {} cmds) cmd
        ((machine env).next ((machine env).run {} cmds) cmd) := CliCommand.serverSteps_next cmd
    rcases hSteps.origin s' hs' with ⟨s, hs, hName, hTrust⟩ | hNone | hPins
    · rcases ih s hs with hNone | ⟨pre, cmd₀, post, rfl, ⟨hPins⟩, hIdentity⟩
      · exact .inl (hTrust.trans hNone)
      · have hSome : ((machine env).run {} (pre ++ cmd₀ :: post)).identity.isSome := by
          rw [hIdentity]
          exact hPins.joins.identity
        refine .inr ⟨pre, cmd₀, post ++ [cmd], by simp, ⟨?_⟩, (hSteps.identity hSome).trans hIdentity⟩
        exact
          { hPins with
            isJoin := by rw [hName]; exact hPins.isJoin
            joins := by rw [hName]; exact hPins.joins
            trust := hTrust.trans hPins.trust }
    · exact .inl hNone
    · obtain ⟨pins⟩ := hPins
      exact .inr ⟨cmds, cmd, [], rfl, ⟨pins⟩, hSteps.identity pins.joins.identity⟩

/-- A joined server keeps its trust until its address is deleted. -/
theorem trust_stays {s : SavedServer} (hMem : s ∈ c.servers) (hJoined : s.isJoined) (cmds : List CliCommand) :
    (∃ s' ∈ ((machine env).run c cmds).servers, s.Same s') ∨
      ∃ pre cmd post s', cmds = pre ++ cmd :: post ∧ s' ∈ ((machine env).run c pre).servers ∧ s.Same s' ∧
        cmd.Deletes s' := by
  induction cmds using List.reverseRecOn with
  | nil => exact .inl ⟨s, hMem, rfl, rfl⟩
  | append_singleton cmds cmd ih =>
    rcases ih with ⟨s', hs', hName, hTrust⟩ | ⟨pre, cmd₀, post, s', rfl, hs', hSame, hDeletes⟩
    · have hJoined' : s'.isJoined := by
        have hCert : s'.deviceCert = s.deviceCert := congrArg (·.2.1) hTrust
        unfold SavedServer.isJoined
        rw [hCert]
        exact hJoined
      rcases (CliCommand.serverSteps_next cmd).stays s' hs' hJoined' with ⟨s'', hs'', hName', hTrust'⟩ | hDeletes
      · rw [Machine.run_concat]
        exact .inl ⟨s'', hs'', hName'.trans hName, hTrust'.trans hTrust⟩
      · exact .inr ⟨cmds, cmd, [], s', rfl, hs', ⟨hName, hTrust⟩, hDeletes⟩
    · exact .inr ⟨pre, cmd₀, post ++ [cmd], s', by simp, hs', hSame, hDeletes⟩

/-- **A JOIN pins its server.** In every run from a new configuration, a server with
a root key or a certificate or a pinned key or a revocation list version has all
four, from one `--join` of the run: of a ServerInfo that verifies under the root it
carries and that was trusted, with the identity that the file still has. They stay
through every further run, under the same name, until its address is deleted. -/
theorem join_pinned (cmds more : List CliCommand) {name : String} {s : SavedServer}
    (hFound : ((machine env).run {} cmds).findServer name = some s) (hTrust : s.trust ≠ SavedServer.noTrust) :
    (∃ pre cmd post, cmds = pre ++ cmd :: post ∧
      Nonempty (CliCommand.Pins env ((machine env).run {} pre) cmd s) ∧
      ((machine env).run {} cmds).identity = ((machine env).run {} pre).identity) ∧
    ((∃ s', ((machine env).run {} (cmds ++ more)).findServer name = some s' ∧ s'.trust = s.trust) ∨
      ∃ pre cmd post s', more = pre ++ cmd :: post ∧
        ((machine env).run {} (cmds ++ pre)).findServer name = some s' ∧ s'.trust = s.trust ∧ cmd.Deletes s') := by
  have hMem : s ∈ ((machine env).run {} cmds).servers := List.mem_of_find?_eq_some hFound
  have hName : s.name = name := by
    have hTest := List.find?_some hFound
    exact of_decide_eq_true hTest
  obtain ⟨pre, cmd, post, hCmds, ⟨hPins⟩, hIdentity⟩ := (trust_origin cmds s hMem).resolve_left hTrust
  refine ⟨⟨pre, cmd, post, hCmds, ⟨hPins⟩, hIdentity⟩, ?_⟩
  have hJoined : s.isJoined := by
    have hCert : s.deviceCert = some hPins.cert := congrArg (·.2.1) hPins.trust
    unfold SavedServer.isJoined
    rw [hCert]
    rfl
  subst hName
  rcases trust_stays hMem hJoined more with
    ⟨s', hs', hSame, hKept⟩ | ⟨pre, cmd, post, s', hMore, hs', ⟨hSame, hKept⟩, hDeletes⟩
  · rw [← Machine.run_append] at hs'
    rw [← hSame]
    exact .inl ⟨s', (findServer_eq_some _).mpr hs', hKept⟩
  · rw [← Machine.run_append] at hs'
    rw [← hSame]
    exact .inr ⟨pre, cmd, post, s', hMore, (findServer_eq_some _).mpr hs', hKept, hDeletes⟩

theorem join_pinned_sample : ∃ s, ((machine exampleCliEnv).run {} exampleCommands).findServer "lab" = some s ∧
    s.trust ≠ SavedServer.noTrust ∧ ∃ pre cmd post, exampleCommands = pre ++ cmd :: post ∧
      Nonempty (CliCommand.Pins exampleCliEnv ((machine exampleCliEnv).run {} pre) cmd s) := by
  have hJoined : (((machine exampleCliEnv).run {} exampleCommands).findServer "lab").any
      (·.trust ≠ SavedServer.noTrust) = true := by decide +kernel
  obtain ⟨s, hFound, hTrust⟩ := (Option.any_eq_true ..).mp hJoined
  have hTrust : s.trust ≠ SavedServer.noTrust := of_decide_eq_true hTrust
  obtain ⟨pre, cmd, post, hCmds, hPins, _⟩ := (join_pinned exampleCommands [] hFound hTrust).1
  exact ⟨s, hFound, hTrust, pre, cmd, post, hCmds, hPins⟩

end ClientFile

end LinkMesh
