import LinkMesh.Basis.Lowercase
import LinkMesh.Client.CrlVersion
import LinkMesh.Client.Names
import LinkMesh.Mesh.Enrolment

/-!
# The configuration of a client

`client.json` (`linkmesh-client/src/config.rs`): the identity of the device, its
network cards, servers, connections and aliases. `validate` runs before a
connection is made and when the daemon starts.

## Results

* `validate_eq_ok` — what a configuration that is accepted satisfies.
-/

namespace LinkMesh

open Std

-- ---------------------------------------------------------------------------
-- The file
-- ---------------------------------------------------------------------------

/-- `KeyPairSerde`: an X25519 key pair as base64 texts. -/
structure KeyPairText where
  publicKey : String
  privateKey : String
  deriving DecidableEq, Repr

/-- `DeviceIdentitySerde` -/
structure DeviceIdentity where
  ikX : KeyPairText
  ikS : SignKeyPair
  deriving DecidableEq, Repr

structure VmNicConfig where
  name : String
  /-- a placeholder until the server assigns one -/
  ip : String
  mtu : Nat := 1280
  deriving DecidableEq, Repr

/-- `ServerEntry` with its address and the token of its room. -/
structure SavedServer extends ServerEntry where
  endpoint : String
  token : Option String
  deriving DecidableEq, Repr

structure ConnectionEntry where
  server : String
  vmNic : String
  deriving DecidableEq, Repr

/-- `ClientConfig`, as far as it is checked here and written by the commands. -/
structure ClientFile where
  identity : Option DeviceIdentity := none
  vmNics : List VmNicConfig := []
  servers : List SavedServer := []
  connections : List ConnectionEntry := []
  aliases : AliasTable := ∅
  dnsPort : Nat := 5353
  punchTimeoutMs : Nat := 5000
  punchIntervalMs : Nat := 250

/-- What the commands call. -/
structure CliEnv where
  mesh : MeshEnv
  /-- for `str::to_lowercase` -/
  caseTables : CaseTables
  /-- `{:?}` of a `str` -/
  debugText : String → String

def isAliasChar (c : Char) : Bool := c.isLower || c.isDigit || c == '-' || c == '_'

/-- `normalize_alias`: lower case, 1 to 32 bytes of `[a-z0-9_-]`. -/
def normalizeAlias (env : CliEnv) (raw : String) : Except String String :=
  let name := env.caseTables.toLowercase (trim raw)
  if name = "" then .error "别名不能为空"
  else if 32 < (utf8 name).length then .error "别名最长 32 个字符"
  else if !name.toList.all isAliasChar then
    .error s!"别名 {env.debugText name} 非法：只能包含小写字母、数字、- 与 _"
  else .ok name

theorem isAliasChar_ascii {c : Char} (h : isAliasChar c = true) :
    c.toNat < 128 ∧ isWhitespace c = false ∧ c.toLower = c := by
  have hRange : (97 ≤ c.toNat ∧ c.toNat ≤ 122) ∨ (48 ≤ c.toNat ∧ c.toNat ≤ 57) ∨ c = '-' ∨ c = '_' := by
    unfold isAliasChar Char.isLower Char.isDigit at h
    simp only [Bool.or_eq_true, Bool.and_eq_true, decide_eq_true_eq, beq_iff_eq, ge_iff_le,
      UInt32.le_iff_toNat_le, or_assoc] at h
    exact h
  have hMarks : ∀ d : Char, d = '-' ∨ d = '_' → d.toNat = 45 ∨ d.toNat = 95 := by
    rintro d (rfl | rfl)
    · exact .inl rfl
    · exact .inr rfl
  have hNat : (97 ≤ c.toNat ∧ c.toNat ≤ 122) ∨ (48 ≤ c.toNat ∧ c.toNat ≤ 57) ∨ c.toNat = 45 ∨ c.toNat = 95 :=
    hRange.imp_right (Or.imp_right (hMarks c))
  refine ⟨by omega, ?_, ?_⟩
  · unfold isWhitespace
    simp only [Bool.or_eq_false_iff, Bool.and_eq_false_iff, decide_eq_false_iff_not, beq_eq_false_iff_ne]
    omega
  · refine Char.toNat_inj.mp ?_
    rw [Utf8.toNat_toLower]
    split
    · omega
    · rfl

/-- The normal form of an alias is its own normal form. -/
theorem normalizeAlias_normal {env : CliEnv} (hLawful : env.caseTables.Lawful) {raw name : String}
    (h : normalizeAlias env raw = .ok name) : normalizeAlias env name = .ok name := by
  unfold normalizeAlias at h
  dsimp only at h
  generalize env.caseTables.toLowercase (trim raw) = text at h
  split at h
  · cases h
  · rename_i hText
    split at h
    · cases h
    · rename_i hShort
      split at h
      · cases h
      · rename_i hPlain
        cases h
        have hChars : ∀ c ∈ name.toList, isAliasChar c = true := List.all_eq_true.mp (by simpa using hPlain)
        have hTrim : trim name = name := trim_eq_self fun c hc => (isAliasChar_ascii (hChars c hc)).2.1
        have hMap := (CaseTables.lowers_toLowercase (t := env.caseTables) name).eq_map hLawful fun c hc hHigh =>
          absurd (isAliasChar_ascii (hChars c hc)).1 (Nat.not_lt.mpr hHigh)
        have hSame : name.toList.map Char.toLower = name.toList :=
          (List.map_congr_left fun c hc => (isAliasChar_ascii (hChars c hc)).2.2).trans (List.map_id _)
        have hLower : env.caseTables.toLowercase name = name := String.toList_inj.mp (hMap.trans hSame)
        unfold normalizeAlias
        rw [hTrim, hLower]
        dsimp only
        rw [if_neg hText, if_neg hShort, if_neg hPlain]

namespace SavedServer

/-- `ServerEntry::new` -/
def new (name endpoint : String) : SavedServer :=
  { name := name
    endpoint := endpoint
    publicKey := none
    meshRootPub := none
    deviceCert := none
    crlVersion := none
    token := none }

def isJoined (s : SavedServer) : Bool := s.deviceCert.isSome

end SavedServer

namespace ClientFile

def findServer (c : ClientFile) (name : String) : Option SavedServer := c.servers.find? (·.name = name)

def findVmnic (c : ClientFile) (name : String) : Option VmNicConfig := c.vmNics.find? (·.name = name)

def findConnection (c : ClientFile) (server : String) : Option ConnectionEntry :=
  c.connections.find? (·.server = server)

def noIdentity : String := "尚未生成设备身份（identity），请先执行 --genkey"

def publicKey (c : ClientFile) : Except String RawKey :=
  match c.identity with
  | some id => parsePublicKey id.ikX.publicKey
  | none => .error noIdentity

def privateKey (c : ClientFile) : Except String RawKey :=
  match c.identity with
  | some id => parsePublicKey id.ikX.privateKey
  | none => .error noIdentity

def signingPublicB64 (c : ClientFile) : Option String := c.identity.map (·.ikS.publicKey)

def deviceId (env : CliEnv) (c : ClientFile) : Except String String :=
  match c.identity with
  | some id => do
    let ikX ← parsePublicKey id.ikX.publicKey
    let ikS ← parseSigPublic id.ikS.publicKey
    .ok (deviceIdB64 env.mesh ikX ikS)
  | none => .error noIdentity

/-- One identity for each device. -/
def genkey (c : ClientFile) (id : DeviceIdentity) : Except String ClientFile :=
  if c.identity.isSome then .error "本机已存在设备身份（client.json 已配置），不再重复生成"
  else .ok { c with identity := some id }

end ClientFile

-- ---------------------------------------------------------------------------
-- `validate`
-- ---------------------------------------------------------------------------

open Conn (failIf failIf_eq_ok)

/-- `for x in xs { check(x)?; }` -/
def checkEach {α : Type} (check : α → Except String Unit) : List α → Except String Unit
  | [] => .ok ()
  | x :: xs => do
    check x
    checkEach check xs

theorem checkEach_eq_ok {α : Type} {check : α → Except String Unit} {xs : List α} {u : Unit} :
    checkEach check xs = .ok u ↔ ∀ x ∈ xs, check x = .ok () := by
  induction xs with
  | nil => simp [checkEach]
  | cons x xs ih =>
    rw [checkEach, bind_eq_ok, List.forall_mem_cons, ← ih]
    exact ⟨fun ⟨_, hx, hxs⟩ => ⟨hx, hxs⟩, fun ⟨hx, hxs⟩ => ⟨(), hx, hxs⟩⟩

namespace VmNicConfig

def check (env : CliEnv) (n : VmNicConfig) (taken : Bool) : Except String Unit := do
  failIf (n.name = "") "虚拟网卡名称不能为空"
  failIf taken s!"虚拟网卡名称重复: {n.name}"
  failIf (!(68 ≤ n.mtu && n.mtu ≤ 65535)) s!"网卡 {n.name} 的 MTU 越界: {n.mtu}"
  failIf (n.ip ≠ "" && (IpAddr.parse n.ip).isNone)
    s!"网卡 {n.name} 的 IP {env.debugText n.ip} 非法（非空时必须为合法 IP）"

structure Valid (n : VmNicConfig) : Prop where
  name : n.name ≠ ""
  mtu : 68 ≤ n.mtu ∧ n.mtu ≤ 65535
  ip : n.ip = "" ∨ (IpAddr.parse n.ip).isSome

theorem check_eq_ok {env : CliEnv} {n : VmNicConfig} {taken : Bool} {u : Unit} :
    n.check env taken = .ok u ↔ taken = false ∧ n.Valid := by
  unfold check
  simp only [bind_eq_ok, failIf_eq_ok]
  constructor
  · rintro ⟨_, hName, _, hTaken, _, hMtu, hIp⟩
    refine ⟨hTaken, by simpa using hName, by simpa using hMtu, ?_⟩
    rcases Classical.em (n.ip = "") with hBlank | hText
    · exact .inl hBlank
    · exact .inr (by simpa [hText] using hIp)
  · rintro ⟨hTaken, hName, hMtu, hIp⟩
    refine ⟨(), by simpa using hName, (), hTaken, (), by simpa using hMtu, ?_⟩
    rcases hIp with hBlank | hAddr
    · simp [hBlank]
    · simp [Option.isNone_eq_false_iff.mpr hAddr]

end VmNicConfig

namespace SavedServer

def check (env : CliEnv) (s : SavedServer) : Except String Unit := do
  failIf (s.name = "") "服务器名称不能为空"
  failIf (IpAddr.parseSocket s.endpoint).isNone s!"服务器 {s.name} 的地址 {env.debugText s.endpoint} 非法"
  match s.publicKey with
  | some pk => failIf (parsePublicKey pk).toOption.isNone s!"服务器 {s.name} 的公钥格式非法"
  | none => .ok ()

structure Valid (s : SavedServer) : Prop where
  name : s.name ≠ ""
  endpoint : (IpAddr.parseSocket s.endpoint).isSome
  publicKey : ∀ pk, s.publicKey = some pk → ∃ key, parsePublicKey pk = .ok key

theorem check_eq_ok {env : CliEnv} {s : SavedServer} {u : Unit} : s.check env = .ok u ↔ s.Valid := by
  have hKey : ∀ pk, (parsePublicKey pk).toOption.isNone = false ↔ ∃ key, parsePublicKey pk = .ok key := by
    intro pk
    cases parsePublicKey pk <;> simp [Except.toOption]
  unfold check
  simp only [bind_eq_ok, failIf_eq_ok]
  constructor
  · rintro ⟨_, hName, _, hEndpoint, hPk⟩
    refine ⟨by simpa using hName, Option.isNone_eq_false_iff.mp hEndpoint, fun pk hSome => ?_⟩
    rw [hSome] at hPk
    exact (hKey pk).mp (failIf_eq_ok.mp hPk)
  · rintro ⟨hName, hEndpoint, hPk⟩
    refine ⟨(), by simpa using hName, (), Option.isNone_eq_false_iff.mpr hEndpoint, ?_⟩
    split
    · rename_i pk hSome
      exact failIf_eq_ok.mpr ((hKey pk).mpr (hPk pk hSome))
    · rfl

end SavedServer

namespace ClientFile

/-- The names before a card are remembered. -/
def checkNics (env : CliEnv) (names : List String) : List VmNicConfig → Except String Unit
  | [] => .ok ()
  | n :: nics => do
    n.check env (names.contains n.name)
    checkNics env (n.name :: names) nics

def checkAlias (env : CliEnv) (p : String × String) : Except String Unit := do
  failIf (normalizeAlias env p.1).toOption.isNone
    s!"别名 {env.debugText p.1} 非法：只能包含小写字母、数字、- 与 _（最长 32 字符）"
  failIf (IpAddr.parse p.2).isNone s!"别名 {p.1} 的目标 IP {env.debugText p.2} 非法"

def checkConnection (c : ClientFile) (k : ConnectionEntry) : Except String Unit := do
  failIf (c.findServer k.server).isNone s!"连接引用了不存在的服务器 {k.server}"
  failIf (c.findVmnic k.vmNic).isNone s!"连接引用了不存在的虚拟网卡 {k.vmNic}"

/-- The first error. -/
def validate (env : CliEnv) (c : ClientFile) : Except String Unit := do
  checkNics env [] c.vmNics
  checkEach (SavedServer.check env) c.servers
  checkEach (checkAlias env) c.aliases.toList
  failIf (c.dnsPort = 0) "dns.port 必须为 1-65535（0 表示未启用应设 dns.enabled=false）"
  checkEach c.checkConnection c.connections
  failIf (c.punchTimeoutMs = 0) "hole_punch.timeout_ms 必须大于 0"
  failIf (c.punchIntervalMs = 0) "hole_punch.interval_ms 必须大于 0"

/-- An alias under its normal form, for an address. -/
structure AliasValid (env : CliEnv) (name ip : String) : Prop where
  name : ∃ normal, normalizeAlias env name = .ok normal
  ip : (IpAddr.parse ip).isSome

/-- What a connection refers to is there. -/
def Refers (c : ClientFile) (k : ConnectionEntry) : Prop :=
  k.server ∈ c.servers.map (·.name) ∧ k.vmNic ∈ c.vmNics.map (·.name)

structure Valid (env : CliEnv) (c : ClientFile) : Prop where
  nicNames : (c.vmNics.map (·.name)).Nodup
  nics : ∀ n ∈ c.vmNics, n.Valid
  servers : ∀ s ∈ c.servers, s.Valid
  aliases : ∀ (name : String) ip, c.aliases[name]? = some ip → AliasValid env name ip
  dnsPort : c.dnsPort ≠ 0
  connections : ∀ k ∈ c.connections, c.Refers k
  punch : c.punchTimeoutMs ≠ 0 ∧ c.punchIntervalMs ≠ 0

variable {env : CliEnv} {c : ClientFile} {u : Unit}

theorem checkNics_eq_ok {names : List String} {nics : List VmNicConfig} :
    checkNics env names nics = .ok u ↔
      (nics.map (·.name)).Nodup ∧ (∀ n ∈ nics, n.name ∉ names) ∧ ∀ n ∈ nics, n.Valid := by
  induction nics generalizing names with
  | nil => simp [checkNics]
  | cons n nics ih =>
    rw [checkNics, bind_eq_ok]
    simp only [VmNicConfig.check_eq_ok, ih, List.map_cons, List.nodup_cons, List.forall_mem_cons,
      List.contains_eq_mem, decide_eq_false_iff_not]
    constructor
    · rintro ⟨_, ⟨hNew, hValid⟩, hNodup, hOthers, hAll⟩
      refine ⟨⟨?_, hNodup⟩, ⟨hNew, fun m hm hMem => hOthers m hm (List.mem_cons_of_mem _ hMem)⟩, hValid, hAll⟩
      rintro hMem
      obtain ⟨m, hm, hName⟩ := List.mem_map.mp hMem
      exact hOthers m hm (hName ▸ List.mem_cons_self ..)
    · rintro ⟨⟨hFirst, hNodup⟩, ⟨hNew, hOthers⟩, hValid, hAll⟩
      refine ⟨(), ⟨hNew, hValid⟩, hNodup, fun m hm hMem => ?_, hAll⟩
      rcases List.mem_cons.mp hMem with hEq | hOld
      · exact hFirst (hEq ▸ List.mem_map_of_mem hm)
      · exact hOthers m hm hOld

theorem checkAlias_eq_ok {p : String × String} : checkAlias env p = .ok u ↔ AliasValid env p.1 p.2 := by
  have hName : (normalizeAlias env p.1).toOption.isNone = false ↔
      ∃ normal, normalizeAlias env p.1 = .ok normal := by
    cases normalizeAlias env p.1 <;> simp [Except.toOption]
  unfold checkAlias
  simp only [bind_eq_ok, failIf_eq_ok, hName, Option.isNone_eq_false_iff]
  exact ⟨fun ⟨_, hAlias, hIp⟩ => ⟨hAlias, hIp⟩, fun h => ⟨(), h.name, h.ip⟩⟩

theorem findServer_isSome {name : String} : (c.findServer name).isSome ↔ name ∈ c.servers.map (·.name) := by
  unfold findServer
  rw [List.find?_isSome, List.mem_map]
  simp only [decide_eq_true_eq]

theorem findVmnic_isSome {name : String} : (c.findVmnic name).isSome ↔ name ∈ c.vmNics.map (·.name) := by
  unfold findVmnic
  rw [List.find?_isSome, List.mem_map]
  simp only [decide_eq_true_eq]

theorem checkConnection_eq_ok {k : ConnectionEntry} : c.checkConnection k = .ok u ↔ c.Refers k := by
  unfold checkConnection Refers
  simp only [bind_eq_ok, failIf_eq_ok, Option.isNone_eq_false_iff, findServer_isSome, findVmnic_isSome]
  exact ⟨fun ⟨_, hServer, hNic⟩ => ⟨hServer, hNic⟩, fun h => ⟨(), h.1, h.2⟩⟩

theorem validate_eq_ok : c.validate env = .ok u ↔ c.Valid env := by
  have hAliases : (∀ p ∈ c.aliases.toList, AliasValid env p.1 p.2) ↔
      ∀ (name : String) ip, c.aliases[name]? = some ip → AliasValid env name ip := by
    constructor
    · exact fun h name ip hEntry => h (name, ip) (ExtTreeMap.mem_toList_iff_getElem?_eq_some.mpr hEntry)
    · exact fun h p hp => h p.1 p.2 (ExtTreeMap.mem_toList_iff_getElem?_eq_some.mp hp)
  unfold validate
  simp only [bind_eq_ok, failIf_eq_ok, checkEach_eq_ok, checkNics_eq_ok, SavedServer.check_eq_ok,
    checkAlias_eq_ok, checkConnection_eq_ok, hAliases, decide_eq_false_iff_not]
  constructor
  · rintro ⟨_, ⟨hNames, _, hNics⟩, _, hServers, _, hAlias, _, hDns, _, hConnections, _, hTimeout, hInterval⟩
    exact ⟨hNames, hNics, hServers, hAlias, hDns, hConnections, hTimeout, hInterval⟩
  · intro h
    exact ⟨(), ⟨h.nicNames, fun _ _ => List.not_mem_nil, h.nics⟩, (), h.servers, (), h.aliases, (), h.dnsPort,
      (), h.connections, (), h.punch⟩

/-- The configuration of a new client is accepted. -/
theorem valid_default : ({} : ClientFile).Valid env where
  nicNames := List.nodup_nil
  nics := nofun
  servers := nofun
  aliases name ip hEntry := by
    rw [ExtTreeMap.getElem?_empty] at hEntry
    cases hEntry
  dnsPort := by decide
  connections := nofun
  punch := by decide

end ClientFile

end LinkMesh
