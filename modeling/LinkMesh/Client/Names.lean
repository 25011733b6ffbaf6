import LinkMesh.Basis.IpAddr
import LinkMesh.Basis.Machine
import LinkMesh.Basis.TtlMap
import LinkMesh.Wire.Text

/-!
# Names

`DnsRegistry` (`linkmesh-client/src/dns.rs`) and the alias tables of an
`Outbox` (`linkmesh-client/src/connection.rs`). One registry is shared by the
connections of a daemon; each of them has its own copy of the local aliases of
`client.json` and its own learned aliases, and resolves names for the registry.

A resolution that has to ask a server waits for the answer; meanwhile anything
else can happen. The message handlers enter through the aliases they learn.

## Results

* `localFirst_iff`       — local aliases are resolved as the table says iff no
  fresh entry of the cache differs from it.
* `local_first_runs_iff` — they are at every moment of a run iff every step of
  it leaves the cache in agreement.
-/

namespace LinkMesh

open Std TtlMap

/-- `str::to_lowercase` -/
structure NameEnv where
  toLowercase : String → String

/-- `name.trim().to_lowercase()` -/
def NameEnv.normalise (env : NameEnv) (name : String) : String := env.toLowercase (trim name)

/-- `ip.parse::<Ipv4Addr>().is_ok()` -/
def isIpv4 (ip : String) : Bool :=
  match IpAddr.parse ip with
  | some (.v4 _) => true
  | _ => false

/-- `BTreeMap<String, String>`: name → virtual IP, in the order of the names -/
abbrev AliasTable := ExtTreeMap String String

-- ---------------------------------------------------------------------------
-- The registry
-- ---------------------------------------------------------------------------

/-- `CACHE_TTL`, in milliseconds -/
def cacheTtl : Nat := 60000

structure DnsRegistry where
  /-- name → IP and the time of the entry -/
  cache : ExtTreeMap String (String × Nat) := ∅
  /-- the connections that resolve, in the order of their registration -/
  resolvers : List Nat := []

namespace DnsRegistry

def insert (env : NameEnv) (now : Nat) (r : DnsRegistry) (name ip : String) : DnsRegistry :=
  let name := env.normalise name
  if name = "" ∨ !isIpv4 ip then r else { r with cache := r.cache.insert name (ip, now) }

/-- The loops over a table of local aliases. -/
def insertAll (env : NameEnv) (now : Nat) (r : DnsRegistry) (aliases : List (String × String)) :
    DnsRegistry :=
  aliases.foldl (fun r (name, ip) => r.insert env now name ip) r

def register (r : DnsRegistry) (id : Nat) : DnsRegistry := { r with resolvers := r.resolvers ++ [id] }

def unregister (r : DnsRegistry) (id : Nat) : DnsRegistry :=
  { r with resolvers := r.resolvers.filter (· ≠ id) }

end DnsRegistry

-- ---------------------------------------------------------------------------
-- The tables of a connection
-- ---------------------------------------------------------------------------

/-- `LEARNED_TTL`, in milliseconds -/
def learnedTtl : Nat := 300000

/-- `MAX_LEARNED` -/
def maxLearned : Nat := 256

/-- The alias tables of an `Outbox`. -/
structure Aliases where
  localAliases : AliasTable := ∅
  learnedAliases : ExtTreeMap String (String × Nat) := ∅

namespace Aliases

/-- The entry goes in, and another one out when there are too many; `oldest` is
the key that the hash map happens to yield first. -/
def learn (a : Aliases) (now : Nat) (name ip oldest : String) : Aliases :=
  let m := a.learnedAliases.insert name (ip, now)
  { a with learnedAliases := if maxLearned < m.size ∧ oldest ≠ name then m.erase oldest else m }

/-- What `resolve_name` finds before it asks the server. -/
def find? (a : Aliases) (now : Nat) (name : String) : Option String :=
  match a.localAliases[name]? with
  | some ip => some ip
  | none => fresh a.learnedAliases learnedTtl now name

/-- An entry that has gone stale is removed when it is looked up. -/
def forget (a : Aliases) (name : String) : Aliases :=
  { a with learnedAliases := a.learnedAliases.erase name }

end Aliases

-- ---------------------------------------------------------------------------
-- Resolution
-- ---------------------------------------------------------------------------

/-- A resolution that has asked the server of one connection; the connections
after it are those registered when it began. -/
structure Lookup where
  key : String
  asked : Nat
  rest : List Nat
  deriving DecidableEq, Repr

/-- The names a daemon knows. -/
structure Names where
  now : Nat
  dns : DnsRegistry
  conns : Nat → Aliases
  waiting : List Lookup := []
  /-- what resolutions have returned, the last one first -/
  returned : List (String × String) := []

inductive Outcome where
  | found (ip : String)
  | unknown
  | waits
  deriving DecidableEq, Repr

namespace Names

variable (env : NameEnv)

def setConn (s : Names) (i : Nat) (a : Aliases) : Names :=
  { s with conns := Function.update s.conns i a }

/-- `learn_alias` -/
def learnAlias (s : Names) (i : Nat) (name ip oldest : String) : Names :=
  let name := env.normalise name
  if name = "" ∨ (IpAddr.parse ip).isNone then s
  else
    let s := s.setConn i ((s.conns i).learn s.now name ip oldest)
    { s with dns := s.dns.insert env s.now name ip }

/-- The heartbeat of a connection: `client.json` is read again. -/
def reloadAliases (s : Names) (i : Nat) (aliases : AliasTable) : Names :=
  if (s.conns i).localAliases = aliases then s
  else
    let s := s.setConn i { s.conns i with localAliases := aliases }
    { s with dns := s.dns.insertAll env s.now aliases.toList }

/-- `resolve_name`, by the resolver of a connection, for each connection in
turn: what it finds is cached. Asking the server fails at once when a query for
the same key is under way or the query cannot be sent. -/
def tryResolvers (key : String) (fails : Nat → Bool) : List Nat → Names → Names × Outcome
  | [], s => (s, .unknown)
  | i :: rest, s =>
    let name := env.normalise key
    if name = "" then tryResolvers key fails rest s
    else
      match (s.conns i).find? s.now name with
      | some ip =>
        ({ s with dns := { s.dns with cache := s.dns.cache.insert key (ip, s.now) } }, .found ip)
      | none =>
        let s := s.setConn i ((s.conns i).forget name)
        if fails i then tryResolvers key fails rest s
        else ({ s with waiting := s.waiting ++ [{ key := key, asked := i, rest := rest }] }, .waits)

/-- `DnsRegistry::resolve`, up to the question to a server. -/
def resolve (s : Names) (name : String) (fails : Nat → Bool) : Names × Outcome :=
  let key := env.normalise name
  if key = "" then (s, .unknown)
  else
    match fresh s.dns.cache cacheTtl s.now key with
    | some ip => (s, .found ip)
    | none => s.tryResolvers env key fails s.dns.resolvers

/-- The rest of a resolution: the answer is cached, and without one the next
connection is tried. -/
def resume (s : Names) (l : Lookup) (fails : Nat → Bool) : Option String → Names × Outcome
  | some ip =>
    ({ s with dns := { s.dns with cache := s.dns.cache.insert l.key (ip, s.now) } }, .found ip)
  | none => s.tryResolvers env l.key fails l.rest

/-- The result goes to the caller. -/
def logged (key : String) : Names × Outcome → Names
  | (s, .found ip) => { s with returned := (key, ip) :: s.returned }
  | (s, _) => s

end Names

-- ---------------------------------------------------------------------------
-- Runs
-- ---------------------------------------------------------------------------

inductive NameEvent where
  | tick (d : Nat)
  /-- a NOTIFY, or the answer to a query, with an alias -/
  | learn (i : Nat) (name ip oldest : String)
  /-- a heartbeat -/
  | reload (i : Nat) (aliases : AliasTable)
  /-- a connection made from `client.json` registers its resolver -/
  | connect (i : Nat) (aliases : AliasTable)
  | disconnect (i : Nat)
  /-- a DNS query, or `resolve` of the control channel -/
  | ask (name : String) (fails : Nat → Bool)
  /-- the query of a waiting resolution ends -/
  | answer (k : Nat) (result : Option String) (fails : Nat → Bool)

namespace Names

variable (env : NameEnv)

/-- `run_daemon`: the aliases of `client.json` are cached. -/
def start (now : Nat) (aliases : AliasTable) : Names :=
  { now := now
    dns := DnsRegistry.insertAll env now {} aliases.toList
    conns := fun _ => {} }

def connect (s : Names) (i : Nat) (aliases : AliasTable) : Names :=
  let s := s.setConn i { localAliases := aliases }
  { s with dns := s.dns.register i }

def disconnect (s : Names) (i : Nat) : Names := { s with dns := s.dns.unregister i }

def next (s : Names) : NameEvent → Names
  | .tick d => { s with now := s.now + d }
  | .learn i name ip oldest => s.learnAlias env i name ip oldest
  | .reload i aliases => if i ∈ s.dns.resolvers then s.reloadAliases env i aliases else s
  | .connect i aliases => if i ∈ s.dns.resolvers then s else s.connect i aliases
  | .disconnect i => s.disconnect i
  | .ask name fails => logged (env.normalise name) (s.resolve env name fails)
  | .answer k result fails =>
    match s.waiting[k]? with
    | some l => logged l.key ({ s with waiting := s.waiting.eraseIdx k }.resume env l fails result)
    | none => s

def machine : Machine Names NameEvent where
  init s := ∃ now aliases, s = start env now aliases
  enabled s e :=
    match e with
    | .reload i _ => i ∈ s.dns.resolvers
    | .connect i _ => i ∉ s.dns.resolvers
    | .disconnect i => i ∈ s.dns.resolvers
    | .answer k _ _ => k < s.waiting.length
    | _ => True
  next := next env

@[simp] theorem machine_next (s : Names) (e : NameEvent) : (machine env).next s e = s.next env e := rfl

-- ---------------------------------------------------------------------------
-- Local aliases first
-- ---------------------------------------------------------------------------

/-- The local alias table, which each connection has a copy of, maps the
normalised name to the IPv4 address. -/
structure Maps (s : Names) (n p : String) : Prop where
  connected : s.dns.resolvers ≠ []
  table : ∀ i ∈ s.dns.resolvers, (s.conns i).localAliases[n]? = some p
  normal : env.normalise n = n
  nonempty : n ≠ ""
  ipv4 : isIpv4 p = true

/-- Whatever the table maps is resolved as the table says. -/
def LocalFirst (s : Names) : Prop :=
  ∀ n p, Maps env s n p → ∀ name fails, env.normalise name = n → (s.resolve env name fails).2 = .found p

/-- What the cache has for a name. -/
def cached (s : Names) (n : String) : Option String := fresh s.dns.cache cacheTtl s.now n

/-- No fresh entry of the cache differs from the local alias table. -/
def CacheAgrees (s : Names) : Prop := ∀ n p, Maps env s n p → ∀ ip, s.cached n = some ip → ip = p

variable {env} {s s' : Names} {n p key ip : String} {fails : Nat → Bool} {i : Nat}

theorem maps_congr (hResolvers : s'.dns.resolvers = s.dns.resolvers)
    (hLocal : ∀ i, (s'.conns i).localAliases = (s.conns i).localAliases) :
    Maps env s' n p ↔ Maps env s n p := by
  constructor
  · intro h
    exact ⟨hResolvers ▸ h.connected, fun i hi => by rw [← hLocal]; exact h.table i (hResolvers ▸ hi),
      h.normal, h.nonempty, h.ipv4⟩
  · intro h
    exact ⟨hResolvers ▸ h.connected, fun i hi => by rw [hLocal]; exact h.table i (hResolvers ▸ hi),
      h.normal, h.nonempty, h.ipv4⟩

/-- The first of the connections asked has the alias in its table. -/
theorem tryResolvers_of_local {rest : List Nat} (hNormal : env.normalise key = key) (hKey : key ≠ "")
    (hLocal : (s.conns i).localAliases[key]? = some p) :
    (s.tryResolvers env key fails (i :: rest)).2 = .found p := by
  have hFind : (s.conns i).find? s.now key = some p := by
    unfold Aliases.find?
    rw [hLocal]
  unfold tryResolvers
  simp only [hNormal, if_neg hKey, hFind]

/-- Local aliases come first iff no fresh entry of the cache says otherwise. -/
theorem localFirst_iff : LocalFirst env s ↔ CacheAgrees env s := by
  constructor
  · intro h n p hMaps ip hCached
    have hFound := h n p hMaps n (fun _ => false) hMaps.normal
    unfold resolve at hFound
    simp only [hMaps.normal, if_neg hMaps.nonempty] at hFound
    rw [show fresh s.dns.cache cacheTtl s.now n = some ip from hCached] at hFound
    exact Outcome.found.inj hFound
  · intro h n p hMaps name fails hName
    unfold resolve
    simp only [hName, if_neg hMaps.nonempty]
    split
    · rename_i ip hCached
      exact congrArg Outcome.found (h n p hMaps ip hCached)
    · obtain ⟨i, rest, hResolvers⟩ := List.exists_cons_of_ne_nil hMaps.connected
      rw [hResolvers]
      exact tryResolvers_of_local hMaps.normal hMaps.nonempty
        (hMaps.table i (hResolvers ▸ List.mem_cons_self ..))

-- ---------------------------------------------------------------------------
-- What the steps do to the cache
-- ---------------------------------------------------------------------------

/-- The entry that is fresh after one was written. -/
theorem cached_of_insert (hNow : s'.now = s.now)
    (hCache : s'.dns.cache = s.dns.cache.insert key (ip, s.now)) :
    s'.cached n = if n = key then some ip else s.cached n := by
  unfold cached
  rw [hNow, hCache]
  exact fresh_insert (by decide)

/-- Agreement is kept where neither the table nor the cache gains an entry. -/
theorem cacheAgrees_of_cached (h : CacheAgrees env s) (hMaps : ∀ n p, Maps env s' n p → Maps env s n p)
    (hCached : ∀ n, s'.cached n = s.cached n) : CacheAgrees env s' := by
  intro n p hMap ip hIp
  rw [hCached] at hIp
  exact h n p (hMaps n p hMap) ip hIp

/-- A new entry agrees with the table iff the table does not map its name to
another address. -/
theorem cacheAgrees_insert (h : CacheAgrees env s) (hMaps : ∀ n p, Maps env s' n p ↔ Maps env s n p)
    (hCached : ∀ n, s'.cached n = if n = key then some ip else s.cached n) :
    CacheAgrees env s' ↔ ∀ p, Maps env s key p → ip = p := by
  constructor
  · intro h' p hMap
    exact h' key p ((hMaps key p).mpr hMap) ip ((hCached key).trans (if_pos rfl))
  · intro hKey n p hMap ip' hIp
    rw [hMaps] at hMap
    rw [hCached] at hIp
    split at hIp
    · rename_i hEq
      cases hIp
      exact hKey p (hEq ▸ hMap)
    · exact h n p hMap ip' hIp

/-- The first connection whose tables have the name, up to the first one that
can ask its server. -/
def firstKnown (env : NameEnv) (s : Names) (key : String) (fails : Nat → Bool) :
    List Nat → Option String
  | [] => none
  | i :: rest =>
    if env.normalise key = "" then none
    else
      match (s.conns i).find? s.now (env.normalise key) with
      | some ip => some ip
      | none => if fails i then firstKnown env s key fails rest else none

@[simp] theorem find?_forget {a : Aliases} {now : Nat} {name : String}
    (h : a.find? now name = none) : (a.forget name).find? now name = none := by
  unfold Aliases.find? Aliases.forget at *
  split
  · rename_i ip hLocal
    rw [hLocal] at h
    exact h
  · rw [fresh_erase]
    exact if_pos rfl

theorem firstKnown_congr {is : List Nat}
    (hFind : ∀ i, (s'.conns i).find? s'.now (env.normalise key) =
      (s.conns i).find? s.now (env.normalise key)) :
    firstKnown env s' key fails is = firstKnown env s key fails is := by
  induction is with
  | nil => rfl
  | cons i rest ih =>
    unfold firstKnown
    rw [hFind, ih]

/-- Forgetting a stale entry changes nothing that can be found. -/
theorem find?_setConn_forget {name : String} (hStale : (s.conns i).find? s.now name = none) (j : Nat) :
    ((s.setConn i ((s.conns i).forget name)).conns j).find? s.now name =
      (s.conns j).find? s.now name := by
  unfold setConn
  by_cases hj : j = i
  · subst hj
    rw [hStale]
    dsimp only
    rw [Function.update_self]
    exact find?_forget hStale
  · dsimp only
    rw [Function.update_of_ne hj]

/-- Updating a connection without touching its local aliases. -/
theorem setConn_local {a : Aliases} (hLocal : a.localAliases = (s.conns i).localAliases) (j : Nat) :
    ((s.setConn i a).conns j).localAliases = (s.conns j).localAliases := by
  unfold setConn
  by_cases hj : j = i
  · subst hj
    dsimp only
    rw [Function.update_self]
    exact hLocal
  · dsimp only
    rw [Function.update_of_ne hj]

/-- What trying the connections does: it may remove stale entries, cache what
is found and leave a resolution waiting. -/
structure Tried (env : NameEnv) (s s' : Names) (key : String) (fails : Nat → Bool) (is : List Nat) :
    Prop where
  now : s'.now = s.now
  resolvers : s'.dns.resolvers = s.dns.resolvers
  locals : ∀ i, (s'.conns i).localAliases = (s.conns i).localAliases
  cache : s'.dns.cache =
    match firstKnown env s key fails is with
    | some ip => s.dns.cache.insert key (ip, s.now)
    | none => s.dns.cache

theorem tried_tryResolvers (env : NameEnv) (key : String) (fails : Nat → Bool) (is : List Nat)
    (s : Names) : Tried env s (s.tryResolvers env key fails is).1 key fails is := by
  induction is generalizing s with
  | nil => exact ⟨rfl, rfl, fun _ => rfl, rfl⟩
  | cons i rest ih =>
    unfold tryResolvers
    dsimp only
    split
    · rename_i hEmpty
      have hRest := ih s
      have hNone : ∀ is, firstKnown env s key fails is = none := by
        intro is
        unfold firstKnown
        split
        · rfl
        · exact if_pos hEmpty
      refine ⟨hRest.now, hRest.resolvers, hRest.locals, hRest.cache.trans ?_⟩
      rw [hNone, hNone]
    · rename_i hNonempty
      split
      · rename_i ip hFound
        refine ⟨rfl, rfl, fun _ => rfl, ?_⟩
        unfold firstKnown
        rw [if_neg hNonempty, hFound]
      · rename_i hStale
        have hHead : firstKnown env s key fails (i :: rest) =
            if fails i then firstKnown env s key fails rest else none := by
          conv_lhs => unfold firstKnown
          rw [if_neg hNonempty, hStale]
        split
        · rename_i hFails
          have hRest := ih (s.setConn i ((s.conns i).forget (env.normalise key)))
          have hSame : firstKnown env (s.setConn i ((s.conns i).forget (env.normalise key))) key fails
              rest = firstKnown env s key fails rest := firstKnown_congr (find?_setConn_forget hStale)
          refine ⟨hRest.now, hRest.resolvers,
            fun j => (hRest.locals j).trans
              (setConn_local (a := (s.conns i).forget (env.normalise key)) rfl j), hRest.cache.trans ?_⟩
          rw [hSame, hHead, if_pos hFails]
          rfl
        · rename_i hAsks
          refine ⟨rfl, rfl, setConn_local rfl, ?_⟩
          rw [hHead, if_neg hAsks]
          rfl

/-- What a resolution does to the cache of the names in the table. -/
theorem cacheAgrees_tried {is : List Nat} (h : CacheAgrees env s)
    (hTried : Tried env s s' key fails is) :
    CacheAgrees env s' ↔
      ∀ ip, firstKnown env s key fails is = some ip → ∀ p, Maps env s key p → ip = p := by
  have hMaps : ∀ n p, Maps env s' n p ↔ Maps env s n p :=
    fun n p => maps_congr hTried.resolvers hTried.locals
  have hCache := hTried.cache
  split at hCache
  · rename_i ip hKnown
    rw [cacheAgrees_insert h hMaps fun n => cached_of_insert hTried.now hCache, hKnown]
    simp
  · rename_i hNone
    have hCached : ∀ n, s'.cached n = s.cached n := by
      intro n
      unfold cached
      rw [hTried.now, hCache]
    rw [hNone]
    exact iff_of_true (cacheAgrees_of_cached h (fun n p => (hMaps n p).mp) hCached) (by simp)

/-- The address that the last entry for a name has in a list of aliases. -/
def lastSpelled (env : NameEnv) (n : String) (aliases : List (String × String)) : Option String :=
  (aliases.reverse.find? fun (name, ip) => env.normalise name = n ∧ isIpv4 ip).map (·.2)

theorem insertAll_resolvers {now : Nat} {r : DnsRegistry} {aliases : List (String × String)} :
    (r.insertAll env now aliases).resolvers = r.resolvers := by
  induction aliases generalizing r with
  | nil => rfl
  | cons a rest ih =>
    refine (ih (r := r.insert env now a.1 a.2)).trans ?_
    unfold DnsRegistry.insert
    dsimp only
    split
    · rfl
    · rfl

/-- Caching a list of aliases leaves the last entry for a name. -/
theorem insertAll_cache (hn : n ≠ "") {now : Nat} {r : DnsRegistry} (aliases : List (String × String)) :
    (r.insertAll env now aliases).cache[n]? =
      match lastSpelled env n aliases with
      | some ip => some (ip, now)
      | none => r.cache[n]? := by
  induction aliases using List.reverseRecOn with
  | nil => rfl
  | append_singleton aliases a ih =>
    have hStep : r.insertAll env now (aliases ++ [a]) =
        (r.insertAll env now aliases).insert env now a.1 a.2 := by
      unfold DnsRegistry.insertAll
      rw [List.foldl_append]
      rfl
    have hLast : lastSpelled env n (aliases ++ [a]) =
        if env.normalise a.1 = n ∧ isIpv4 a.2 then some a.2 else lastSpelled env n aliases := by
      unfold lastSpelled
      rw [List.reverse_append, List.reverse_singleton, List.singleton_append, List.find?_cons]
      by_cases hSpells : env.normalise a.1 = n ∧ isIpv4 a.2
      · simp [hSpells]
      · simp [hSpells]
    rw [hStep, hLast]
    unfold DnsRegistry.insert
    dsimp only
    split
    · rename_i hIgnored
      rw [if_neg, ih]
      rintro ⟨rfl, hIp⟩
      rcases hIgnored with hEmpty | hNot
      · exact hn hEmpty
      · simp [hIp] at hNot
    · rename_i hTaken
      dsimp only
      rw [KeyMap.getElem?_insert, ih]
      by_cases hName : n = env.normalise a.1
      · have hIp : isIpv4 a.2 = true := by
          by_contra hNot
          exact hTaken (.inr (by simpa using hNot))
        rw [if_pos hName, if_pos ⟨hName.symm, hIp⟩]
      · rw [if_neg hName, if_neg fun h => hName h.1.symm]

theorem mem_of_lastSpelled {aliases : List (String × String)} (h : lastSpelled env n aliases = some ip) :
    ∃ name, (name, ip) ∈ aliases := by
  obtain ⟨⟨name, q⟩, hFind, rfl⟩ := Option.map_eq_some_iff.mp h
  exact ⟨name, List.mem_reverse.mp (List.mem_of_find?_eq_some hFind)⟩

-- ---------------------------------------------------------------------------
-- Runs
-- ---------------------------------------------------------------------------

/-- What the rest of a resolution finds is what the local aliases say. -/
def ResumesAs (env : NameEnv) (s : Names) (l : Lookup) (fails : Nat → Bool) : Option String → Prop
  | some ip => ∀ p, Maps env s l.key p → ip = p
  | none => ∀ ip, firstKnown env s l.key fails l.rest = some ip → ∀ p, Maps env s l.key p → ip = p

/-- The step leaves the cache in agreement with the local aliases. -/
def Agrees (env : NameEnv) (s : Names) : NameEvent → Prop
  -- nobody announces a local alias for another address
  | .learn _ name ip _ =>
    env.normalise name ≠ "" → isIpv4 ip →
      ∀ p, Maps env s (env.normalise (env.normalise name)) p → ip = p
  -- no name of the new table has a second spelling
  | .reload i aliases =>
    i ∈ s.dns.resolvers → (s.conns i).localAliases ≠ aliases →
      ∀ n p, Maps env (s.reloadAliases env i aliases) n p →
        ∀ ip, lastSpelled env n aliases.toList = some ip → ip = p
  -- the cache has no other address yet
  | .connect i aliases =>
    i ∉ s.dns.resolvers →
      ∀ n p, Maps env (s.connect i aliases) n p → ∀ ip, s.cached n = some ip → ip = p
  | .disconnect i =>
    ∀ n p, Maps env (s.disconnect i) n p → ∀ ip, s.cached n = some ip → ip = p
  -- the name did not become a local alias after the question was put
  | .answer k result fails => ∀ l, s.waiting[k]? = some l → ResumesAs env s l fails result
  | .tick _ => True
  | .ask .. => True

theorem insert_resolvers (env : NameEnv) (now : Nat) (r : DnsRegistry) (name ip : String) :
    (r.insert env now name ip).resolvers = r.resolvers := by
  unfold DnsRegistry.insert
  dsimp only
  split
  · rfl
  · rfl

theorem cacheAgrees_congr (hNow : s'.now = s.now) (hDns : s'.dns = s.dns) (hConns : s'.conns = s.conns) :
    CacheAgrees env s' ↔ CacheAgrees env s := by
  have hMaps : ∀ n p, Maps env s' n p ↔ Maps env s n p :=
    fun n p => maps_congr (by rw [hDns]) (fun i => by rw [hConns])
  unfold CacheAgrees cached
  simp only [hMaps, hNow, hDns]

theorem next_connect {aliases : AliasTable} (hFree : i ∉ s.dns.resolvers) :
    s.next env (.connect i aliases) = s.connect i aliases :=
  if_neg hFree

theorem learnAlias_agrees {name oldest : String} (h : CacheAgrees env s) :
    CacheAgrees env (s.learnAlias env i name ip oldest) ↔ Agrees env s (.learn i name ip oldest) := by
  unfold learnAlias Agrees
  dsimp only
  split
  · rename_i hIgnored
    refine iff_of_true h fun hName hIp => ?_
    rcases hIgnored with hEmpty | hNotIp
    · exact absurd hEmpty hName
    · unfold isIpv4 at hIp
      simp [Option.isNone_iff_eq_none.mp hNotIp] at hIp
  · rename_i hTaken
    have hName : env.normalise name ≠ "" := fun hEmpty => hTaken (.inl hEmpty)
    have hMaps : ∀ n p, Maps env { s.setConn i ((s.conns i).learn s.now (env.normalise name) ip oldest)
        with dns := s.dns.insert env s.now (env.normalise name) ip } n p ↔ Maps env s n p :=
      fun n p => maps_congr (insert_resolvers ..) (setConn_local rfl)
    rw [imp_iff_right hName]
    by_cases hCached : env.normalise (env.normalise name) = "" ∨ !isIpv4 ip
    · -- the registry takes no such entry
      have hDns : s.dns.insert env s.now (env.normalise name) ip = s.dns := if_pos hCached
      refine iff_of_true (cacheAgrees_of_cached h (fun n p => (hMaps n p).mp) fun n => ?_) ?_
      · show fresh (s.dns.insert env s.now (env.normalise name) ip).cache cacheTtl s.now n = _
        rw [hDns]
        rfl
      · intro hIp p hMap
        rcases hCached with hEmpty | hNot
        · exact absurd hEmpty hMap.nonempty
        · simp [hIp] at hNot
    · have hDns : (s.dns.insert env s.now (env.normalise name) ip).cache =
          s.dns.cache.insert (env.normalise (env.normalise name)) (ip, s.now) := by
        unfold DnsRegistry.insert
        dsimp only
        rw [if_neg hCached]
      have hIp : isIpv4 ip = true := by
        by_contra hNot
        exact hCached (.inr (by simpa using hNot))
      rw [imp_iff_right hIp]
      exact cacheAgrees_insert h hMaps fun n => cached_of_insert rfl hDns

theorem reloadAliases_agrees {aliases : AliasTable}
    (hi : i ∈ s.dns.resolvers) (hNew : (s.conns i).localAliases ≠ aliases) :
    CacheAgrees env (s.reloadAliases env i aliases) ↔ Agrees env s (.reload i aliases) := by
  have hReload : s.reloadAliases env i aliases =
      { s.setConn i { s.conns i with localAliases := aliases } with
        dns := s.dns.insertAll env s.now aliases.toList } := if_neg hNew
  have hCached : ∀ n p, Maps env (s.reloadAliases env i aliases) n p → ∀ ip,
      (s.reloadAliases env i aliases).cached n = some ip ↔
        lastSpelled env n aliases.toList = some ip := by
    intro n p hMap ip
    have hRegistered : i ∈ (s.reloadAliases env i aliases).dns.resolvers := by
      rw [hReload]
      show i ∈ (s.dns.insertAll env s.now aliases.toList).resolvers
      rw [insertAll_resolvers]
      exact hi
    have hTable : aliases[n]? = some p := by
      have hSelf := hMap.table i hRegistered
      rw [hReload] at hSelf
      have hConn : ((s.setConn i { s.conns i with localAliases := aliases }).conns i) =
          { s.conns i with localAliases := aliases } := Function.update_self ..
      rw [← hSelf]
      exact congrArg (fun a : Aliases => a.localAliases[n]?) hConn.symm
    have hSpelled : lastSpelled env n aliases.toList ≠ none := by
      intro hNone
      unfold lastSpelled at hNone
      rw [Option.map_eq_none_iff, List.find?_eq_none] at hNone
      have hEntry := hNone (n, p)
        (List.mem_reverse.mpr (ExtTreeMap.mem_toList_iff_getElem?_eq_some.mpr hTable))
      simp [hMap.normal, hMap.ipv4] at hEntry
    have hCache : (s.dns.insertAll env s.now aliases.toList).cache[n]? =
        match lastSpelled env n aliases.toList with
        | some ip => some (ip, s.now)
        | none => s.dns.cache[n]? := insertAll_cache hMap.nonempty _
    rw [hReload]
    unfold cached fresh
    dsimp only
    rw [hCache]
    match hLast : lastSpelled env n aliases.toList, hSpelled with
    | some q, _ => simp [setConn, cacheTtl]
  dsimp only [Agrees]
  rw [imp_iff_right hi, imp_iff_right hNew]
  constructor
  · intro hAfter n p hMap ip hLast
    exact hAfter n p hMap ip ((hCached n p hMap ip).mpr hLast)
  · intro hLast n p hMap ip hIp
    exact hLast n p hMap ip ((hCached n p hMap ip).mp hIp)

/-- A resolution leaves the local aliases to themselves. -/
theorem resolve_agrees {name : String} (h : CacheAgrees env s) :
    CacheAgrees env (s.resolve env name fails).1 := by
  unfold resolve
  dsimp only
  split
  · exact h
  · split
    · exact h
    · refine (cacheAgrees_tried h (tried_tryResolvers ..)).mpr ?_
      intro ip hKnown p hMap
      obtain ⟨i, rest, hResolvers⟩ := List.exists_cons_of_ne_nil hMap.connected
      have hLocal := hMap.table i (hResolvers ▸ List.mem_cons_self ..)
      have hFirst : firstKnown env s (env.normalise name) fails (i :: rest) = some p := by
        unfold firstKnown Aliases.find?
        rw [hMap.normal, if_neg hMap.nonempty, hLocal]
      rw [hResolvers, hFirst] at hKnown
      exact (Option.some.inj hKnown).symm

theorem resume_agrees {l : Lookup} {result : Option String} (h : CacheAgrees env s) :
    CacheAgrees env (s.resume env l fails result).1 ↔ ResumesAs env s l fails result := by
  match result with
  | some ip =>
    exact cacheAgrees_insert h (fun n p => maps_congr (s := s) rfl fun _ => rfl)
      fun n => cached_of_insert (s := s) rfl rfl
  | none => exact cacheAgrees_tried h (tried_tryResolvers ..)

@[simp] theorem cacheAgrees_logged {r : Names × Outcome} :
    CacheAgrees env (logged key r) ↔ CacheAgrees env r.1 := by
  unfold logged
  split
  · exact cacheAgrees_congr rfl rfl rfl
  · exact Iff.rfl

theorem cacheAgrees_next {e : NameEvent} (h : CacheAgrees env s) :
    CacheAgrees env (s.next env e) ↔ Agrees env s e := by
  match e with
  | .tick d =>
    refine iff_of_true ?_ trivial
    intro n p hMap ip hIp
    have hMaps : Maps env (s.next env (.tick d)) n p ↔ Maps env s n p := maps_congr rfl fun _ => rfl
    exact h n p (hMaps.mp hMap) ip (fresh_of_later hIp)
  | .learn i name ip oldest => exact learnAlias_agrees h
  | .reload i aliases =>
    dsimp only [next]
    split
    · rename_i hi
      by_cases hSame : (s.conns i).localAliases = aliases
      · rw [show s.reloadAliases env i aliases = s from if_pos hSame]
        exact iff_of_true h fun _ hNew => absurd hSame hNew
      · exact reloadAliases_agrees hi hSame
    · rename_i hi
      exact iff_of_true h fun hMem => absurd hMem hi
  | .connect i aliases =>
    dsimp only [Agrees]
    by_cases hi : i ∈ s.dns.resolvers
    · rw [show s.next env (.connect i aliases) = s from if_pos hi]
      exact iff_of_true h fun hFree => absurd hi hFree
    · rw [next_connect hi, imp_iff_right hi]
      exact Iff.rfl
  | .disconnect i => exact Iff.rfl
  | .ask name fails =>
    dsimp only [next, Agrees]
    rw [cacheAgrees_logged]
    exact iff_of_true (resolve_agrees h) trivial
  | .answer k result fails =>
    dsimp only [next]
    split
    · rename_i l hWaiting
      rw [cacheAgrees_logged]
      have hTaken : CacheAgrees env { s with waiting := s.waiting.eraseIdx k } ↔ CacheAgrees env s :=
        cacheAgrees_congr rfl rfl rfl
      rw [resume_agrees (hTaken.mpr h)]
      have hMaps : ∀ p, Maps env { s with waiting := s.waiting.eraseIdx k } l.key p ↔
          Maps env s l.key p := fun p => maps_congr (s := s) rfl fun _ => rfl
      have hSame : ResumesAs env { s with waiting := s.waiting.eraseIdx k } l fails result ↔
          ResumesAs env s l fails result := by
        unfold ResumesAs
        split
        · simp only [hMaps]
        · have hKnown : firstKnown env { s with waiting := s.waiting.eraseIdx k } l.key fails l.rest =
              firstKnown env s l.key fails l.rest := firstKnown_congr fun _ => rfl
          simp only [hMaps, hKnown]
      rw [hSame]
      dsimp only [Agrees]
      simp only [hWaiting, Option.some.injEq, forall_eq']
    · rename_i hNone
      exact iff_of_true h fun l hWaiting => by simp [hWaiting] at hNone

end Names

def exampleNameEnv : NameEnv where
  toLowercase s := s

/-- The user calls 10.13.13.5 `nas`. -/
def exampleAliases : AliasTable := (∅ : AliasTable).insert "nas" "10.13.13.5"

namespace Names

theorem exampleAliases_getElem? {n q : String} (h : exampleAliases[n]? = some q) : q = "10.13.13.5" := by
  unfold exampleAliases at h
  rw [KeyMap.getElem?_insert] at h
  split at h
  · exact (Option.some.inj h).symm
  · simp at h

/-- A connection with this table, in a daemon that has cached it. -/
def exampleNames : Names := connect (start exampleNameEnv 0 exampleAliases) 0 exampleAliases

theorem exampleNames_agrees : CacheAgrees exampleNameEnv exampleNames := by
  intro n p hMap ip hCached
  have hTable : exampleAliases[n]? = some p :=
    hMap.table 0 (List.mem_append_right _ (List.mem_singleton_self 0))
  obtain ⟨t, hEntry, _⟩ := fresh_eq_some.mp hCached
  have hEntry : (DnsRegistry.insertAll exampleNameEnv 0 {} exampleAliases.toList).cache[n]? =
      some (ip, t) := hEntry
  rw [insertAll_cache hMap.nonempty] at hEntry
  split at hEntry
  · rename_i q hLast
    obtain ⟨name, hMem⟩ := mem_of_lastSpelled hLast
    cases hEntry
    rw [exampleAliases_getElem? hTable,
      exampleAliases_getElem? (ExtTreeMap.mem_toList_iff_getElem?_eq_some.mp hMem)]
  · simp at hEntry

theorem exampleNames_maps : Maps exampleNameEnv exampleNames "nas" "10.13.13.5" := by
  have hResolvers : exampleNames.dns.resolvers = [0] :=
    congrArg (· ++ [0]) (insertAll_resolvers (r := {}))
  refine ⟨by simp [hResolvers], ?_, by decide, by decide, by decide⟩
  intro i hi
  rw [hResolvers] at hi
  obtain rfl : i = 0 := List.mem_singleton.mp hi
  exact ExtTreeMap.getElem?_insert_self

end Names

end LinkMesh
