import LinkMesh.Basis.KeyMap
import LinkMesh.Basis.Machine
import LinkMesh.Client.Crypto

/-!
# The route table

`RouteTable` in `linkmesh-server/src/signaling.rs`: online devices by public
key, with an index by virtual IP and one by relay routing key (`relay_rk`).
The functions follow the source map operation by map operation.

## Results

* `relayRk_index_iff` — the relay-key index is exact in every state of a call
  sequence iff no upsert claims a bound relay key and none takes an IP over
  from an entry that has a relay key.
-/

namespace LinkMesh

open Std KeyMap

/-- Route entry: public key → virtual IP, endpoint, relay routing key. -/
structure RouteEntry where
  publicKey : RawKey
  ip : String
  /-- `ip:port` text -/
  endpoint : String
  lastSeen : Nat
  relayRk : Option String
  room : String
  aliasName : Option String
  deriving DecidableEq, Repr

structure RouteTable where
  byKey : ExtTreeMap RawKey RouteEntry := ∅
  byIp : ExtTreeMap String RawKey := ∅
  byRk : ExtTreeMap String RawKey := ∅

namespace RouteTable

/-- What `upsert` drops of the entry it replaces: the IP binding if the IP
changes, the relay-key binding in any case. -/
def dropOld (t : RouteTable) (entry : RouteEntry) : RouteTable :=
  match t.byKey[entry.publicKey]? with
  | some old =>
    { t with
      byIp := if old.ip ≠ entry.ip then t.byIp.erase old.ip else t.byIp
      byRk := eraseSome t.byRk old.relayRk }
  | none => t

/-- The IP is bound to the new entry; another key that held it loses its entry. -/
def bindIp (t : RouteTable) (entry : RouteEntry) : RouteTable :=
  if entry.ip = "" then
    match t.byKey[entry.publicKey]? with
    | some old => { t with byIp := t.byIp.erase old.ip }
    | none => t
  else
    { t with
      byKey :=
        match t.byIp[entry.ip]? with
        | some oldKey => if oldKey ≠ entry.publicKey then t.byKey.erase oldKey else t.byKey
        | none => t.byKey
      byIp := t.byIp.insert entry.ip entry.publicKey }

/-- A relay key held by another public key keeps its binding. -/
def claimRk (t : RouteTable) (entry : RouteEntry) : RouteTable :=
  match entry.relayRk with
  | some rk =>
    match t.byRk[rk]? with
    | some existing =>
      if existing ≠ entry.publicKey then t
      else { t with byRk := t.byRk.insert rk entry.publicKey }
    | none => { t with byRk := t.byRk.insert rk entry.publicKey }
  | none => t

def upsert (t : RouteTable) (entry : RouteEntry) : RouteTable :=
  let t := ((t.dropOld entry).bindIp entry).claimRk entry
  -- the entry is stored as given, also when its relay key was refused
  { t with byKey := t.byKey.insert entry.publicKey entry }

def get (t : RouteTable) (key : RawKey) : Option RouteEntry := t.byKey[key]?

def getByIp (t : RouteTable) (ip : String) : Option RouteEntry :=
  t.byIp[ip]?.bind fun k => t.byKey[k]?

def getByRk (t : RouteTable) (rk : String) : Option RouteEntry :=
  t.byRk[rk]?.bind fun k => t.byKey[k]?

def remove (t : RouteTable) (key : RawKey) : RouteTable :=
  match t.byKey[key]? with
  | some e =>
    { byKey := t.byKey.erase key
      byIp := t.byIp.erase e.ip
      byRk := eraseSome t.byRk e.relayRk }
  | none => t

/-- Every entry, in the order of the keys. -/
def snapshot (t : RouteTable) : List RouteEntry := t.byKey.toList.map (·.2)

/-- Keys of the entries not seen for more than `ttl` seconds (`saturating_sub`). -/
def expired (t : RouteTable) (now ttl : Nat) : List RawKey :=
  (t.byKey.toList.filter fun p => ttl < now - p.2.lastSeen).map (·.1)

/-- The source collects the expired keys in the order of its hash map; they are
different keys, so that the order does not matter. -/
def cleanup (t : RouteTable) (now ttl : Nat) : RouteTable :=
  (t.expired now ttl).foldl remove t

-- ---------------------------------------------------------------------------
-- What the operations do to the entries
-- ---------------------------------------------------------------------------

variable {t : RouteTable} {e old : RouteEntry} {k key : RawKey} {rk : String}

@[simp] theorem dropOld_byKey : (t.dropOld e).byKey = t.byKey := by
  unfold dropOld
  split
  · rfl
  · rfl

theorem dropOld_byRk :
    (t.dropOld e).byRk = eraseSome t.byRk (t.byKey[e.publicKey]?.bind (·.relayRk)) := by
  unfold dropOld
  split
  · rename_i old hOld
    rw [hOld]
    rfl
  · rename_i hNone
    rw [hNone]
    rfl

@[simp] theorem bindIp_byRk : (t.bindIp e).byRk = t.byRk := by
  unfold bindIp
  split
  · split
    · rfl
    · rfl
  · rfl

/-- Only the index by relay key changes. -/
theorem claimRk_frame (t : RouteTable) (e : RouteEntry) : ∃ rks, t.claimRk e = { t with byRk := rks } := by
  unfold claimRk
  split
  · split
    · split
      · exact ⟨_, rfl⟩
      · exact ⟨_, rfl⟩
    · exact ⟨_, rfl⟩
  · exact ⟨_, rfl⟩

@[simp] theorem claimRk_byKey : (t.claimRk e).byKey = t.byKey := by
  obtain ⟨rks, hEq⟩ := claimRk_frame t e
  rw [hEq]

/-- The other key that loses its entry when `e` takes its IP over. -/
def displaced (t : RouteTable) (e : RouteEntry) : Option RawKey :=
  if e.ip = "" then none else t.byIp[e.ip]?.filter (· ≠ e.publicKey)

theorem dropOld_displaced : (t.dropOld e).displaced e = t.displaced e := by
  unfold displaced dropOld
  split
  · rfl
  · split
    · rename_i old _
      by_cases hIp : old.ip = e.ip
      · simp [hIp]
      · simp [hIp, getElem?_erase, eq_comm (a := e.ip)]
    · rfl

theorem displaced_ne (h : t.displaced e = some k) : k ≠ e.publicKey := by
  unfold displaced at h
  split at h
  · cases h
  · simp only [Option.filter_eq_some_iff, decide_eq_true_eq] at h
    exact h.2

theorem bindIp_byKey : (t.bindIp e).byKey = eraseSome t.byKey (t.displaced e) := by
  unfold bindIp displaced
  split
  · split
    · rfl
    · rfl
  · cases t.byIp[e.ip]? with
    | none => rfl
    | some oldKey => by_cases hKey : oldKey = e.publicKey <;> simp [hKey, Option.filter, eraseSome]

/-- The entries after an upsert. -/
theorem upsert_byKey :
    (t.upsert e).byKey = (eraseSome t.byKey (t.displaced e)).insert e.publicKey e := by
  show ((((t.dropOld e).bindIp e).claimRk e).byKey).insert e.publicKey e = _
  rw [claimRk_byKey, bindIp_byKey, dropOld_displaced, dropOld_byKey]

/-- An entry found after an upsert is the new one, or was in the table before. -/
theorem upsert_cases {x : RouteEntry} (h : (t.upsert e).byKey[k]? = some x) :
    (k = e.publicKey ∧ x = e) ∨ t.byKey[k]? = some x := by
  rw [upsert_byKey] at h
  rcases insert_cases h with hNew | hOld
  · exact .inl hNew
  · exact .inr (of_getElem?_eraseSome hOld).2

theorem claimRk_of_free (h : e.relayRk = some rk)
    (hFree : ∀ k, t.byRk[rk]? = some k → k = e.publicKey) :
    (t.claimRk e).byRk = t.byRk.insert rk e.publicKey := by
  unfold claimRk
  rw [h]
  show (match t.byRk[rk]? with
    | some existing => _
    | none => _ : RouteTable).byRk = _
  cases hRk : t.byRk[rk]? with
  | none => rfl
  | some existing => simp [hFree existing hRk]

theorem claimRk_of_held (h : e.relayRk = some rk) (hHeld : t.byRk[rk]? = some k)
    (hKey : k ≠ e.publicKey) : t.claimRk e = t := by
  unfold claimRk
  simp only [h, hHeld, if_pos hKey]

theorem claimRk_of_none (h : e.relayRk = none) : t.claimRk e = t := by
  unfold claimRk
  simp only [h]

/-- A claim leaves the other relay keys alone. -/
theorem claimRk_other (h : e.relayRk ≠ some rk) : (t.claimRk e).byRk[rk]? = t.byRk[rk]? := by
  unfold claimRk
  split
  · rename_i rk' hRk
    have hNe : rk ≠ rk' := by
      intro hEq
      exact h (hEq ▸ hRk)
    split
    · split
      · rfl
      · simp only [getElem?_insert, if_neg hNe]
    · simp only [getElem?_insert, if_neg hNe]
  · rfl

/-- Every entry of the table satisfies `P`. -/
def All (P : RouteEntry → Prop) (t : RouteTable) : Prop :=
  ∀ (k : RawKey) e, t.byKey[k]? = some e → P e

section

variable {P : RouteEntry → Prop}

theorem All.upsert (h : t.All P) (he : P e) : (t.upsert e).All P := by
  intro k x hx
  rcases upsert_cases hx with ⟨_, rfl⟩ | hOld
  · exact he
  · exact h k x hOld

theorem remove_byKey : (t.remove key).byKey[k]? = if k = key then none else t.byKey[k]? := by
  unfold remove
  split
  · exact getElem?_erase
  · rename_i hNone
    split
    · rename_i hKey
      rw [hKey, hNone]
    · rfl

theorem All.remove (h : t.All P) : (t.remove key).All P := by
  intro k x hx
  rw [remove_byKey] at hx
  split at hx
  · cases hx
  · exact h k x hx

theorem All.foldl_remove (h : t.All P) (ks : List RawKey) :
    (ks.foldl RouteTable.remove t).All P := by
  induction ks generalizing t with
  | nil => exact h
  | cons k ks ih => exact ih h.remove

end

theorem mem_upsert_self : e.publicKey ∈ (t.upsert e).byKey := by
  rw [upsert_byKey]
  exact mem_iff.mpr ⟨e, by rw [getElem?_insert, if_pos rfl]⟩

theorem mem_of_mem_upsert (h : k ∈ (t.upsert e).byKey) : k = e.publicKey ∨ k ∈ t.byKey := by
  obtain ⟨x, hx⟩ := mem_iff.mp h
  rcases upsert_cases hx with ⟨hKey, _⟩ | hOld
  · exact .inl hKey
  · exact .inr (mem_iff.mpr ⟨x, hOld⟩)

theorem mem_remove : k ∈ (t.remove key).byKey ↔ k ≠ key ∧ k ∈ t.byKey := by
  rw [mem_iff, mem_iff, remove_byKey]
  split
  · rename_i hKey
    simp [hKey]
  · rename_i hKey
    simp [hKey]

theorem mem_foldl_remove {ks : List RawKey} :
    k ∈ (ks.foldl RouteTable.remove t).byKey ↔ k ∉ ks ∧ k ∈ t.byKey := by
  induction ks generalizing t with
  | nil => simp
  | cons a ks ih =>
    rw [List.foldl_cons, ih, mem_remove, List.mem_cons, not_or]
    tauto

-- ---------------------------------------------------------------------------
-- Exactness of the relay-key index
-- ---------------------------------------------------------------------------

/-- `by_rk` maps a relay key to the entry that stores it, and every stored relay
key resolves to its entry. -/
structure RkIndexed (t : RouteTable) : Prop where
  index : Indexes (·.relayRk) t.byKey t.byRk
  resolves : ∀ (k : RawKey) e rk, t.byKey[k]? = some e → e.relayRk = some rk → t.getByRk rk = some e

theorem rkIndexed_iff : t.RkIndexed ↔ Indexes (·.relayRk) t.byKey t.byRk := by
  constructor
  · exact RkIndexed.index
  · intro h
    refine ⟨h, fun k e rk hKey hRk => ?_⟩
    unfold getByRk
    rw [(h rk k).mpr ⟨e, hKey, hRk⟩]
    exact hKey

/-- No relay key claimed by `e` is bound to another public key. -/
def ClaimsFreeRk (t : RouteTable) (e : RouteEntry) : Prop :=
  ∀ rk, e.relayRk = some rk → ∀ k, t.byRk[rk]? = some k → k = e.publicKey

/-- An entry that loses its IP to `e` has no relay key. -/
def DisplacesNoRk (t : RouteTable) (e : RouteEntry) : Prop :=
  ∀ k, t.displaced e = some k → ∀ old, t.byKey[k]? = some old → old.relayRk = none

theorem indexes_dropOld (h : Indexes (·.relayRk) t.byKey t.byRk) :
    Indexes (·.relayRk) (t.byKey.erase e.publicKey) (t.dropOld e).byRk := by
  rw [dropOld_byRk]
  cases hOld : t.byKey[e.publicKey]? with
  | none =>
    refine h.erase_of_none fun v hv => ?_
    rw [hOld] at hv
    cases hv
  | some old => exact h.erase hOld

/-- A binding of another key survives the dropping of the old entry. -/
theorem dropOld_byRk_other (h : Indexes (·.relayRk) t.byKey t.byRk) (hRk : t.byRk[rk]? = some k)
    (hKey : k ≠ e.publicKey) : (t.dropOld e).byRk[rk]? = some k := by
  obtain ⟨v, hv, hAttr⟩ := (h rk k).mp hRk
  exact (indexes_dropOld h rk k).mpr ⟨v, by rw [getElem?_erase, if_neg hKey, hv], hAttr⟩

theorem indexes_upsert (h : Indexes (·.relayRk) t.byKey t.byRk) (hFree : t.ClaimsFreeRk e)
    (hDisplaced : t.DisplacesNoRk e) :
    Indexes (·.relayRk) (t.upsert e).byKey (t.upsert e).byRk := by
  -- without the old entry and without the displaced one
  have hRest : Indexes (·.relayRk) ((eraseSome t.byKey (t.displaced e)).erase e.publicKey)
      (t.dropOld e).byRk := by
    cases hD : t.displaced e with
    | none => exact indexes_dropOld h
    | some k =>
      show Indexes _ ((t.byKey.erase k).erase e.publicKey) _
      rw [erase_comm]
      refine (indexes_dropOld h).erase_of_none fun v hv => ?_
      rw [getElem?_erase, if_neg (displaced_ne hD)] at hv
      exact hDisplaced k hD v hv
  rw [upsert_byKey]
  show Indexes _ _ (((t.dropOld e).bindIp e).claimRk e).byRk
  cases hRk : e.relayRk with
  | none =>
    rw [claimRk_of_none hRk, bindIp_byRk]
    exact hRest.insert_of_none hRk
  | some rk =>
    have hUnbound : (t.dropOld e).byRk[rk]? = none := by
      refine (indexes_dropOld h).eq_none fun k v hv hAttr => ?_
      obtain ⟨hKey, hOld⟩ := of_getElem?_erase hv
      exact hKey (hFree rk hRk k ((h rk k).mpr ⟨v, hOld, hAttr⟩))
    rw [claimRk_of_free hRk (by simp [hUnbound]), bindIp_byRk]
    exact hRest.insert hRk hUnbound

/-- A refused claim is stored, so that the index misses it. -/
theorem claimsFreeRk_of_indexes (h : Indexes (·.relayRk) t.byKey t.byRk)
    (h' : Indexes (·.relayRk) (t.upsert e).byKey (t.upsert e).byRk) : t.ClaimsFreeRk e := by
  intro rk hRk k hHeld
  by_contra hKey
  have hMid : ((t.dropOld e).bindIp e).byRk[rk]? = some k := by
    rw [bindIp_byRk]
    exact dropOld_byRk_other h hHeld hKey
  have hAfter : (t.upsert e).byRk[rk]? = some k := by
    show (((t.dropOld e).bindIp e).claimRk e).byRk[rk]? = some k
    rw [claimRk_of_held hRk hMid hKey]
    exact hMid
  have hStored : (t.upsert e).byRk[rk]? = some e.publicKey := by
    refine (h' rk e.publicKey).mpr ⟨e, ?_, hRk⟩
    rw [upsert_byKey, getElem?_insert, if_pos rfl]
  rw [hAfter] at hStored
  exact hKey (Option.some.inj hStored)

/-- The binding of a displaced entry is left dangling. -/
theorem displacesNoRk_of_indexes (h : Indexes (·.relayRk) t.byKey t.byRk)
    (h' : Indexes (·.relayRk) (t.upsert e).byKey (t.upsert e).byRk) : t.DisplacesNoRk e := by
  intro k hD old hOld
  have hKey : k ≠ e.publicKey := displaced_ne hD
  cases hRk : old.relayRk with
  | none => rfl
  | some rk =>
    have hHeld : t.byRk[rk]? = some k := (h rk k).mpr ⟨old, hOld, hRk⟩
    have hMid : ((t.dropOld e).bindIp e).byRk[rk]? = some k := by
      rw [bindIp_byRk]
      exact dropOld_byRk_other h hHeld hKey
    have hAfter : (t.upsert e).byRk[rk]? = some k := by
      show (((t.dropOld e).bindIp e).claimRk e).byRk[rk]? = some k
      by_cases hClaim : e.relayRk = some rk
      · rw [claimRk_of_held hClaim hMid hKey]
        exact hMid
      · rw [claimRk_other hClaim]
        exact hMid
    obtain ⟨v, hv, _⟩ := (h' rk k).mp hAfter
    rw [upsert_byKey, getElem?_insert, if_neg hKey, getElem?_eraseSome, if_pos hD] at hv
    cases hv

theorem rkIndexed_upsert_iff (h : t.RkIndexed) :
    (t.upsert e).RkIndexed ↔ t.ClaimsFreeRk e ∧ t.DisplacesNoRk e := by
  rw [rkIndexed_iff]
  constructor
  · intro h'
    exact ⟨claimsFreeRk_of_indexes h.index h', displacesNoRk_of_indexes h.index h'⟩
  · rintro ⟨hFree, hDisplaced⟩
    exact indexes_upsert h.index hFree hDisplaced

theorem rkIndexed_remove (h : t.RkIndexed) : (t.remove key).RkIndexed := by
  rw [rkIndexed_iff]
  unfold remove
  split
  · rename_i e hKey
    exact h.index.erase hKey
  · exact h.index

theorem rkIndexed_cleanup {now ttl : Nat} (h : t.RkIndexed) : (t.cleanup now ttl).RkIndexed := by
  unfold cleanup
  generalize t.expired now ttl = ks
  induction ks generalizing t with
  | nil => exact h
  | cons k ks ih => exact ih (rkIndexed_remove h)

-- ---------------------------------------------------------------------------
-- Call sequences
-- ---------------------------------------------------------------------------

/-- The calls that change the table. -/
inductive Call where
  | upsert (entry : RouteEntry)
  | remove (key : RawKey)
  | cleanup (now ttl : Nat)

/-- The table under any sequence of calls. -/
def machine : Machine RouteTable Call where
  init t := t = {}
  enabled _ _ := True
  next t
    | .upsert entry => t.upsert entry
    | .remove key => t.remove key
    | .cleanup now ttl => t.cleanup now ttl

/-- An upsert keeps the relay-key index exact; the other calls always do. -/
def KeepsRk (t : RouteTable) : Call → Prop
  | .upsert e => t.ClaimsFreeRk e ∧ t.DisplacesNoRk e
  | _ => True

/-- **The relay-key index of the route table.** `by_rk` is exact after every
call of a sequence, and every stored relay key resolves to the entry that
carries it, if and only if every upsert claims a relay key that no other public
key holds and takes no IP over from an entry that has a relay key. -/
theorem relayRk_index_iff (calls : List Call) :
    (∀ pre, pre <+: calls → (machine.run {} pre).RkIndexed) ↔
      ∀ pre call, pre ++ [call] <+: calls → (machine.run {} pre).KeepsRk call := by
  refine Machine.along_run_iff (rkIndexed_iff.mpr Indexes.empty) (fun t call h => ?_) calls
  cases call with
  | upsert e => exact rkIndexed_upsert_iff h
  | remove key => exact iff_of_true (rkIndexed_remove h) trivial
  | cleanup now ttl => exact iff_of_true (rkIndexed_cleanup h) trivial

/-- A registration in the open room. -/
def exRegistration (k : RawKey) (ip : String) (rk : Option String) : RouteEntry :=
  { publicKey := k, ip := ip, endpoint := "192.0.2.1:4000", lastSeen := 0, relayRk := rk,
    room := "default", aliasName := none }

/-- Device 2 claims the relay key of device 1, is refused, and registers again
without one: this drops the binding of device 1. -/
theorem relayRk_index_fails :
    ¬ (machine.run {}
      [.upsert (exRegistration 1 "10.77.0.1" (some "rk1")),
        .upsert (exRegistration 2 "10.77.0.2" (some "rk1")),
        .upsert (exRegistration 2 "10.77.0.2" none)]).RkIndexed := by
  intro h
  have hStored := h.resolves 1 (exRegistration 1 "10.77.0.1" (some "rk1")) "rk1"
    (by decide +kernel) rfl
  revert hStored
  decide +kernel

end RouteTable

end LinkMesh
