import LinkMesh.Server.Routes

/-!
# The route table over whole runs

Sequences of calls of the route table (`linkmesh-server/src/signaling.rs`),
with the refreshing of a route by a relayed packet as a call of its own: the
index by virtual IP, and what a bound relay key has to fear from other devices.

## Results

* `ipBijection_reach`    — the index by IP is exact in every reachable table.
* `relayRk_binding_iff`  — calls for other devices leave a relay key bound iff
  none of them takes out an entry that stores this relay key.
-/

namespace LinkMesh

open Std KeyMap

namespace RouteTable

/-- A packet relayed under an identity key: the entry of its source is stored
again with the new time. -/
def refresh (t : RouteTable) (srcKey : RawKey) (now : Nat) : RouteTable :=
  match t.get srcKey with
  | some e => t.upsert { e with publicKey := srcKey, lastSeen := now }
  | none => t

/-- The calls of the table, and the refreshing of a route. -/
inductive TableCall where
  | call (c : Call)
  | refresh (srcKey : RawKey) (now : Nat)

/-- The table under any sequence of calls and refreshings, from `RouteTable::new`. -/
def tableMachine : Machine RouteTable TableCall where
  init t := t = {}
  enabled _ _ := True
  next t
    | .call c => machine.next t c
    | .refresh srcKey now => t.refresh srcKey now

variable {t : RouteTable} {e old : RouteEntry} {k key : RawKey} {rk ip : String} {now ttl : Nat}

/-- A refreshing is an upsert of the stored entry, or nothing. -/
theorem refresh_cases (t : RouteTable) (srcKey : RawKey) (now : Nat) :
    (t.byKey[srcKey]? = none ∧ t.refresh srcKey now = t) ∨
    ∃ e, t.byKey[srcKey]? = some e ∧
      t.refresh srcKey now = t.upsert { e with publicKey := srcKey, lastSeen := now } := by
  unfold refresh get
  split
  · rename_i e hEntry
    exact .inr ⟨e, hEntry, rfl⟩
  · rename_i hNone
    exact .inl ⟨hNone, rfl⟩

theorem foldl_remove_byKey (ks : List RawKey) (t : RouteTable) :
    (ks.foldl remove t).byKey[k]? = if k ∈ ks then none else t.byKey[k]? := by
  induction ks generalizing t with
  | nil => rfl
  | cons a ks ih =>
    rw [List.foldl_cons, ih, remove_byKey]
    by_cases hKey : k = a <;> simp [hKey]

theorem mem_expired :
    k ∈ t.expired now ttl ↔ ∃ e, t.byKey[k]? = some e ∧ ttl < now - e.lastSeen := by
  show k ∈ keysWhere (fun e => decide (ttl < now - e.lastSeen)) t.byKey ↔ _
  simp only [mem_keysWhere, decide_eq_true_eq]

/-- A cleanup takes out the expired entries and no others. -/
theorem cleanup_byKey :
    (t.cleanup now ttl).byKey[k]? = t.byKey[k]?.filter fun e => !decide (ttl < now - e.lastSeen) := by
  unfold cleanup
  rw [foldl_remove_byKey]
  split
  · rename_i hExpired
    obtain ⟨e, hEntry, hOld⟩ := mem_expired.mp hExpired
    rw [hEntry, Option.filter_some, decide_eq_true hOld]
    rfl
  · rename_i hFresh
    cases hEntry : t.byKey[k]? with
    | none => rfl
    | some e =>
      have hNew : ¬ ttl < now - e.lastSeen := by
        intro hOld
        exact hFresh (mem_expired.mpr ⟨e, hEntry, hOld⟩)
      rw [Option.filter_some, decide_eq_false hNew]
      rfl

-- ---------------------------------------------------------------------------
-- Entries are stored under their own key
-- ---------------------------------------------------------------------------

/-- Every entry is stored under its public key. -/
def Keyed (t : RouteTable) : Prop := ∀ (k : RawKey) e, t.byKey[k]? = some e → e.publicKey = k

theorem Keyed.upsert (h : t.Keyed) : (t.upsert e).Keyed := by
  intro k x hx
  rcases upsert_cases hx with ⟨hKey, rfl⟩ | hOld
  · exact hKey.symm
  · exact h k x hOld

theorem Keyed.remove (h : t.Keyed) : (t.remove key).Keyed := by
  intro k x hx
  rw [remove_byKey] at hx
  split at hx
  · cases hx
  · exact h k x hx

-- ---------------------------------------------------------------------------
-- Exactness of the index by IP
-- ---------------------------------------------------------------------------

/-- The IP under which an entry is indexed. -/
def ipKey (e : RouteEntry) : Option String := if e.ip = "" then none else some e.ip

theorem ipKey_eq_some : ipKey e = some ip ↔ e.ip = ip ∧ ip ≠ "" := by
  unfold ipKey
  split
  · rename_i hEmpty
    constructor
    · intro h
      cases h
    · rintro ⟨rfl, hNe⟩
      exact absurd hEmpty hNe
  · rename_i hNe
    rw [Option.some.injEq]
    constructor
    · rintro rfl
      exact ⟨rfl, hNe⟩
    · exact fun h => h.1

/-- `by_ip` maps a nonempty IP to the key of the entry that has it. -/
def IpIndexed (t : RouteTable) : Prop := Indexes ipKey t.byKey t.byIp

theorem dropOld_byIp :
    (t.dropOld e).byIp =
      match t.byKey[e.publicKey]? with
      | some old => if old.ip ≠ e.ip then t.byIp.erase old.ip else t.byIp
      | none => t.byIp := by
  unfold dropOld
  cases t.byKey[e.publicKey]? with
  | none => rfl
  | some old => rfl

theorem bindIp_byIp :
    (t.bindIp e).byIp =
      if e.ip = "" then
        match t.byKey[e.publicKey]? with
        | some old => t.byIp.erase old.ip
        | none => t.byIp
      else t.byIp.insert e.ip e.publicKey := by
  unfold bindIp
  split
  · cases t.byKey[e.publicKey]? with
    | none => rfl
    | some old => rfl
  · rfl

theorem claimRk_byIp : (t.claimRk e).byIp = t.byIp := by
  obtain ⟨rks, hEq⟩ := claimRk_frame t e
  rw [hEq]

theorem upsert_byIp :
    (t.upsert e).byIp[ip]? =
      if e.ip ≠ "" ∧ ip = e.ip then some e.publicKey
      else if (t.byKey[e.publicKey]?.map (·.ip)) = some ip then none
      else t.byIp[ip]? := by
  show (((t.dropOld e).bindIp e).claimRk e).byIp[ip]? = _
  rw [claimRk_byIp, bindIp_byIp, dropOld_byIp, dropOld_byKey]
  cases t.byKey[e.publicKey]? with
  | none =>
    by_cases hEmpty : e.ip = ""
    · simp [hEmpty]
    · simp [hEmpty, getElem?_insert]
  | some old =>
    simp only [Option.map_some, Option.some.injEq, eq_comm (a := old.ip) (b := ip)]
    by_cases hEmpty : e.ip = ""
    · have hOther : ¬ (e.ip ≠ "" ∧ ip = e.ip) := by
        intro h
        exact h.1 hEmpty
      rw [if_pos hEmpty, if_neg hOther, getElem?_erase]
      split
      · rfl
      · rename_i hIp
        split
        · rw [getElem?_erase, if_neg hIp]
        · rfl
    · rw [if_neg hEmpty, getElem?_insert]
      by_cases hIp : ip = e.ip
      · rw [if_pos hIp, if_pos (And.intro hEmpty hIp)]
      · have hOther : ¬ (e.ip ≠ "" ∧ ip = e.ip) := by
          intro h
          exact hIp h.2
        rw [if_neg hIp, if_neg hOther]
        by_cases hSame : old.ip = e.ip
        · rw [if_neg (not_not_intro hSame), hSame, if_neg hIp]
        · rw [if_pos hSame, getElem?_erase]

/-- An upsert keeps the index exact: the device's previous IP is dropped, and a
previous holder of the new IP loses its entry. -/
theorem IpIndexed.upsert (h : t.IpIndexed) : (t.upsert e).IpIndexed := by
  intro i j
  rw [upsert_byIp, upsert_byKey, getElem?_insert, getElem?_eraseSome]
  by_cases hNew : e.ip ≠ "" ∧ i = e.ip
  · obtain ⟨hNe, rfl⟩ := hNew
    rw [if_pos ⟨hNe, rfl⟩]
    constructor
    · intro hKey
      cases hKey
      exact ⟨e, if_pos rfl, ipKey_eq_some.mpr ⟨rfl, hNe⟩⟩
    · rintro ⟨v, hv, hIp⟩
      split at hv
      · rename_i hKey
        rw [hKey]
      · rename_i hKey
        -- another holder of the IP is the displaced one
        split at hv
        · cases hv
        · rename_i hKept
          have hHeld : t.byIp[e.ip]? = some j := (h e.ip j).mpr ⟨v, hv, hIp⟩
          refine absurd ?_ hKept
          unfold displaced
          rw [if_neg hNe, hHeld]
          simp [hKey]
  · rw [if_neg hNew]
    have hSelf : ipKey e ≠ some i := by
      intro hIp
      obtain ⟨rfl, hNe⟩ := ipKey_eq_some.mp hIp
      exact hNew ⟨hNe, rfl⟩
    constructor
    · intro hAfter
      split at hAfter
      · cases hAfter
      · rename_i hOther
        obtain ⟨v, hv, hIp⟩ := (h i j).mp hAfter
        obtain ⟨hvIp, hNe⟩ := ipKey_eq_some.mp hIp
        refine ⟨v, ?_, hIp⟩
        rw [if_neg, if_neg]
        · exact hv
        · intro hDisplaced
          -- the displaced entry has the new IP, which is not this one
          unfold displaced at hDisplaced
          split at hDisplaced
          · cases hDisplaced
          · rename_i hNonempty
            have hHeld := (Option.filter_eq_some_iff.mp hDisplaced).1
            obtain ⟨w, hw, hwIp⟩ := (h e.ip j).mp hHeld
            rw [hv] at hw
            cases hw
            exact hNew ⟨hNonempty, hvIp.symm.trans (ipKey_eq_some.mp hwIp).1⟩
        · rintro rfl
          rw [hv] at hOther
          exact hOther (congrArg some hvIp)
    · rintro ⟨v, hv, hIp⟩
      split at hv
      · cases hv
        exact absurd hIp hSelf
      · rename_i hKey
        split at hv
        · cases hv
        · rw [if_neg]
          · exact (h i j).mpr ⟨v, hv, hIp⟩
          · intro hOld
            obtain ⟨old, hEntry, rfl⟩ := Option.map_eq_some_iff.mp hOld
            have hOldIp : ipKey old = some old.ip :=
              ipKey_eq_some.mpr ⟨rfl, (ipKey_eq_some.mp hIp).2⟩
            exact hKey (h.key_eq hv hIp hEntry hOldIp)

theorem IpIndexed.remove (h : t.IpIndexed) : (t.remove key).IpIndexed := by
  unfold RouteTable.remove
  split
  · rename_i e hEntry
    intro i j
    rw [← Indexes.erase h hEntry i j]
    show (t.byIp.erase e.ip)[i]? = some j ↔ _
    rw [getElem?_erase, getElem?_eraseSome]
    by_cases hEmpty : e.ip = ""
    · have hUnbound : t.byIp[""]? = none := h.eq_none fun k v _ hIp => (ipKey_eq_some.mp hIp).2 rfl
      simp only [ipKey, hEmpty, if_true]
      split
      · rename_i hi
        rw [hi, hUnbound]
        simp
      · simp
    · simp only [ipKey, hEmpty, if_false, Option.some.injEq, eq_comm (a := i)]
  · exact h

theorem foldl_remove_keeps {P : RouteTable → Prop} (hRemove : ∀ t key, P t → P (t.remove key))
    (ks : List RawKey) (h : P t) : P (ks.foldl remove t) := by
  induction ks generalizing t with
  | nil => exact h
  | cons k ks ih => exact ih (hRemove t k h)

/-- A property that upserts and removals keep holds of every reachable table
if it holds of the empty one. -/
theorem tableMachine_invariant {P : RouteTable → Prop} {G : RouteTable → TableCall → Prop}
    (hEmpty : P {}) (hUpsert : ∀ t e, P t → P (t.upsert e))
    (hRemove : ∀ t key, P t → P (t.remove key)) (h : tableMachine.Reach G t) : P t := by
  refine h.invariant (fun s hInit => ?_) fun s c hInv _ _ => ?_
  · rw [hInit]
    exact hEmpty
  · show P (tableMachine.next s c)
    match c with
    | .call (.upsert e) => exact hUpsert s e hInv
    | .call (.remove key) => exact hRemove s key hInv
    | .call (.cleanup now ttl) => exact foldl_remove_keeps hRemove _ hInv
    | .refresh srcKey now =>
      show P (s.refresh srcKey now)
      rcases refresh_cases s srcKey now with ⟨_, hEq⟩ | ⟨e, _, hEq⟩
      · rw [hEq]
        exact hInv
      · rw [hEq]
        exact hUpsert s _ hInv

theorem ipIndexed_empty : IpIndexed {} := Indexes.empty

/-- An indexed entry is found by its IP. -/
theorem IpIndexed.getByIp (h : t.IpIndexed) (hEntry : t.byKey[k]? = some e) (hIp : e.ip ≠ "") :
    t.getByIp e.ip = some e := by
  unfold RouteTable.getByIp
  rw [(h e.ip k).mpr ⟨e, hEntry, ipKey_eq_some.mpr ⟨rfl, hIp⟩⟩]
  exact hEntry

theorem mem_snapshot : e ∈ t.snapshot ↔ ∃ k : RawKey, t.byKey[k]? = some e := by
  unfold snapshot
  simp only [List.mem_map, Prod.exists, exists_eq_right]
  exact exists_congr fun k => ExtTreeMap.mem_toList_iff_getElem?_eq_some

/-- What a lookup by IP finds. -/
theorem IpIndexed.getByIp_eq_some (h : t.IpIndexed) :
    t.getByIp ip = some e ↔ e ∈ t.snapshot ∧ e.ip = ip ∧ ip ≠ "" := by
  rw [mem_snapshot]
  constructor
  · intro hGet
    obtain ⟨k, hIp, hEntry⟩ := Option.bind_eq_some_iff.mp hGet
    obtain ⟨e', hEntry', hKey⟩ := (h ip k).mp hIp
    rw [hEntry] at hEntry'
    cases hEntry'
    exact ⟨⟨k, hEntry⟩, ipKey_eq_some.mp hKey⟩
  · rintro ⟨⟨k, hEntry⟩, rfl, hNe⟩
    exact h.getByIp hEntry hNe

/-- The index by IP is exact in every reachable table. -/
theorem ipIndexed_reach (h : tableMachine.Reach (fun _ _ => True) t) : t.IpIndexed :=
  tableMachine_invariant ipIndexed_empty (fun _ _ => IpIndexed.upsert) (fun _ _ => IpIndexed.remove) h

/-- Every entry of a reachable table is stored under its own key. -/
theorem keyed_reach (h : tableMachine.Reach (fun _ _ => True) t) : t.Keyed := by
  refine tableMachine_invariant (fun k e hEntry => ?_) (fun _ _ => Keyed.upsert)
    (fun _ _ => Keyed.remove) h
  rw [ExtTreeMap.getElem?_empty] at hEntry
  cases hEntry

/-- `by_key` and `by_ip` are a bijection between the entries with an IP and
their IPs, and a cleanup respects it. -/
structure IpBijection (t : RouteTable) : Prop where
  index : ∀ ip k, t.byIp[ip]? = some k ↔ ∃ e, t.get k = some e ∧ e.ip = ip ∧ ip ≠ ""
  oneHolder : ∀ k k' e e', t.get k = some e → t.get k' = some e' → e.ip = e'.ip → e.ip ≠ "" → k = k'
  cleanup : ∀ now ttl k, (t.cleanup now ttl).get k =
    (t.get k).filter fun e => !decide (ttl < now - e.lastSeen)
  survivors : ∀ now ttl e, e ∈ (t.cleanup now ttl).snapshot →
    (t.cleanup now ttl).get e.publicKey = some e ∧
      (e.ip ≠ "" → (t.cleanup now ttl).getByIp e.ip = some e)

/-- **Bijection between keys and IPs in the route table.** In every table that
upserts, removals, relay refreshings and cleanups lead to, `by_ip` maps an IP
to a key exactly when the entry of the key has this nonempty IP; so an IP has
one holder, a cleanup takes out exactly the expired entries, and the others are
still found by key and by IP. -/
theorem ipBijection_reach (h : tableMachine.Reach (fun _ _ => True) t) : t.IpBijection := by
  refine ⟨fun ip k => ?_, fun k k' e e' hk hk' hIp hNe => ?_, fun now ttl k => cleanup_byKey,
    fun now ttl e hMem => ?_⟩
  · rw [ipIndexed_reach h ip k]
    exact exists_congr fun e => and_congr_right fun _ => ipKey_eq_some
  · exact (ipIndexed_reach h).key_eq hk (ipKey_eq_some.mpr ⟨rfl, hNe⟩) hk'
      (ipKey_eq_some.mpr ⟨hIp.symm, hNe⟩)
  · have hCleanup : tableMachine.Reach (fun _ _ => True) (t.cleanup now ttl) :=
      Machine.Reach.step (e := TableCall.call (.cleanup now ttl)) h trivial trivial
    obtain ⟨k, hEntry⟩ := mem_snapshot.mp hMem
    have hKey := keyed_reach hCleanup k e hEntry
    refine ⟨?_, (ipIndexed_reach hCleanup).getByIp hEntry⟩
    rw [hKey]
    exact hEntry

/-- Two devices register with one IP. -/
theorem ipBijection_sample :
    (tableMachine.run {}
      [.call (.upsert (exRegistration 1 "10.77.0.1" none)),
        .call (.upsert (exRegistration 2 "10.77.0.1" none))]).IpBijection :=
  ipBijection_reach (Machine.reach_run (.init rfl) ⟨trivial, trivial, trivial, trivial, trivial⟩)

-- ---------------------------------------------------------------------------
-- A bound relay key and the calls for other devices
-- ---------------------------------------------------------------------------

/-- `get_by_rk` finds the entry of the key. -/
def Resolves (t : RouteTable) (rk : String) (k : RawKey) : Prop :=
  t.byRk[rk]? = some k ∧ k ∈ t.byKey

/-- The keys whose stored entry a call takes out, to drop or to replace it. -/
def takenOut (t : RouteTable) : TableCall → List RawKey
  | .call (.upsert e) => [e.publicKey]
  | .call (.remove key) => [key]
  | .call (.cleanup now ttl) => t.expired now ttl
  | .refresh srcKey _ => [srcKey]

/-- The call is not made for the device. -/
def TableCall.ForOther (k : RawKey) : TableCall → Prop
  | .call (.upsert e) => e.publicKey ≠ k
  | .call (.remove key) => key ≠ k
  | .call (.cleanup _ _) => True
  | .refresh srcKey _ => srcKey ≠ k

/-- The call takes out no entry that stores the relay key. -/
def SparesRk (t : RouteTable) (rk : String) (c : TableCall) : Prop :=
  ∀ j ∈ t.takenOut c, ∀ old, t.byKey[j]? = some old → old.relayRk ≠ some rk

/-- An upsert of another device keeps a binding exactly when it replaces no entry
that stores the relay key. The refusal of a foreign claim alone does not settle
it: the replaced entry may hold the very claim that was refused. -/
theorem upsert_byRk_held_iff (hHeld : t.byRk[rk]? = some k) (hOther : e.publicKey ≠ k) :
    (t.upsert e).byRk[rk]? = some k ↔
      ∀ old, t.byKey[e.publicKey]? = some old → old.relayRk ≠ some rk := by
  have hDropped : (t.dropOld e).byRk[rk]? =
      if t.byKey[e.publicKey]?.bind (·.relayRk) = some rk then none else some k := by
    rw [dropOld_byRk, getElem?_eraseSome, hHeld]
  show (((t.dropOld e).bindIp e).claimRk e).byRk[rk]? = some k ↔ _
  by_cases hStored : t.byKey[e.publicKey]?.bind (·.relayRk) = some rk
  · rw [if_pos hStored] at hDropped
    refine iff_of_false ?_ ?_
    · -- the binding is gone; at most the new entry claims the relay key
      by_cases hClaim : e.relayRk = some rk
      · rw [claimRk_of_free hClaim (by simp [hDropped]), getElem?_insert, if_pos rfl]
        intro hEq
        exact hOther (Option.some.inj hEq)
      · rw [claimRk_other hClaim, bindIp_byRk, hDropped]
        simp
    · intro hNone
      obtain ⟨old, hOld, hRk⟩ := Option.bind_eq_some_iff.mp hStored
      exact hNone old hOld hRk
  · rw [if_neg hStored] at hDropped
    refine iff_of_true ?_ ?_
    · have hMid : ((t.dropOld e).bindIp e).byRk[rk]? = some k := by
        rw [bindIp_byRk]
        exact hDropped
      by_cases hClaim : e.relayRk = some rk
      · rw [claimRk_of_held hClaim hMid (Ne.symm hOther)]
        exact hMid
      · rw [claimRk_other hClaim]
        exact hMid
    · intro old hOld hRk
      exact hStored (Option.bind_eq_some_iff.mpr ⟨old, hOld, hRk⟩)

theorem remove_byRk :
    (t.remove key).byRk[rk]? =
      if t.byKey[key]?.bind (·.relayRk) = some rk then none else t.byRk[rk]? := by
  unfold remove
  split
  · rename_i e hEntry
    rw [hEntry]
    exact getElem?_eraseSome
  · rename_i hNone
    rw [hNone]
    rfl

theorem remove_byRk_held_iff (hHeld : t.byRk[rk]? = some k) :
    (t.remove key).byRk[rk]? = some k ↔ ∀ old, t.byKey[key]? = some old → old.relayRk ≠ some rk := by
  rw [remove_byRk, hHeld]
  by_cases hStored : t.byKey[key]?.bind (·.relayRk) = some rk
  · rw [if_pos hStored]
    obtain ⟨old, hOld, hRk⟩ := Option.bind_eq_some_iff.mp hStored
    refine iff_of_false (by simp) fun hNone => hNone old hOld hRk
  · rw [if_neg hStored]
    refine iff_of_true rfl fun old hOld hRk => ?_
    exact hStored (Option.bind_eq_some_iff.mpr ⟨old, hOld, hRk⟩)

/-- Removals bind nothing. -/
theorem foldl_remove_byRk_none (ks : List RawKey) (h : t.byRk[rk]? = none) :
    (ks.foldl remove t).byRk[rk]? = none := by
  refine foldl_remove_keeps (P := fun t => t.byRk[rk]? = none) (fun t key hNone => ?_) ks h
  rw [remove_byRk, hNone]
  split
  · rfl
  · rfl

theorem foldl_remove_byRk_held_iff (ks : List RawKey) (hHeld : t.byRk[rk]? = some k) :
    (ks.foldl remove t).byRk[rk]? = some k ↔
      ∀ j ∈ ks, ∀ old, t.byKey[j]? = some old → old.relayRk ≠ some rk := by
  induction ks generalizing t with
  | nil => exact iff_of_true hHeld (by simp)
  | cons a ks ih =>
    rw [List.foldl_cons, List.forall_mem_cons]
    by_cases hStored : ∀ old, t.byKey[a]? = some old → old.relayRk ≠ some rk
    · rw [ih ((remove_byRk_held_iff hHeld).mpr hStored)]
      constructor
      · intro h
        refine ⟨hStored, fun j hj old hOld => ?_⟩
        by_cases hKey : j = a
        · exact hStored old (hKey ▸ hOld)
        · exact h j hj old (by rw [remove_byKey, if_neg hKey, hOld])
      · rintro ⟨_, h⟩ j hj old hOld
        rw [remove_byKey] at hOld
        split at hOld
        · cases hOld
        · exact h j hj old hOld
    · refine iff_of_false ?_ fun h => hStored h.1
      have hGone : (t.remove a).byRk[rk]? = none := by
        rw [remove_byRk, hHeld, if_pos]
        by_contra hNot
        refine hStored fun old hOld hRk => hNot (Option.bind_eq_some_iff.mpr ⟨old, hOld, hRk⟩)
      rw [foldl_remove_byRk_none ks hGone]
      simp

/-- One call for another device. -/
theorem next_byRk_held_iff {c : TableCall} (hHeld : t.byRk[rk]? = some k) (hOther : c.ForOther k) :
    (tableMachine.next t c).byRk[rk]? = some k ↔ t.SparesRk rk c := by
  have hOne : ∀ j : RawKey,
      (∀ i ∈ [j], ∀ old : RouteEntry, t.byKey[i]? = some old → old.relayRk ≠ some rk) ↔
        ∀ old : RouteEntry, t.byKey[j]? = some old → old.relayRk ≠ some rk := by
    intro j
    simp only [List.forall_mem_singleton]
  match c with
  | .call (.upsert e) => exact (upsert_byRk_held_iff hHeld hOther).trans (hOne _).symm
  | .call (.remove key) => exact (remove_byRk_held_iff hHeld).trans (hOne _).symm
  | .call (.cleanup now ttl) => exact foldl_remove_byRk_held_iff _ hHeld
  | .refresh srcKey now =>
    refine Iff.trans ?_ (hOne srcKey).symm
    show (t.refresh srcKey now).byRk[rk]? = some k ↔ _
    rcases refresh_cases t srcKey now with ⟨hNone, hEq⟩ | ⟨e, hEntry, hEq⟩
    · rw [hEq, hNone]
      exact iff_of_true hHeld (by simp)
    · rw [hEq]
      exact upsert_byRk_held_iff (e := { e with publicKey := srcKey, lastSeen := now }) hHeld hOther

/-- Calls for other devices do not bring an entry of the device. -/
theorem mem_of_mem_next {c : TableCall} (hOther : c.ForOther k)
    (h : k ∈ (tableMachine.next t c).byKey) : k ∈ t.byKey := by
  have hUpsert : ∀ e : RouteEntry, e.publicKey ≠ k → k ∈ (t.upsert e).byKey → k ∈ t.byKey := by
    intro e hKey hMem
    rcases mem_of_mem_upsert hMem with hEq | hOld
    · exact absurd hEq.symm hKey
    · exact hOld
  match c with
  | .call (.upsert e) => exact hUpsert e hOther h
  | .call (.remove key) => exact (mem_remove.mp h).2
  | .call (.cleanup now ttl) => exact (mem_foldl_remove.mp h).2
  | .refresh srcKey now =>
    have hMem : k ∈ (t.refresh srcKey now).byKey := h
    rcases refresh_cases t srcKey now with ⟨_, hEq⟩ | ⟨e, _, hEq⟩
    · rwa [hEq] at hMem
    · rw [hEq] at hMem
      exact hUpsert { e with publicKey := srcKey, lastSeen := now } hOther hMem

/-- **A bound relay key against other devices.** From any table in which the
relay key resolves to the device, along any sequence of calls for other
devices, whatever IPs they come with, the relay key keeps resolving to the
device as long as its entry stays in the table, if and only if no call replaces
or drops an entry of another device that stores the same relay key, as a
refused claim does. -/
theorem relayRk_binding_iff (h : t.Resolves rk k) (calls : List TableCall)
    (hOthers : ∀ c ∈ calls, c.ForOther k) :
    (∀ pre, pre <+: calls → k ∈ (tableMachine.run t pre).byKey →
        (tableMachine.run t pre).Resolves rk k) ↔
      ∀ pre c, pre ++ [c] <+: calls → k ∈ (tableMachine.run t (pre ++ [c])).byKey →
        (tableMachine.run t pre).SparesRk rk c := by
  have hRun := Machine.along_run_iff_of (M := tableMachine)
    (P := fun u => k ∈ u.byKey → u.Resolves rk k)
    (G := fun u c => k ∈ (tableMachine.next u c).byKey → u.SparesRk rk c)
    (L := TableCall.ForOther k) (fun _ => h) (fun u c hOther hStays => ?_) calls hOthers
  · simp only [Machine.run_concat]
    exact hRun
  · refine imp_congr_right fun hMem => ?_
    have hHeld := (hStays (mem_of_mem_next hOther hMem)).1
    unfold Resolves
    rw [and_iff_left hMem]
    exact next_byRk_held_iff hHeld hOther

/-- Device 1 with its relay key. -/
def exBound : RouteTable := ({} : RouteTable).upsert (exRegistration 1 "10.77.0.1" (some "rk1"))

theorem exBound_resolves : exBound.Resolves "rk1" 1 :=
  ⟨by decide +kernel, by decide +kernel⟩

/-- Device 2 registers with a relay key of its own. -/
theorem relayRk_binding_sample :
    (tableMachine.run exBound [.call (.upsert (exRegistration 2 "10.77.0.2" (some "rk2")))]).Resolves "rk1" 1 := by
  have hOthers : ∀ c ∈ [TableCall.call (.upsert (exRegistration 2 "10.77.0.2" (some "rk2")))],
      c.ForOther 1 := by
    intro c hc
    cases List.mem_singleton.mp hc
    show (2 : RawKey) ≠ 1
    decide
  refine (relayRk_binding_iff exBound_resolves _ hOthers).mpr ?_ _ (List.prefix_refl _) (by decide +kernel)
  intro pre c hPre _
  -- nothing is stored under the key of device 2
  have hEmpty : pre = [] := by
    have hLength := hPre.length_le
    rw [List.length_append] at hLength
    exact List.length_eq_zero_iff.mp (by simpa using hLength)
  subst hEmpty
  cases (List.cons_prefix_cons.mp hPre).1
  intro j hj old hOld
  cases List.mem_singleton.mp hj
  have hNone : exBound.byKey[(2 : RawKey)]? = none := by decide +kernel
  exact absurd (hNone.symm.trans hOld) (by simp)

/-- Device 2 claims the relay key of device 1 and is refused; it registers again
in the same way, and the relay key is its own. -/
theorem relayRk_binding_fails :
    exBound.Resolves "rk1" 1 ∧ "10.77.0.2" ≠ "10.77.0.1" ∧
      1 ∈ (tableMachine.run exBound
        [.call (.upsert (exRegistration 2 "10.77.0.2" (some "rk1"))),
          .call (.upsert (exRegistration 2 "10.77.0.2" (some "rk1")))]).byKey ∧
      (tableMachine.run exBound
        [.call (.upsert (exRegistration 2 "10.77.0.2" (some "rk1"))),
          .call (.upsert (exRegistration 2 "10.77.0.2" (some "rk1")))]).getByRk "rk1" =
        some (exRegistration 2 "10.77.0.2" (some "rk1")) :=
  ⟨exBound_resolves, by decide, by decide +kernel, by decide +kernel⟩

end RouteTable

end LinkMesh
