import LinkMesh.Basis.KeyedList
import LinkMesh.Mesh.Runs

/-!
# Join codes beside each other

`create_invite` and `consume_invite` (`linkmesh-server/src/mesh.rs`) also drop
entries of other join codes. A code can still be used in the second in which it
runs out, but an entry that runs out in that second is dropped.

A code is known by its hash, as in the registry.

* `peekInvite_undisturbed_iff` — when a call leaves another code as it is.
-/

namespace LinkMesh

section

variable {α β : Type} {p q : α → Bool} {f : α → α} {l : List α}

/-- A change is not seen by a search that overlooks the element before and after. -/
theorem find?_modifyFirst (h : ∀ a, p a = true → q a = false ∧ q (f a) = false) :
    (modifyFirst p f l).find? q = l.find? q := by
  induction l with
  | nil => rfl
  | cons a l ih =>
    unfold modifyFirst
    split
    · rename_i hHead
      obtain ⟨hBefore, hAfter⟩ := h a hHead
      rw [List.find?_cons_of_neg (Bool.eq_false_iff.mp hAfter), List.find?_cons_of_neg (Bool.eq_false_iff.mp hBefore)]
    · rw [List.find?_cons, List.find?_cons, ih]

/-- What the first match gives is the same after some elements are dropped exactly
when it is kept, or the first match that is kept gives the same. -/
theorem filter_find?_bind_eq_iff {g : α → Option β} :
    ((l.filter q).find? p).bind g = (l.find? p).bind g ↔
      ∀ a, l.find? p = some a → q a = false → (l.find? fun a => q a && p a).bind g = g a := by
  have hKept : (l.filter q).find? p = l.find? fun a => q a && p a := by
    rw [List.find?_filter]
    simp only [Bool.decide_and, Bool.decide_eq_true]
  rw [hKept]
  cases hFirst : l.find? p with
  | none =>
    have hNone : (l.find? fun a => q a && p a) = none := by
      rw [List.find?_eq_none] at hFirst ⊢
      intro a ha hBoth
      exact hFirst a ha (Bool.and_eq_true_iff.mp hBoth).2
    rw [hNone]
    exact iff_of_true rfl fun a ha => nomatch ha
  | some a =>
    rw [Option.bind_some]
    cases hHead : q a with
    | true =>
      have hSame : (l.find? fun a => q a && p a) = some a := by
        rw [← hKept]
        exact KeyedList.find?_filter_of_first hFirst hHead
      rw [hSame]
      exact iff_of_true rfl fun b hb hGone => nomatch (Option.some.inj hb ▸ hGone).symm.trans hHead
    | false =>
      constructor
      · rintro h b hb -
        cases hb
        exact h
      · exact fun h => h a rfl hHead

end

/-- What an entry gives to whoever shows its code: the bound IP, if any. -/
def InviteEntry.usable (now : Nat) (e : InviteEntry) : Option (Option String) :=
  if e.used || e.expiresAt < now then none else some e.ip

/-- The entries that `consume_invite` keeps. -/
def InviteEntry.outlasts (now : Nat) (e : InviteEntry) : Bool := now < e.expiresAt

/-- The entries that `create_invite` keeps. -/
def InviteEntry.open (now : Nat) (e : InviteEntry) : Bool := now < e.expiresAt && !e.used

/-- The first entry of the code is kept, or the first one that is kept gives the same. -/
def Undisturbed (now : Nat) (keeps : InviteEntry → Bool) (invites : List InviteEntry) (hash : String) : Prop :=
  ∀ e, invites.find? (·.codeHash = hash) = some e → keeps e = false →
    (invites.find? fun e => keeps e && decide (e.codeHash = hash)).bind (InviteEntry.usable now) = e.usable now

namespace MeshConfig

variable {env : MeshEnv} {m : MeshConfig} {c d : String} {now : Nat}

/-- What `peek_invite` answers comes from the first entry of the code. -/
theorem peekInvite_toOption (env : MeshEnv) (m : MeshConfig) (d : String) (now : Nat) :
    (m.peekInvite env d now).toOption =
      (m.invites.find? (·.codeHash = hashCode env d)).bind (InviteEntry.usable now) := by
  unfold peekInvite
  cases m.invites.find? (·.codeHash = hashCode env d) with
  | none => rfl
  | some e =>
    rw [Option.bind_some]
    unfold InviteEntry.usable
    dsimp only
    cases e.used with
    | true => rfl
    | false => by_cases hOut : e.expiresAt < now <;> simp [hOut, Except.toOption]

/-- Spending a code leaves another one as it is exactly when the code cannot be
spent, or the entries of the other one are undisturbed. -/
theorem peekInvite_consumeInvite_iff (hCodes : hashCode env c ≠ hashCode env d) :
    ((m.consumeInvite env c now).1.peekInvite env d now).toOption = (m.peekInvite env d now).toOption ↔
      (∀ ip, m.peekInvite env c now ≠ .ok ip) ∨
        Undisturbed now (InviteEntry.outlasts now) m.invites (hashCode env d) := by
  cases hPeek : m.peekInvite env c now with
  | error e =>
    have hSame : (m.consumeInvite env c now).1 = m := by
      unfold consumeInvite
      rw [hPeek]
    rw [hSame]
    exact iff_of_true rfl (.inl fun ip h => nomatch h)
  | ok ip =>
    have hInvites : (m.consumeInvite env c now).1.invites =
        (modifyFirst (·.codeHash = hashCode env c) ({ · with used := true }) m.invites).filter
          (InviteEntry.outlasts now) := by
      unfold consumeInvite
      rw [hPeek]
      rfl
    have hOther : ∀ keeps : InviteEntry → Bool,
        (∀ e : InviteEntry, keeps { e with used := true } = keeps e) →
        (modifyFirst (·.codeHash = hashCode env c) ({ · with used := true }) m.invites).find?
          (fun e => keeps e && decide (e.codeHash = hashCode env d)) =
        m.invites.find? fun e => keeps e && decide (e.codeHash = hashCode env d) := by
      intro keeps hKeeps
      refine find?_modifyFirst fun e he => ?_
      have hHash : e.codeHash = hashCode env c := of_decide_eq_true he
      simp [hHash, hCodes]
    have hUnspent : ¬ ∀ bound, (Except.ok ip : Except String (Option String)) ≠ .ok bound := fun h => h ip rfl
    have hFirst : (modifyFirst (·.codeHash = hashCode env c) ({ · with used := true }) m.invites).find?
        (fun e => decide (e.codeHash = hashCode env d)) =
        m.invites.find? fun e => decide (e.codeHash = hashCode env d) := by
      simpa using hOther (fun _ => true) fun _ => rfl
    rw [or_iff_right hUnspent, peekInvite_toOption, peekInvite_toOption, hInvites]
    unfold Undisturbed
    rw [← filter_find?_bind_eq_iff, List.find?_filter, List.find?_filter]
    have hKept := hOther (InviteEntry.outlasts now) fun _ => rfl
    simp only [Bool.decide_and, Bool.decide_eq_true]
    rw [hKept]

/-- Making a code leaves another one as it is exactly when its entries are
undisturbed. -/
theorem peekInvite_createInvite_iff {raw : Bytes} {bound : Option String} {ttlSecs : Nat}
    (hCodes : hashCode env (inviteCode raw) ≠ hashCode env d) :
    ((m.createInvite env raw bound ttlSecs now).1.peekInvite env d now).toOption =
        (m.peekInvite env d now).toOption ↔
      Undisturbed now (InviteEntry.open now) m.invites (hashCode env d) := by
  have hInvites : (m.createInvite env raw bound ttlSecs now).1.invites.find?
      (·.codeHash = hashCode env d) =
      (m.invites.filter (InviteEntry.open now)).find? (·.codeHash = hashCode env d) := by
    unfold createInvite
    dsimp only
    rw [List.find?_append, List.find?_cons_of_neg (by simpa using hCodes), List.find?_nil, Option.or_none]
    rfl
  rw [peekInvite_toOption, peekInvite_toOption, hInvites]
  exact filter_find?_bind_eq_iff

/-- With one entry a code, an entry is disturbed if it can be used, in the second in
which it runs out. -/
theorem undisturbed_iff {keeps : InviteEntry → Bool} {hash : String}
    (hHashes : (m.invites.map (·.codeHash)).Nodup)
    (hKeeps : ∀ e : InviteEntry, e.used = false → e.expiresAt = now → keeps e = false)
    (hDrops : ∀ e : InviteEntry, keeps e = false → e.used = true ∨ e.expiresAt ≤ now) :
    Undisturbed now keeps m.invites hash ↔
      ∀ e ∈ m.invites, e.codeHash = hash → e.used = false → e.expiresAt ≠ now := by
  have hOnly : ∀ e e' : InviteEntry, e ∈ m.invites → e' ∈ m.invites → e.codeHash = hash →
      e'.codeHash = hash → e = e' := by
    intro e e' he he' hHash hHash'
    exact List.inj_on_of_nodup_map hHashes he he' (hHash.trans hHash'.symm)
  have hNone : ∀ e ∈ m.invites, e.codeHash = hash → keeps e = false →
      (m.invites.find? fun e => keeps e && decide (e.codeHash = hash)) = none := by
    intro e he hHash hGone
    rw [List.find?_eq_none]
    intro e' he' hBoth
    obtain ⟨hKept, hHash'⟩ := Bool.and_eq_true_iff.mp hBoth
    rw [hOnly e' e he' he (of_decide_eq_true hHash') hHash, hGone] at hKept
    cases hKept
  constructor
  · intro h e he hHash hUnused hNow
    have hFirst : m.invites.find? (·.codeHash = hash) = some e :=
      (KeyedList.find?_key_eq_some hHashes).mpr ⟨he, hHash⟩
    have hGone : keeps e = false := hKeeps e hUnused hNow
    have hGives := h e hFirst hGone
    rw [hNone e he hHash hGone] at hGives
    unfold InviteEntry.usable at hGives
    simp [hUnused, hNow] at hGives
  · intro h e hFirst hGone
    have he : e ∈ m.invites := List.mem_of_find?_eq_some hFirst
    have hHash : e.codeHash = hash := by simpa using List.find?_some hFirst
    rw [hNone e he hHash hGone]
    unfold InviteEntry.usable
    cases hUsed : e.used with
    | true => rfl
    | false =>
      have hOut : e.expiresAt < now := by
        rcases hDrops e hGone with hSpent | hLate
        · rw [hUsed] at hSpent
          cases hSpent
        · exact Nat.lt_of_le_of_ne hLate (h e he hHash hUsed)
      simp [hOut]

/-- Whether a call for another code changes what `peek_invite` answers in the same
second. In a registry with one entry a code it does not exactly when the entry
is spent, or does not run out in this second. -/
theorem peekInvite_undisturbed_iff (env : MeshEnv) (m : MeshConfig) (d : String) (now : Nat) :
    (∀ c, hashCode env c ≠ hashCode env d →
      (((m.consumeInvite env c now).1.peekInvite env d now).toOption = (m.peekInvite env d now).toOption ↔
        (∀ ip, m.peekInvite env c now ≠ .ok ip) ∨
          Undisturbed now (InviteEntry.outlasts now) m.invites (hashCode env d))) ∧
    (∀ raw bound ttlSecs, hashCode env (inviteCode raw) ≠ hashCode env d →
      (((m.createInvite env raw bound ttlSecs now).1.peekInvite env d now).toOption =
          (m.peekInvite env d now).toOption ↔
        Undisturbed now (InviteEntry.open now) m.invites (hashCode env d))) ∧
    ((m.invites.map (·.codeHash)).Nodup →
      (Undisturbed now (InviteEntry.outlasts now) m.invites (hashCode env d) ↔
        ∀ e ∈ m.invites, e.codeHash = hashCode env d → e.used = false → e.expiresAt ≠ now) ∧
      (Undisturbed now (InviteEntry.open now) m.invites (hashCode env d) ↔
        ∀ e ∈ m.invites, e.codeHash = hashCode env d → e.used = false → e.expiresAt ≠ now)) := by
  refine ⟨fun c hCodes => peekInvite_consumeInvite_iff hCodes,
    fun raw bound ttlSecs hCodes => peekInvite_createInvite_iff hCodes, fun hHashes => ⟨?_, ?_⟩⟩
  · refine undisturbed_iff hHashes (fun e _ hNow => ?_) fun e hGone => .inr ?_
    · unfold InviteEntry.outlasts
      simp [hNow]
    · unfold InviteEntry.outlasts at hGone
      simpa using hGone
  · refine undisturbed_iff hHashes (fun e _ hNow => ?_) fun e hGone => ?_
    · unfold InviteEntry.open
      simp [hNow]
    · unfold InviteEntry.open at hGone
      rw [Bool.and_eq_false_iff] at hGone
      rcases hGone with hLate | hSpent
      · exact .inr (by simpa using hLate)
      · exact .inl (by simpa using hSpent)

/-- A first entry that is still open is spent by its code. -/
theorem consumeInvite_cons {e : InviteEntry} {rest : List InviteEntry} (hInvites : m.invites = e :: rest)
    (hHash : e.codeHash = hashCode env c) (hUnused : e.used = false) (hNow : now ≤ e.expiresAt) :
    (m.consumeInvite env c now).1.invites =
      ({ e with used := true } :: rest).filter (now < ·.expiresAt) := by
  have hPeek : m.peekInvite env c now = .ok e.ip := by
    unfold peekInvite
    rw [hInvites, List.find?_cons_of_pos (by simpa using hHash)]
    simp [hUnused, Nat.not_lt.mpr hNow]
  unfold consumeInvite
  rw [hPeek, hInvites]
  simp only [modifyFirst, hHash, decide_true, if_true]

def exampleCode (n : UInt8) : String := inviteCode (List.replicate 16 n)

/-- Two codes made at second 0: one for 200 seconds, and one for 100 that an IP is
bound to. -/
def exampleCodes : MeshConfig :=
  ((exampleRegistry.createInvite exampleMeshEnv (List.replicate 16 1) none 200 0).1.createInvite exampleMeshEnv
    (List.replicate 16 2) (some "10.13.13.9") 100 0).1

theorem exampleCodes_ne :
    hashCode exampleMeshEnv (exampleCode 1) ≠
        hashCode exampleMeshEnv (exampleCode 2) ∧
      hashCode exampleMeshEnv (exampleCode 3) ≠
        hashCode exampleMeshEnv (exampleCode 2) := by
  -- the texts give way to their characters, which are compared much faster
  unfold hashCode exampleCode inviteCode exampleMeshEnv hexEncode trim
  simp only [String.toList_ofList, String.toList_append, String.toList_intercalate, utf8_eq_flatMap, ne_eq,
    String.ofList_inj]
  decide +kernel

theorem exampleCodes_invites : exampleCodes.invites =
    [{ codeHash := hashCode exampleMeshEnv (exampleCode 1), expiresAt := 200, used := false,
       ip := none },
     { codeHash := hashCode exampleMeshEnv (exampleCode 2), expiresAt := 100, used := false,
       ip := some "10.13.13.9" }] := rfl

/-- A second before the shorter one runs out, spending the other leaves it alone. -/
theorem peekInvite_undisturbed_before :
    ((exampleCodes.consumeInvite exampleMeshEnv (exampleCode 1) 99).1.peekInvite exampleMeshEnv
        (exampleCode 2) 99).toOption =
      (exampleCodes.peekInvite exampleMeshEnv (exampleCode 2) 99).toOption := by
  have h := peekInvite_undisturbed_iff exampleMeshEnv exampleCodes (exampleCode 2) 99
  have hHashes : (exampleCodes.invites.map (·.codeHash)).Nodup := by
    rw [exampleCodes_invites]
    simp [exampleCodes_ne.1]
  refine (h.1 _ exampleCodes_ne.1).mpr (.inr ((h.2.2 hHashes).1.mpr fun e he _ _ => ?_))
  rw [exampleCodes_invites] at he
  rcases List.mem_cons.mp he with rfl | he
  · decide
  · rw [List.mem_singleton.mp he]
    decide

/-- In the second in which it runs out it could still be used, but not after the
other one is spent, or a third one is made. -/
theorem peekInvite_last_second :
    hashCode exampleMeshEnv (exampleCode 1) ≠
        hashCode exampleMeshEnv (exampleCode 2) ∧
      hashCode exampleMeshEnv (exampleCode 3) ≠
        hashCode exampleMeshEnv (exampleCode 2) ∧
      (exampleCodes.peekInvite exampleMeshEnv (exampleCode 2) 100).toOption =
        some (some "10.13.13.9") ∧
      ((exampleCodes.consumeInvite exampleMeshEnv (exampleCode 1) 100).1.peekInvite
        exampleMeshEnv (exampleCode 2) 100).toOption = none ∧
      ((exampleCodes.createInvite exampleMeshEnv (List.replicate 16 3) none 60 100).1.peekInvite
        exampleMeshEnv (exampleCode 2) 100).toOption = none := by
  obtain ⟨hFirst, hThird⟩ := exampleCodes_ne
  refine ⟨hFirst, hThird, ?_, ?_, ?_⟩
  · rw [peekInvite_toOption, exampleCodes_invites]
    simp [hFirst, InviteEntry.usable]
  · rw [peekInvite_toOption, consumeInvite_cons exampleCodes_invites rfl rfl (by decide)]
    simp [hFirst]
  · rw [peekInvite_toOption]
    unfold createInvite
    have hNew : inviteCode (List.replicate 16 3) = exampleCode 3 := rfl
    rw [exampleCodes_invites, hNew]
    simp [hFirst, hThird]

end MeshConfig

end LinkMesh
