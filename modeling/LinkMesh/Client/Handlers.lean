import LinkMesh.Client.Contacts

/-!
# The acts of the handlers

Every handler of a client is a list of acts on its sessions. `Performs` says so
of a handler, and what it was asked to send and which routing keys it drew beside
it.

## Results

* `performs_*`, `performsOwn_*` — the acts of each handler, and which of them the
  client does on its own.
* `performs_handlePeerData`     — a tunnel packet opens on the session of its
  source and runs the section of its content, between acts of the client's own.
* `handledInTurn_handleUdp`     — a datagram is its tunnel packets one by one.
-/

namespace LinkMesh

variable {Ct : Type} {cfg : Config} {C : Crypto Ct} {env : Env} {pk k : RawKey} {e : Event} {ct : Ct}
  {l : Contacts} {c c' c'' : Client Ct}

-- ---------------------------------------------------------------------------
-- Handlers
-- ---------------------------------------------------------------------------

/-- The private routing keys among the random values from `a` on, up to `b`. -/
def Env.rks (env : Env) (a b : Nat) : List RawKey := (List.range' a (b - a)).map fun i => (env.draw i).rk

theorem Env.rks_append {a b n : Nat} (hab : a ≤ b) (hbn : b ≤ n) : env.rks a b ++ env.rks b n = env.rks a n := by
  have hSplit : List.range' a (b - a) ++ List.range' b (n - b) = List.range' a (n - a) := by
    have hStart : b = a + 1 * (b - a) := by omega
    have hLength : n - a = (b - a) + (n - b) := by omega
    rw [hLength, ← List.range'_append, ← hStart]
  unfold Env.rks
  rw [← hSplit, List.map_append]

theorem Env.rks_one {a : Nat} : env.rks a (a + 1) = [(env.draw a).rk] := by
  have hOne : a + 1 - a = 1 := by omega
  rw [Env.rks, hOne]
  rfl

/-- From `c` to `c'` the client went through these acts, with routing keys of its
own draws, and was asked to send these packets. -/
structure Performs (cfg : Config) (C : Crypto Ct) (env : Env) (asked : List (RawKey × Bytes)) (acts : List Act)
    (c c' : Client Ct) : Prop where
  shows : ∀ l, c.Shows C l → c'.Shows C (l.run cfg C acts)
  owes : ∀ l xs, c.Shows C l → l.Owes xs → (l.run cfg C acts).Owes (xs ++ asked)
  draws : c.draws ≤ c'.draws
  drawn : (acts.filterMap Act.drawnRk).Sublist (env.rks c.draws c'.draws)

namespace Performs

variable {asked asked' : List (RawKey × Bytes)} {acts acts' : List Act}

theorem trans (h : Performs cfg C env asked acts c c') (h' : Performs cfg C env asked' acts' c' c'') :
    Performs cfg C env (asked ++ asked') (acts ++ acts') c c'' where
  shows l hl := by
    rw [Contacts.run_append]
    exact h'.shows _ (h.shows l hl)
  owes l xs hl hOwes := by
    rw [Contacts.run_append, ← List.append_assoc]
    exact h'.owes _ _ (h.shows l hl) (h.owes l xs hl hOwes)
  draws := h.draws.trans h'.draws
  drawn := by
    rw [List.filterMap_append, ← Env.rks_append h.draws h'.draws]
    exact h.drawn.append h'.drawn

/-- Nothing is done to the sessions. -/
theorem idle (h : ∀ l, c.Shows C l → c'.Shows C l) (hDraws : c.draws ≤ c'.draws) :
    Performs cfg C env [] [] c c' where
  shows := h
  owes l xs _ hOwes := by
    rw [List.append_nil]
    exact hOwes
  draws := hDraws
  drawn := List.nil_sublist _

/-- What leaves the sessions alone, after acts. -/
theorem followed (h : Performs cfg C env asked acts c c') (h' : Performs cfg C env [] [] c' c'') :
    Performs cfg C env asked acts c c'' := by
  have hBoth : Performs cfg C env (asked ++ []) (acts ++ []) c c'' := h.trans h'
  rwa [List.append_nil, List.append_nil] at hBoth

theorem refl : Performs cfg C env [] [] c c := idle (fun _ h => h) le_rfl

/-- An act that sends no packet. -/
theorem quiet {e : Event} (hQuiet : e.isQuiet = true)
    (h : ∀ l, c.Shows C l → c'.Shows C (l.next cfg C (.run pk e))) (hDraws : c.draws ≤ c'.draws)
    (hDrawn : e.drawnRk.toList.Sublist (env.rks c.draws c'.draws)) :
    Performs cfg C env [] [.run pk e] c c' where
  shows := h
  owes l xs _ hOwes := by
    rw [List.append_nil]
    exact hOwes.quiet hQuiet
  draws := hDraws
  drawn := by
    have hList : [Act.run pk e].filterMap Act.drawnRk = e.drawnRk.toList := by
      cases h : e.drawnRk <;> simp [Act.drawnRk, h]
    rw [hList]
    exact hDrawn

end Performs

/-- The acts of `send_data`. -/
def sendActs (env : Env) (pk : RawKey) (draws : Nat) (payload : Bytes) : List Act :=
  [.run pk (.countPkt env.now (env.draw draws)), .run pk (.sealData env.now payload)]

theorem performs_sendData {payload : Bytes} :
    Performs cfg C env [(pk, payload)] (sendActs env pk c.draws payload) c (sendData cfg C env pk payload c) where
  shows l h := by
    have hDraws : (requery env pk c).draws = c.draws := sends_requery.draws
    rw [← hDraws]
    have hCount : (sendSection cfg C env pk (DataPlane.countPkt cfg C env.now (env.draw (requery env pk c).draws))
        ((requery env pk c).draw env).2).Shows C
        (l.next cfg C (.run pk (.countPkt env.now (env.draw (requery env pk c).draws)))) :=
      h.requery.draw.sendSection (fun _ _ => ⟨rfl, rfl⟩) fun _ => step_delivered nofun
    exact hCount.sendSection (e := .sealData env.now payload) (fun _ _ => ⟨rfl, rfl⟩) fun _ => step_delivered nofun
  owes l xs _ hOwes := by
    have hCounted : (l.next cfg C (.run pk (.countPkt env.now (env.draw c.draws)))).Owes xs := hOwes.quiet rfl
    exact hCounted.sealData
  draws := by
    rw [draws_sendData]
    exact Nat.le_succ _
  drawn := by
    rw [draws_sendData, Env.rks_one]
    exact List.Sublist.refl _

/-- The acts of sending several packets. -/
def flushActs (env : Env) (pk : RawKey) : Nat → List Bytes → List Act
  | _, [] => []
  | draws, p :: ps => sendActs env pk draws p ++ flushActs env pk (draws + 1) ps

theorem mem_flushActs {a : Act} {n : Nat} {ps : List Bytes} (h : a ∈ flushActs env pk n ps) :
    a.isOwn = true ∧ a.peer = pk := by
  induction ps generalizing n with
  | nil => cases h
  | cons p ps ih =>
    rcases List.mem_append.mp h with hHead | hTail
    · rcases List.mem_cons.mp hHead with rfl | hSecond
      · exact ⟨rfl, rfl⟩
      · obtain rfl := List.mem_singleton.mp hSecond
        exact ⟨rfl, rfl⟩
    · exact ih hTail

theorem performs_sendAll (ps : List Bytes) :
    Performs cfg C env (ps.map fun p => (pk, p)) (flushActs env pk c.draws ps) c
      (ps.foldl (fun c p => sendData cfg C env pk p c) c) := by
  induction ps generalizing c with
  | nil => exact .refl
  | cons p ps ih =>
    have hTail : Performs cfg C env (ps.map fun p => (pk, p)) (flushActs env pk (sendData cfg C env pk p c).draws ps)
        (sendData cfg C env pk p c) (ps.foldl (fun c p => sendData cfg C env pk p c) (sendData cfg C env pk p c)) := ih
    rw [draws_sendData] at hTail
    exact performs_sendData.trans hTail

/-- What is owed under one list is owed under one that says more. -/
theorem Contacts.Owes.weaken {xs ys : List (RawKey × Bytes)} (h : l.Owes ys)
    (hMore : ∀ k, (ofPeer k ys).Sublist (ofPeer k xs)) : l.Owes xs := by
  intro k n hn
  obtain ⟨hSub, hHeld⟩ := h k n hn
  exact ⟨hSub.trans (hMore k), hHeld⟩

/-- The packets stored for a peer, and all that others were to be sent. -/
def settled (pk : RawKey) (n : Node) (xs : List (RawKey × Bytes)) : List (RawKey × Bytes) :=
  (xs.filter fun x => x.1 ≠ pk) ++ n.stored.map fun q => (pk, q.2)

theorem ofPeer_settled {n : Node} {xs : List (RawKey × Bytes)} :
    ofPeer k (settled pk n xs) = if k = pk then n.stored.map Prod.snd else ofPeer k xs := by
  have hStored : n.stored.map (fun q => (pk, q.2)) = (n.stored.map Prod.snd).map fun p => (pk, p) := by
    rw [List.map_map]
    rfl
  rw [settled, ofPeer_append, hStored, ofPeer_map]
  by_cases hk : k = pk
  · subst hk
    simp [ofPeer, List.filter_filter]
  · have hOthers : ∀ x : RawKey × Bytes, (decide (x.1 = k) && decide (x.1 ≠ pk)) = decide (x.1 = k) := by
      intro x
      by_cases hx : x.1 = k
      · simp [hx, hk]
      · simp [hx]
    simp only [if_neg hk, if_neg (Ne.symm hk), List.append_nil, ofPeer, List.filter_filter, hOthers]

/-- When the handshake is complete the packets held back are taken out: nothing
more than what was stored is owed then. -/
theorem Contacts.Owes.takePending {xs : List (RawKey × Bytes)} {n : Node} {now : Instant} {d : Draw} {rk : RawKey}
    {salt : Salt} (h : l.Owes xs) (hs : l.session pk = some n) :
    ((l.next cfg C (.run pk (.handleHello now d rk salt))).next cfg C (.run pk .takePending)).Owes
      (settled pk n xs) := by
  intro k m hm
  rw [node_run (session_run hs)] at hm
  rw [ofPeer_settled]
  split at hm
  · rename_i hk
    cases hm
    rw [if_pos hk]
    refine ⟨?_, fun _ => rfl⟩
    have hSame : ((n.step cfg C (.handleHello now d rk salt)).step cfg C .takePending).stored = n.stored := by
      show (n.stored ++ []) ++ [] = n.stored
      simp
    rw [hSame]
    show (n.stored.map Prod.snd ++ []).Sublist _
    rw [List.append_nil]
  · rename_i hk
    rw [if_neg hk]
    rw [node_run hs, if_neg hk] at hm
    exact h k m hm

namespace Client.Shows

theorem bindIp {ip : String} (h : c.Shows C l) : (bindIp env pk ip c).Shows C l := by
  refine h.of_same plane_bindIp ?_ ?_
  · unfold LinkMesh.bindIp
    split <;> rfl
  · unfold LinkMesh.bindIp
    split <;> rfl

theorem sendReply {hello : Option Sealing} (h : c.Shows C l) (hSealed : ∀ f ∈ hello, l.Sealed C (f.ct C)) :
    (sendReply cfg C env pk hello c).Shows C l := by
  cases hello with
  | none => exact h
  | some f =>
    have hSealed : l.Sealed C (f.ct C) := hSealed f rfl
    simp only [LinkMesh.sendReply]
    split
    · exact (h.relaySend hSealed).transportSend hSealed
    · exact h.transportSend hSealed

theorem answerHello {ip : String} {isFirst : Bool} {hello : Option Sealing} (h : c.Shows C l)
    (hSealed : ∀ f ∈ hello, l.Sealed C (f.ct C)) : (answerHello cfg C env pk ip isFirst hello c).Shows C l := by
  unfold LinkMesh.answerHello
  dsimp only
  refine Shows.sendReply (Shows.bindIp (h.update fun s => ?_)) hSealed
  rfl

end Client.Shows

theorem draws_answerHello {ip : String} {isFirst : Bool} {hello : Option Sealing} :
    (answerHello cfg C env pk ip isFirst hello c).draws = c.draws := by
  unfold answerHello
  dsimp only
  rw [sends_sendReply.draws]
  unfold bindIp
  split <;> rfl

theorem draws_locked {α : Type} {f : DataPlane → DataPlane × α} : (c.locked pk f).1.draws = c.draws := by
  unfold Client.locked
  split <;> rfl

/-- A HELLO of a peer whose handshake is complete sends nothing. -/
theorem Contacts.Owes.helloAgain {xs : List (RawKey × Bytes)} {now : Instant} {d : Draw} {rk : RawKey} {salt : Salt}
    (h : l.Owes xs) (hEst : ∀ n, l.session pk = some n → n.dp.established = true) :
    (l.next cfg C (.run pk (.handleHello now d rk salt))).Owes xs := by
  have hRun : (l.next cfg C (.run pk (.handleHello now d rk salt))).Owes (xs ++ []) := by
    refine h.run fun n hn hSub hHeld => ?_
    have hPending : (n.dp.step cfg C (.handleHello now d rk salt)).1.pending = n.dp.pending := step_hello.2.1
    have hSame : (n.step cfg C (.handleHello now d rk salt)).stored = n.stored := List.append_nil _
    rw [hSame, Node.step_dp, hPending, List.append_nil]
    exact ⟨hSub, fun _ => hHeld (hEst n hn)⟩
  rwa [List.append_nil] at hRun

theorem Client.Shows.established (h : c.Shows C l) {s : DataPlane} (hs : c.plane pk = some s) {n : Node}
    (hn : l.session pk = some n) : n.dp = s := by
  have hPlane : l.plane pk = some n.dp := congrArg (Option.map Node.dp) hn
  exact Option.some.inj ((hPlane.symm.trans (h.plane pk).symm).trans hs)

/-- A HELLO: its section, and when it completes the handshake the packets that
were held back. -/
theorem performs_handleHello {rk : RawKey} {salt : Salt} {ip : String} :
    ∃ post, (∀ a ∈ post, a.isOwn = true ∧ a.peer = pk) ∧
      Performs cfg C env [] (.run pk (.handleHello env.now (env.draw c.draws) rk salt) :: post) c
        (handleHello cfg C env pk rk salt ip c) := by
  unfold handleHello
  dsimp only
  have hSection : ∀ l, c.Shows C l → ((c.draw env).2.locked pk
      (DataPlane.handleHello cfg C env.now (c.draw env).1 rk salt)).1.Shows C
        (l.next cfg C (.run pk (.handleHello env.now (env.draw c.draws) rk salt))) :=
    fun l h => h.draw.locked (fun _ _ => rfl) fun _ => rfl
  have hDraws : ((c.draw env).2.locked pk
      (DataPlane.handleHello cfg C env.now (c.draw env).1 rk salt)).1.draws = c.draws + 1 := draws_locked
  have hResult : ((c.draw env).2.locked pk (DataPlane.handleHello cfg C env.now (c.draw env).1 rk salt)).2 =
      (c.plane pk).map fun s => (s.handleHello cfg C env.now (env.draw c.draws) rk salt).2 := by
    cases hs : c.peers[pk]? with
    | none => simp [Client.locked, Client.draw, Client.plane, hs]
    | some s => simp [Client.locked, Client.draw, Client.plane, hs]
  have hAfter : ((c.draw env).2.locked pk (DataPlane.handleHello cfg C env.now (c.draw env).1 rk salt)).1.plane pk =
      (c.plane pk).map fun s => (s.handleHello cfg C env.now (env.draw c.draws) rk salt).1 := by
    rw [Client.plane_locked, if_pos rfl]
    rfl
  rw [hResult]
  generalize ((c.draw env).2.locked pk _).1 = c₁ at hSection hDraws hAfter ⊢
  cases hs : c.plane pk with
  | none =>
    have hMore : c.draws ≤ c₁.draws := by omega
    refine ⟨[], List.forall_mem_nil _, hSection, fun l xs h hOwes => ?_, hMore, List.nil_sublist _⟩
    rw [List.append_nil]
    refine hOwes.helloAgain fun n hn => ?_
    have hPlane : l.plane pk = none := (h.plane pk).symm.trans hs
    rw [Contacts.plane, hn] at hPlane
    cases hPlane
  | some s =>
    rw [hs] at hAfter
    -- the reply was sealed by the section
    have hReply : ∀ l, c.Shows C l → ∀ f ∈ (s.handleHello cfg C env.now (env.draw c.draws) rk salt).2.2,
        (l.next cfg C (.run pk (.handleHello env.now (env.draw c.draws) rk salt))).Sealed C (f.ct C) := by
      intro l h f hf
      exact Contacts.sealed_run ((h.plane pk).symm.trans hs) (Option.mem_toList.mpr hf)
    have hPending : (s.handleHello cfg C env.now (env.draw c.draws) rk salt).1.pending = s.pending :=
      step_hello.2.1
    have hFirst : (s.handleHello cfg C env.now (env.draw c.draws) rk salt).2.1 = s.peerKey.isNone := rfl
    simp only [Option.map_some] at hAfter ⊢
    generalize s.handleHello cfg C env.now (env.draw c.draws) rk salt = r at hAfter hReply hPending hFirst ⊢
    obtain ⟨s₁, isFirst, hello⟩ := r
    simp only at hAfter hReply hPending hFirst ⊢
    unfold afterHello
    dsimp only
    split
    · -- the handshake is complete, and the packets held back follow
      have hTaken : ((answerHello cfg C env pk ip isFirst hello c₁).locked pk DataPlane.takePending).2 =
          some s.pending := by
        have hPlane : (answerHello cfg C env pk ip isFirst hello c₁).plane pk = some s₁ :=
          (plane_answerHello pk).trans hAfter
        obtain ⟨s₂, hs₂, rfl⟩ := Option.map_eq_some_iff.mp hPlane
        rw [Client.locked, hs₂]
        exact congrArg some hPending
      have hRound : Performs cfg C env (s.pending.map fun p => (pk, p)) (flushActs env pk (c.draws + 1) s.pending)
          ((answerHello cfg C env pk ip isFirst hello c₁).locked pk DataPlane.takePending).1
          (flushPending cfg C env pk (answerHello cfg C env pk ip isFirst hello c₁)) := by
        have hAll : Performs cfg C env (s.pending.map fun p => (pk, p))
            (flushActs env pk ((answerHello cfg C env pk ip isFirst hello c₁).locked pk DataPlane.takePending).1.draws
              s.pending) ((answerHello cfg C env pk ip isFirst hello c₁).locked pk DataPlane.takePending).1 _ :=
          performs_sendAll s.pending
        rw [draws_locked, draws_answerHello, hDraws] at hAll
        simp only [flushPending, hTaken, Option.getD_some]
        exact hAll
      have hBefore : ∀ l, c.Shows C l →
          ((answerHello cfg C env pk ip isFirst hello c₁).locked pk DataPlane.takePending).1.Shows C
            ((l.next cfg C (.run pk (.handleHello env.now (env.draw c.draws) rk salt))).next cfg C
              (.run pk .takePending)) :=
        fun l h => ((hSection l h).answerHello (hReply l h)).locked (fun _ _ => rfl) fun _ => rfl
      refine ⟨.run pk .takePending :: flushActs env pk (c.draws + 1) s.pending, fun a ha => ?_,
        fun l h => hRound.shows _ (hBefore l h), fun l xs h hOwes => ?_, ?_, ?_⟩
      · rcases List.mem_cons.mp ha with rfl | ha
        · exact ⟨rfl, rfl⟩
        · exact mem_flushActs ha
      · obtain ⟨n, hn, rfl⟩ : ∃ n, l.session pk = some n ∧ n.dp = s :=
          Option.map_eq_some_iff.mp ((h.plane pk).symm.trans hs)
        refine (hRound.owes _ _ (hBefore l h) (hOwes.takePending hn)).weaken fun k => ?_
        rw [ofPeer_append, ofPeer_settled, ofPeer_map, List.append_nil]
        by_cases hk : k = pk
        · subst hk
          rw [if_pos rfl, if_pos rfl]
          exact (hOwes k n (Contacts.node_of_session hn)).1
        · rw [if_neg hk, if_neg (Ne.symm hk), List.append_nil]
      · have hMore := hRound.draws
        rw [draws_locked, draws_answerHello, hDraws] at hMore
        omega
      · have hDrawn := hRound.drawn
        have hMore := hRound.draws
        rw [draws_locked, draws_answerHello, hDraws] at hDrawn hMore
        rw [← Env.rks_append (Nat.le_succ c.draws) hMore]
        exact hDrawn.trans (List.sublist_append_right _ _)
    · rename_i hNot
      have hMore : c.draws ≤ (answerHello cfg C env pk ip isFirst hello c₁).draws := by
        rw [draws_answerHello]
        omega
      refine ⟨[], List.forall_mem_nil _, fun l h => (hSection l h).answerHello (hReply l h),
        fun l xs h hOwes => ?_, hMore, List.nil_sublist _⟩
      rw [List.append_nil]
      refine hOwes.helloAgain fun n hn => ?_
      rw [h.established hs hn]
      rw [hFirst] at hNot
      simpa [KeyState.established, Option.ne_none_iff_isSome] using hNot

theorem performs_handleRekey {epoch : Nat} {rk : RawKey} {salt : Salt} :
    Performs cfg C env [] [.run pk (.handleRekey env.now epoch rk salt)] c
      (handleRekey cfg C env pk epoch rk salt c) :=
  .quiet rfl (fun _ h => h.locked (fun _ _ => rfl) fun _ => rfl) draws_locked.ge (List.nil_sublist _)

theorem performs_handleAck {ack : Nat} :
    Performs cfg C env [] [.run pk (.handleAck ack)] c (handleAck env pk ack c) := by
  refine .quiet rfl (fun l h => ?_) le_rfl (List.nil_sublist _)
  have hRan : Ran cfg C pk [.handleAck ack] c (handleAck env pk ack c) := ran_handleAck
  refine ⟨fun k => ?_, fun d hd ct hct => (h.sent d hd ct hct).next _, ?_⟩
  · rw [Contacts.plane_run, ← h.plane]
    split
    · rename_i hk
      subst hk
      exact hRan.self
    · rename_i hk
      exact hRan.other k hk
  · have hHeard : (l.next cfg C (.run pk (.handleAck ack))).heard = l.heard := by
      simp only [Contacts.next]
      split
      · rfl
      · exact List.append_nil _
    rw [hHeard, ← h.tun]
    rfl

/-- Without an acknowledgement nothing is delivered. -/
theorem recvData_unacked {s : DataPlane} {epoch seq : Nat} {payload : Bytes}
    (h : (s.recvData epoch seq payload).2.2 = none) : (s.recvData epoch seq payload).2.1 = [] := by
  unfold DataPlane.recvData at h ⊢
  split
  · rfl
  · rename_i hGo
    rw [if_neg hGo] at h
    cases h

/-- A DATA frame: what it delivers goes to the TUN, and is acknowledged. -/
theorem performs_handleData {direct : Bool} {epoch seq : Nat} {payload : Bytes} :
    Performs cfg C env [] [.run pk (.recvData (env.draw c.draws) epoch seq payload)] c
      (handleData cfg C env pk direct epoch seq payload c) := by
  have hDraws : c.draws ≤ (handleData cfg C env pk direct epoch seq payload c).draws := by
    unfold handleData
    dsimp only
    split
    · show c.draws ≤ (transmit cfg C env pk _ _).draws
      rw [sends_transmit.draws]
      show c.draws ≤ (c.locked pk (DataPlane.recvData epoch seq payload)).1.draws + 1
      rw [draws_locked]
      exact Nat.le_succ _
    · exact draws_locked.ge
  refine .quiet rfl (fun l h => ?_) hDraws (List.nil_sublist _)
  have hPlane : ∀ k, (c.locked pk (DataPlane.recvData epoch seq payload)).1.plane k =
      (l.next cfg C (.run pk (.recvData (env.draw c.draws) epoch seq payload))).plane k := by
    intro k
    rw [Client.plane_locked, Contacts.plane_run, ← h.plane]
    rfl
  have hSent : ∀ d ∈ (c.locked pk (DataPlane.recvData epoch seq payload)).1.sent, ∀ ct ∈ d.2.cts,
      (l.next cfg C (.run pk (.recvData (env.draw c.draws) epoch seq payload))).Sealed C ct := by
    intro d hd ct hct
    refine (h.sent d ?_ ct hct).next _
    unfold Client.locked at hd
    split at hd <;> exact hd
  have hTun : (c.locked pk (DataPlane.recvData epoch seq payload)).1.tun = c.tun := by
    unfold Client.locked
    split <;> rfl
  have hDrawn : (c.locked pk (DataPlane.recvData epoch seq payload)).1.draws = c.draws := draws_locked
  have hResult : (c.locked pk (DataPlane.recvData epoch seq payload)).2 =
      (c.plane pk).map fun s => (s.recvData epoch seq payload).2 := by
    cases hs : c.peers[pk]? with
    | none => simp [Client.locked, Client.plane, hs]
    | some s => simp [Client.locked, Client.plane, hs]
  have hAfter : (c.locked pk (DataPlane.recvData epoch seq payload)).1.plane pk =
      (c.plane pk).map fun s => (s.recvData epoch seq payload).1 := by
    rw [Client.plane_locked, if_pos rfl]
  unfold handleData
  dsimp only
  rw [hResult]
  generalize (c.locked pk (DataPlane.recvData epoch seq payload)).1 = c₁ at hPlane hSent hTun hDrawn hAfter ⊢
  cases hs : c.plane pk with
  | none =>
    have hNone : l.session pk = none := Option.map_eq_none_iff.mp ((h.plane pk).symm.trans hs)
    have hSame : c₁.tun = (l.next cfg C (.run pk (.recvData (env.draw c.draws) epoch seq payload))).heard.map
        Prod.snd := by
      rw [hTun, h.tun]
      simp only [Contacts.next, hNone]
    exact ⟨hPlane, hSent, hSame⟩
  | some s =>
    obtain ⟨n, hn, rfl⟩ : ∃ n, l.session pk = some n ∧ n.dp = s :=
      Option.map_eq_some_iff.mp ((h.plane pk).symm.trans hs)
    have hHeard : (l.next cfg C (.run pk (.recvData (env.draw c.draws) epoch seq payload))).heard =
        l.heard ++ (n.dp.recvData epoch seq payload).2.1.map fun p => (pk, p) := by
      simp only [Contacts.next, hn]
      rfl
    have hAck : (n.dp.step cfg C (.recvData (env.draw c.draws) epoch seq payload)).2.sealed =
        ((n.dp.recvData epoch seq payload).2.2.bind
          ((n.dp.recvData epoch seq payload).1.sendAck (env.draw c.draws))).toList := rfl
    have hUnacked : (n.dp.recvData epoch seq payload).2.2 = none → (n.dp.recvData epoch seq payload).2.1 = [] :=
      recvData_unacked
    have hSealed : ∀ f ∈ (n.dp.step cfg C (.recvData (env.draw c.draws) epoch seq payload)).2.sealed,
        (l.next cfg C (.run pk (.recvData (env.draw c.draws) epoch seq payload))).Sealed C (f.ct C) :=
      fun f hf => Contacts.sealed_run ((h.plane pk).symm.trans hs) hf
    rw [hAck] at hSealed
    rw [hs] at hAfter
    simp only [Option.map_some] at hAfter ⊢
    generalize n.dp.recvData epoch seq payload = r at hHeard hUnacked hSealed hAfter ⊢
    obtain ⟨s₁, delivered, ack⟩ := r
    simp only at hHeard hUnacked hSealed hAfter ⊢
    cases ack with
    | none =>
      refine ⟨hPlane, hSent, ?_⟩
      rw [hHeard, hTun, h.tun, hUnacked rfl]
      simp
    | some ack =>
      -- the counters and the TUN, then the acknowledgement
      have hCounted : ∀ c₂ : Client Ct, (∀ k, c₂.plane k = c₁.plane k) → c₂.sent = c₁.sent →
          c₂.draws = c₁.draws → c₂.tun = c₁.tun ++ delivered → (sendAck cfg C env pk ack c₂).Shows C
            (l.next cfg C (.run pk (.recvData (env.draw c.draws) epoch seq payload))) := by
        intro c₂ hPlane₂ hSent₂ hDraws₂ hTun₂
        have hShows : c₂.Shows C (l.next cfg C (.run pk (.recvData (env.draw c.draws) epoch seq payload))) := by
          refine ⟨fun k => (hPlane₂ k).trans (hPlane k), by rwa [hSent₂], ?_⟩
          rw [hTun₂, hTun, hHeard, h.tun, List.map_append, List.map_map]
          simp [Function.comp_def]
        obtain ⟨s₂, hs₂, hDp⟩ : ∃ s₂, c₂.peers[pk]? = some s₂ ∧ s₂.toDataPlane = s₁ :=
          Option.map_eq_some_iff.mp ((hPlane₂ pk).trans hAfter)
        have hDrawnShows : (c₂.draw env).2.Shows C _ := hShows.draw
        refine hDrawnShows.transmit fun f hf => hSealed f ?_
        simp only [hs₂, Option.bind_some, hDp, hDraws₂, hDrawn] at hf
        exact Option.mem_toList.mpr hf
      refine hCounted _ (fun k => Client.plane_update ?_ k) rfl rfl rfl
      exact fun _ => rfl

/-- A tunnel packet on the session of its source. -/
theorem performs_dispatch (cfg : Config) (C : Crypto Ct) (env : Env) (pk : RawKey) (direct : Bool) (c : Client Ct)
    (p : Plain) : ∃ d post, (∀ a ∈ post, a.isOwn = true ∧ a.peer = pk) ∧
      Performs cfg C env [] ((p.event env.now d).toList.map (Act.run pk) ++ post) c
        (dispatch cfg C env pk direct c p) := by
  cases p with
  | hello k rk salt ip =>
    obtain ⟨post, hPost, hPerforms⟩ : ∃ post, (∀ a ∈ post, a.isOwn = true ∧ a.peer = pk) ∧
        Performs cfg C env [] (.run pk (.handleHello env.now (env.draw c.draws) rk salt) :: post) c
          (handleHello cfg C env pk rk salt ip c) := performs_handleHello
    exact ⟨_, post, hPost, hPerforms⟩
  | data epoch seq payload => exact ⟨env.draw c.draws, [], nofun, performs_handleData⟩
  | rekey epoch rk salt => exact ⟨env.draw c.draws, [], nofun, performs_handleRekey⟩
  | ack k a => exact ⟨env.draw c.draws, [], nofun, performs_handleAck⟩
  | malformed => exact ⟨env.draw c.draws, [], nofun, .refl⟩
  | short => exact ⟨env.draw c.draws, [], nofun, .refl⟩

/-- A session is inserted where there was none. -/
theorem performs_create {ip : String} {endpoint : Option SocketAddr} (hs : c.peers[pk]? = none) :
    Performs cfg C env [] [.create pk env.now (env.draw c.draws)] c
      (getOrCreateSession C env pk ip (C.sharedSecret cfg.localPriv pk) endpoint c) := by
  have hCreated : getOrCreateSession C env pk ip (C.sharedSecret cfg.localPriv pk) endpoint c =
      { c with
        peers := c.peers.insert pk (PeerSession.new pk ip (C.sharedSecret cfg.localPriv pk) endpoint
          (env.draw c.draws).rk (C.publicKey (env.draw c.draws).rk) (env.draw c.draws).salt env.now)
        draws := c.draws + 1 } := by
    simp only [getOrCreateSession, hs, Client.draw]
  rw [hCreated]
  refine ⟨fun l h => ⟨fun k => ?_, fun d hd ct hct => (h.sent d hd ct hct).run _, ?_⟩,
    fun l xs h hOwes => ?_, Nat.le_succ _, ?_⟩
  · have hNone : l.plane pk = none := by
      rw [← h.plane, Client.plane, hs]
      rfl
    show Option.map _ _ = (l.next cfg C (.create pk env.now (env.draw c.draws))).plane k
    rw [Contacts.plane_create hNone, SeqMap.getElem?_insert]
    split
    · rfl
    · exact h.plane k
  · have hHeard : (l.next cfg C (.create pk env.now (env.draw c.draws))).heard = l.heard := by
      simp only [Contacts.next]
      split <;> rfl
    show c.tun = (l.next cfg C (.create pk env.now (env.draw c.draws))).heard.map Prod.snd
    rw [hHeard, h.tun]
  · rw [List.append_nil]
    exact hOwes.create
  · show List.Sublist _ (env.rks c.draws (c.draws + 1))
    rw [Env.rks_one]
    exact List.Sublist.refl _

namespace Client.Shows

/-- To build a HELLO changes nothing. -/
theorem buildHello {d : Draw} (h : c.Shows C l) : c.Shows C (l.next cfg C (.run pk (.buildHello d))) where
  plane k := by
    rw [Contacts.plane_run, ← h.plane]
    split
    · exact Option.map_id'.symm
    · rfl
  sent d hd ct hct := (h.sent d hd ct hct).next _
  tun := by
    have hHeard : (l.next cfg C (.run pk (.buildHello d))).heard = l.heard := by
      simp only [Contacts.next]
      split
      · rfl
      · exact List.append_nil _
    rw [hHeard, h.tun]

/-- The HELLO that is built on the session with a peer. -/
theorem sealed_buildHello {d : Draw} {hello : Sealing} (h : c.Shows C l)
    (hSome : (c.peers[pk]?.bind fun s => s.buildHelloCt cfg d) = some hello) :
    (l.next cfg C (.run pk (.buildHello d))).Sealed C (hello.ct C) := by
  obtain ⟨s, hs, hHello⟩ := Option.bind_eq_some_iff.mp hSome
  have hPlane : l.plane pk = some s.toDataPlane := by
    rw [← h.plane, Client.plane, hs]
    rfl
  refine Contacts.sealed_run hPlane ?_
  show hello ∈ (s.toKeyState.buildHelloCt cfg d).toList
  rw [hHello]
  exact List.mem_singleton_self _

end Client.Shows

/-- A HELLO of the session goes through the relay. -/
theorem performs_relayHello : Performs cfg C env [] [.run pk (.buildHello (env.draw c.draws))] c
    (relayHello cfg C env pk c) := by
  refine .quiet rfl (fun l h => ?_) ?_ (List.nil_sublist _)
  · have hDrawn : (c.draw env).2.Shows C (l.next cfg C (.run pk (.buildHello (env.draw c.draws)))) :=
      h.draw.buildHello
    simp only [relayHello, Client.draw]
    split
    · rename_i hello hSome
      exact hDrawn.relaySend (h.sealed_buildHello hSome)
    · exact hDrawn
  · simp only [relayHello, Client.draw]
    split
    · rw [sends_relaySend.draws]
      exact Nat.le_succ _
    · exact Nat.le_succ _

/-- A source that is unknown gets a session, and a HELLO if its packet was relayed. -/
theorem performs_greetStranger {direct : Bool} {src : SocketAddr} :
    ∃ acts, (∀ a ∈ acts, a.isOwn = true ∧ a.peer = pk) ∧
      Performs cfg C env [] acts c (greetStranger cfg C env pk direct src c) := by
  cases hs : c.peers[pk]? with
  | some s => exact ⟨[], nofun, by rw [greetStranger_of_mem hs]; exact .refl⟩
  | none =>
    have hCreate : Performs cfg C env [] [.create pk env.now (env.draw c.draws)] c
        (getOrCreateSession C env pk "" (C.sharedSecret cfg.localPriv pk) none c) := performs_create hs
    simp only [greetStranger, hs]
    generalize getOrCreateSession C env pk "" (C.sharedSecret cfg.localPriv pk) none c = c₁ at hCreate ⊢
    cases direct with
    | true =>
      refine ⟨_, fun a ha => ?_, hCreate.trans (.idle (fun l h => ?_) le_rfl)⟩
      · obtain rfl := List.mem_singleton.mp ha
        exact ⟨rfl, rfl⟩
      · refine h.of_same (fun k => Client.plane_update ?_ k) rfl rfl
        exact fun _ => rfl
    | false =>
      refine ⟨_, fun a ha => ?_, hCreate.trans performs_relayHello⟩
      rcases List.mem_cons.mp ha with rfl | ha
      · exact ⟨rfl, rfl⟩
      · obtain rfl := List.mem_singleton.mp ha
        exact ⟨rfl, rfl⟩

/-- The session of a source that has been greeted: the one it had, or a new one. -/
theorem plane_greeted {ct : Ct} {direct : Bool} {src : SocketAddr} :
    ∃ s, (greetStranger cfg C env pk direct src c).plane pk = some s ∧
      s.openPeerData C ct = opened cfg C pk ct c ∧ (∀ s₀, c.plane pk = some s₀ → s = s₀) ∧
      (c.plane pk = none → s.established = false) := by
  obtain ⟨s, hs, hOpened⟩ : ∃ s, (greetStranger cfg C env pk direct src c).peers[pk]? = some s ∧
    s.openPeerData C ct = opened cfg C pk ct c := greetStranger_session
  refine ⟨s.toDataPlane, congrArg (Option.map _) hs, hOpened, ?_, ?_⟩
  · intro s₀ hOld
    obtain ⟨s₁, hs₁, rfl⟩ := Option.map_eq_some_iff.mp hOld
    rw [greetStranger_of_mem hs₁, hs₁] at hs
    cases hs
    rfl
  · intro hNone
    have hNew : c.peers[pk]? = none := Option.map_eq_none_iff.mp hNone
    cases direct with
    | true =>
      rw [greetStranger_direct hNew] at hs
      cases hs.symm.trans Std.ExtTreeMap.getElem?_insert_self
      rfl
    | false =>
      rw [greetStranger_relayed hNew] at hs
      cases hs.symm.trans Std.ExtTreeMap.getElem?_insert_self
      rfl

/--
**A tunnel packet.** The source gets a session if it has none. The packet is
dropped, or it opens on that session and the section of its content runs, then
acts of the client's own.
-/
theorem performs_handlePeerData (cfg : Config) (C : Crypto Ct) (env : Env) (pk : RawKey) (ct : Ct) (direct : Bool)
    (src : SocketAddr) (c : Client Ct) :
    ∃ pre c₁, (∀ a ∈ pre, a.isOwn = true ∧ a.peer = pk) ∧ Performs cfg C env [] pre c c₁ ∧
      (Performs cfg C env [] [] c₁ (handlePeerData cfg C env pk ct direct src c) ∨
        ∃ s p d e post, c₁.plane pk = some s ∧ (∀ s₀, c.plane pk = some s₀ → s = s₀) ∧
          (c.plane pk = none → s.established = false) ∧
          s.openPeerData C ct = some p ∧ opened cfg C pk ct c = some p ∧
          p.event env.now d = some e ∧ (∀ a ∈ post, a.isOwn = true ∧ a.peer = pk) ∧
          Performs cfg C env [] (.run pk e :: post) c₁ (handlePeerData cfg C env pk ct direct src c)) := by
  obtain ⟨pre, hPre, hGreeted⟩ : ∃ acts, (∀ a ∈ acts, a.isOwn = true ∧ a.peer = pk) ∧
    Performs cfg C env [] acts c (greetStranger cfg C env pk direct src c) := performs_greetStranger
  obtain ⟨s, hs, hOpened, hSame, hNew⟩ : ∃ s, (greetStranger cfg C env pk direct src c).plane pk = some s ∧
      s.openPeerData C ct = opened cfg C pk ct c ∧ (∀ s₀, c.plane pk = some s₀ → s = s₀) ∧
      (c.plane pk = none → s.established = false) := plane_greeted
  unfold handlePeerData
  dsimp only
  generalize greetStranger cfg C env pk direct src c = c₁ at hGreeted hs ⊢
  have hNoted : Performs cfg C env [] [] c₁ (if direct then noteDirect cfg env pk src c₁ else c₁) ∧
      (if direct then noteDirect cfg env pk src c₁ else c₁).plane pk = some s := by
    split
    · refine ⟨.idle (fun l h => h.of_same plane_noteDirect rfl rfl) le_rfl, (plane_noteDirect pk).trans hs⟩
    · exact ⟨.refl, hs⟩
  generalize (if direct then noteDirect cfg env pk src c₁ else c₁) = c₂ at hNoted ⊢
  obtain ⟨hPerforms, hs₂⟩ := hNoted
  have hStart : Performs cfg C env [] pre c c₂ := hGreeted.followed hPerforms
  obtain ⟨s₂, hSession, rfl⟩ := Option.map_eq_some_iff.mp hs₂
  simp only [hSession]
  split
  · exact ⟨pre, c₂, hPre, hStart, .inl .refl⟩
  · exact ⟨pre, c₂, hPre, hStart, .inl .refl⟩
  · rename_i p _ hOpens
    -- the transport may be changed before the packet is handled
    have hFlip : ∀ c₃, c₃ = (if !direct && relayFlips env p s₂ then
        c₂.update pk fun s => { s with transport := .relay } else c₂) →
        Performs cfg C env [] [] c₂ c₃ ∧ c₃.plane pk = some s₂.toDataPlane := by
      rintro c₃ rfl
      split
      · have hPlane : ∀ k, (c₂.update pk fun s => { s with transport := .relay }).plane k = c₂.plane k :=
          Client.plane_update fun _ => rfl
        exact ⟨.idle (fun l h => h.of_same hPlane rfl rfl) le_rfl, (hPlane pk).trans hs₂⟩
      · exact ⟨.refl, hs₂⟩
    generalize (if !direct && relayFlips env p s₂ then
        c₂.update pk fun s => { s with transport := .relay } else c₂) = c₃ at hFlip ⊢
    obtain ⟨hFlipped, hs₃⟩ := hFlip c₃ rfl
    have hReady : Performs cfg C env [] pre c c₃ := hStart.followed hFlipped
    obtain ⟨d, post, hPost, hDispatched⟩ := performs_dispatch cfg C env pk direct c₃ p
    refine ⟨pre, c₃, hPre, hReady, ?_⟩
    cases he : p.event env.now d with
    | none =>
      -- the content is not understood
      cases p with
      | malformed => exact .inl .refl
      | short => exact .inl .refl
      | _ => cases he
    | some e =>
      rw [he] at hDispatched
      exact .inr ⟨_, p, d, e, post, hs₃, hSame, hNew, hOpens, hOpened.symm.trans hOpens, he, hPost, hDispatched⟩

-- ---------------------------------------------------------------------------
-- Handlers of the client's own
-- ---------------------------------------------------------------------------

/-- The client acts on its own, and no session ends. -/
def PerformsOwn (cfg : Config) (C : Crypto Ct) (env : Env) (asked : List (RawKey × Bytes)) (c c' : Client Ct) : Prop :=
  ∃ acts, (∀ a ∈ acts, a.isOwn = true) ∧ Performs cfg C env asked acts c c'

namespace PerformsOwn

variable {asked asked' : List (RawKey × Bytes)}

theorem refl : PerformsOwn cfg C env [] c c := ⟨[], nofun, .refl⟩

theorem trans (h : PerformsOwn cfg C env asked c c') (h' : PerformsOwn cfg C env asked' c' c'') :
    PerformsOwn cfg C env (asked ++ asked') c c'' := by
  obtain ⟨acts, hOwn, hPerforms⟩ := h
  obtain ⟨acts', hOwn', hPerforms'⟩ := h'
  refine ⟨acts ++ acts', fun a ha => ?_, hPerforms.trans hPerforms'⟩
  rcases List.mem_append.mp ha with ha | ha
  · exact hOwn a ha
  · exact hOwn' a ha

theorem idle (h : ∀ l, c.Shows C l → c'.Shows C l) (hDraws : c.draws ≤ c'.draws) : PerformsOwn cfg C env [] c c' :=
  ⟨[], nofun, .idle h hDraws⟩

theorem run {e : Event} (hLocal : e.isLocal = true) (h : Performs cfg C env asked [.run pk e] c c') :
    PerformsOwn cfg C env asked c c' := by
  refine ⟨_, fun a ha => ?_, h⟩
  obtain rfl := List.mem_singleton.mp ha
  exact hLocal

theorem foldl {α : Type} {f : Client Ct → α → Client Ct} (h : ∀ c a, PerformsOwn cfg C env [] c (f c a))
    (as : List α) : PerformsOwn cfg C env [] c (as.foldl f c) := by
  induction as generalizing c with
  | nil => exact .refl
  | cons a as ih => exact (h c a).trans ih

end PerformsOwn

theorem performsOwn_sendData {payload : Bytes} :
    PerformsOwn cfg C env [(pk, payload)] c (sendData cfg C env pk payload c) := by
  refine ⟨_, fun a ha => ?_, performs_sendData⟩
  rcases List.mem_cons.mp ha with rfl | ha
  · exact rfl
  · obtain rfl := List.mem_singleton.mp ha
    exact rfl

theorem performsOwn_getOrCreateSession {ip : String} {endpoint : Option SocketAddr} :
    PerformsOwn cfg C env [] c (getOrCreateSession C env pk ip (C.sharedSecret cfg.localPriv pk) endpoint c) := by
  cases hs : c.peers[pk]? with
  | none =>
    refine ⟨_, fun a ha => ?_, performs_create hs⟩
    obtain rfl := List.mem_singleton.mp ha
    exact rfl
  | some s =>
    simp only [getOrCreateSession, hs]
    exact .refl

theorem performsOwn_relayHello : PerformsOwn cfg C env [] c (relayHello cfg C env pk c) :=
  .run rfl performs_relayHello

/-- The inner loop of `retransmit`. -/
theorem performsOwn_resends (entries : List (Nat × Bytes)) (hNodup : (entries.map Prod.fst).Nodup)
    (hDue : ∀ s, c.plane pk = some s → ∀ e ∈ entries, DueEntry env.now s.toWindow e) :
    PerformsOwn cfg C env [] c (entries.foldl (fun c (seq, payload) => resend cfg C env pk seq payload c) c) := by
  induction entries generalizing c with
  | nil => exact .refl
  | cons e entries ih =>
    obtain ⟨seq, payload⟩ := e
    simp only [List.map_cons, List.nodup_cons] at hNodup
    -- the entry is still there and due, so the section is the event
    have hSection : ∀ s, c.plane pk = some s →
        (s.resend env.now seq payload).1 = (s.step cfg C (.resend env.now seq)).1 ∧
          (s.step cfg C (.resend env.now seq)).2.sealed = (s.resend env.now seq payload).2.toList := by
      intro s hs
      obtain ⟨u, hu, hPayload, hIsDue⟩ := hDue s hs _ (List.mem_cons_self ..)
      dsimp only at hu hPayload
      simp only [DataPlane.step, hu, hIsDue, if_true, hPayload]
      exact ⟨trivial, trivial⟩
    have hHead : Performs cfg C env [] [.run pk (.resend env.now seq)] c (resend cfg C env pk seq payload c) := by
      refine .quiet rfl (fun l h => ?_) draws_sendSection.ge (List.nil_sublist _)
      refine h.sendSection hSection fun _ => step_delivered ?_
      rintro d k q p ⟨⟩
    refine (PerformsOwn.run rfl hHead).trans (ih hNodup.2 fun s hs e he => ?_)
    -- the plane after the first packet is that of the section
    have hAfter : (c.locked pk (DataPlane.resend env.now seq payload)).1.plane pk = some s :=
      (sends_transmit.plane pk).symm.trans hs
    rw [Client.plane_locked, if_pos rfl, Option.map_eq_some_iff] at hAfter
    obtain ⟨s₀, hs₀, rfl⟩ := hAfter
    refine (hDue s₀ hs₀ e (List.mem_cons_of_mem _ he)).resend ?_
    rintro rfl
    exact hNodup.1 (List.mem_map_of_mem he)

theorem performsOwn_retransmit : PerformsOwn cfg C env [] c (retransmit cfg C env c) := by
  refine .foldl (fun c pk => ?_) _
  split
  · exact .refl
  · rename_i s hs
    have hPlane : c.plane pk = some s.toDataPlane := by
      rw [Client.plane, hs]
      rfl
    refine performsOwn_resends _ nodup_expired fun s' hs' e he => ?_
    cases hPlane.symm.trans hs'
    exact dueEntry_of_expired he

theorem performsOwn_relayKeepalive : PerformsOwn cfg C env [] c (relayKeepalive cfg C env c) := by
  refine .foldl (fun c pk => ?_) _
  split
  · exact .refl
  · split
    · exact .refl
    · exact performsOwn_relayHello

theorem performsOwn_rekeyDue {timers : TimerConfig} : PerformsOwn cfg C env [] c (rekeyDue cfg C timers env c) := by
  unfold rekeyDue
  split
  · exact .refl
  · refine .foldl (fun c pk => ?_) _
    split
    · exact .refl
    · split
      · have hRotate : Performs cfg C env [] [.run pk (.maybeRekey env.now (env.draw c.draws))] c
            (sendSection cfg C env pk (DataPlane.maybeRekey cfg C env.now (env.draw c.draws)) (c.draw env).2) := by
          refine .quiet rfl (fun l h => ?_) ?_ ?_
          · have hDrawn : (c.draw env).2.Shows C l := h.draw
            exact hDrawn.sendSection (fun _ _ => ⟨rfl, rfl⟩) fun _ => step_delivered nofun
          · rw [draws_sendSection]
            exact Nat.le_succ _
          · rw [draws_sendSection]
            show List.Sublist _ (env.rks c.draws (c.draws + 1))
            rw [Env.rks_one]
            exact List.Sublist.refl _
        exact .run rfl hRotate
      · exact .refl

theorem performsOwn_noteRelayRk {relayRk : Option String} :
    PerformsOwn cfg C env [] c (c.noteRelayRk pk relayRk) := by
  unfold Client.noteRelayRk
  split
  · refine .idle (fun l h => h.of_same (fun k => Client.plane_update ?_ k) rfl rfl) le_rfl
    exact fun _ => rfl
  · exact .refl

theorem performsOwn_noteEndpoint {endpoint : Option SocketAddr} :
    PerformsOwn cfg C env [] c (c.noteEndpoint pk endpoint) := by
  unfold Client.noteEndpoint
  split
  · refine .idle (fun l h => h.of_same (fun k => Client.plane_update ?_ k) rfl rfl) le_rfl
    exact fun _ => rfl
  · exact .refl

theorem performsOwn_handleNotify {menv : MessageEnv} {peer : PeerInfo} :
    PerformsOwn cfg C menv.toEnv [] c (c.handleNotify cfg C menv peer) := by
  unfold Client.handleNotify
  split
  · exact .refl
  · exact (performsOwn_getOrCreateSession.trans performsOwn_noteEndpoint).trans performsOwn_noteRelayRk

theorem performsOwn_queryAnswered {menv : MessageEnv} {info : PeerInfo} :
    PerformsOwn cfg C menv.toEnv [] c (c.queryAnswered cfg C menv info) := by
  unfold Client.queryAnswered
  split
  · exact .refl
  · dsimp only
    split
    · exact .refl
    · rename_i pk _ _
      have hSession : PerformsOwn cfg C menv.toEnv [] c (getOrCreateSession C menv.toEnv pk (info.ip.getD "")
          (C.sharedSecret cfg.localPriv pk) (menv.parseEndpoint info.endpoint) c) := performsOwn_getOrCreateSession
      refine (hSession.trans (.idle (fun l h => ?_) ?_)).trans performsOwn_noteRelayRk
      · split
        · exact h.of_same (fun _ => rfl) rfl rfl
        · exact h.of_same (fun _ => rfl) rfl rfl
      · split <;> exact le_rfl

/-- What `route_forward` is asked to send. -/
def Client.forwarded (cfg : Config) (netmask : String) (pkt : Bytes) (c : Client Ct) : List (RawKey × Bytes) :=
  match c.route cfg netmask pkt with
  | .send pk => [(pk, pkt)]
  | _ => []

theorem performsOwn_routeForward {netmask : String} {pkt : Bytes} :
    PerformsOwn cfg C env (c.forwarded cfg netmask pkt) c (c.routeForward cfg C env netmask pkt) := by
  unfold Client.routeForward Client.forwarded
  cases c.route cfg netmask pkt with
  | drop => exact .refl
  | send pk => exact performsOwn_sendData
  | query dst => exact .idle (fun l h => h.of_same (fun _ => rfl) rfl rfl) le_rfl

theorem Client.Shows.removePeer (h : c.Shows C l) : (c.removePeer pk).Shows C (l.next cfg C (.remove pk)) := by
  have hSame : (c.removePeer pk).sent = c.sent ∧ (c.removePeer pk).tun = c.tun := by
    unfold Client.removePeer
    split <;> exact ⟨rfl, rfl⟩
  obtain ⟨hSent, hTun⟩ := hSame
  refine ⟨fun k => ?_, ?_, hTun.trans h.tun⟩
  · show Option.map _ _ = (l.next cfg C (.remove pk)).plane k
    rw [Contacts.plane_remove, Client.getElem?_peers_removePeer]
    split
    · rfl
    · exact h.plane k
  · rw [hSent]
    exact fun d hd ct hct => (h.sent d hd ct hct).next _

/-- Sessions end, and nothing more is owed. -/
theorem Contacts.Owes.remove {xs : List (RawKey × Bytes)} (h : l.Owes xs) (dead : List RawKey) :
    (l.run cfg C (dead.map .remove)).Owes xs := by
  induction dead generalizing l with
  | nil => exact h
  | cons pk dead ih => exact ih h

/-- A pruning ends sessions, which are gone then. -/
theorem Client.Shows.prunePeers (cfg : Config) (h : c.Shows C l) (now : Instant) (timeoutMs : Nat) :
    ∃ dead : List RawKey, (∀ pk ∈ dead, pk ∈ c.peers ∧ pk ∉ (c.prunePeers now timeoutMs).peers) ∧
      (c.prunePeers now timeoutMs).Shows C (l.run cfg C (dead.map .remove)) := by
  have hEach : ∀ (dead : List RawKey) (c : Client Ct) (l : Contacts), c.Shows C l →
      (dead.foldl (fun c pk => c.removePeer pk) c).Shows C (l.run cfg C (dead.map .remove)) := by
    intro dead
    induction dead with
    | nil => exact fun _ _ h => h
    | cons pk dead ih => exact fun c l h => ih _ _ h.removePeer
  refine ⟨_, fun pk hDead => ⟨?_, ?_⟩, hEach _ c l h⟩
  · obtain ⟨e, he, rfl⟩ := List.mem_map.mp hDead
    exact SeqMap.mem_iff.mpr ⟨e.2, Std.ExtTreeMap.mem_toList_iff_getElem?_eq_some.mp (List.mem_filter.mp he).1⟩
  · intro hMem
    obtain ⟨s, hs⟩ := SeqMap.mem_iff.mp hMem
    unfold Client.prunePeers at hs
    dsimp only at hs
    rw [(Client.removed _ c).1, if_pos hDead] at hs
    cases hs

-- ---------------------------------------------------------------------------
-- Datagrams
-- ---------------------------------------------------------------------------

/-- A tunnel packet that `handle_udp` finds in a datagram: the client that it
meets, and the source that it is taken to be from. -/
structure Incoming (Ct : Type) where
  client : Client Ct
  pk : RawKey
  ct : Ct
  direct : Bool

section Arrivals

variable (cfg : Config) (C : Crypto Ct) (env : Env) (src : SocketAddr)

/-- The packets of a batch, each met by the client that the one before it leaves. -/
def batchArrivals : List (Option (RawKey × Ct)) → Client Ct → List (Incoming Ct)
  | [], _ => []
  | none :: subframes, c => batchArrivals subframes c
  | some (key, ct) :: subframes, c =>
    ⟨c, resolveSubframe key c, ct, false⟩ ::
      batchArrivals subframes (handleSubframe cfg C env src c (some (key, ct)))

/-- The packets of a datagram. -/
def arrivals (pkt : Datagram Ct) (c : Client Ct) : List (Incoming Ct) :=
  match pkt with
  | .relay _ srcPub ct => if src ≠ cfg.relayAddr then [] else [⟨c, srcPub, ct, false⟩]
  | .relayRk _ srcRk ct =>
    if src ≠ cfg.relayAddr then []
    else
      match c.rkIndex[srcRk]? with
      | some pk => [⟨c, pk, ct, false⟩]
      | none => []
  | .relayBatch _ subframes => if src ≠ cfg.relayAddr then [] else batchArrivals cfg C env src subframes c
  | .direct ct =>
    match c.addrIndex[src]? with
    | some pk => [⟨c, pk, ct, true⟩]
    | none => []

/-- The packets are handled one after the other. -/
def HandledInTurn : List (Incoming Ct) → Client Ct → Client Ct → Prop
  | [], c, c' => c' = c
  | a :: as, c, c' => a.client = c ∧ HandledInTurn as (handlePeerData cfg C env a.pk a.ct a.direct src c) c'

/-- `handle_udp` is `handle_peer_data` on each packet of the datagram in turn. -/
theorem handledInTurn_handleUdp (pkt : Datagram Ct) (c : Client Ct) :
    HandledInTurn cfg C env src (arrivals cfg C env src pkt c) c (handleUdp cfg C env src pkt c) := by
  have hBatch : ∀ (subframes : List (Option (RawKey × Ct))) (c : Client Ct),
      HandledInTurn cfg C env src (batchArrivals cfg C env src subframes c) c
        (subframes.foldl (handleSubframe cfg C env src) c) := by
    intro subframes
    induction subframes with
    | nil => exact fun _ => rfl
    | cons sf subframes ih =>
      intro c
      cases sf with
      | none => exact ih c
      | some part => exact ⟨rfl, ih _⟩
  unfold handleUdp arrivals
  cases pkt with
  | direct ct =>
    cases c.addrIndex[src]? with
    | none => rfl
    | some pk => exact ⟨rfl, rfl⟩
  | relay dest srcPub ct =>
    dsimp only
    split
    · rfl
    · exact ⟨rfl, rfl⟩
  | relayRk dest srcRk ct =>
    dsimp only
    split
    · rfl
    · cases c.rkIndex[srcRk]? with
      | none => rfl
      | some pk => exact ⟨rfl, rfl⟩
  | relayBatch dest subframes =>
    dsimp only
    split
    · rfl
    · exact hBatch subframes c

/-- What the packets hand to the TUN, each with the source it is taken to be from. -/
def deliveries (as : List (Incoming Ct)) : List (RawKey × Bytes) :=
  as.flatMap fun a =>
    ((handlePeerData cfg C env a.pk a.ct a.direct src a.client).tun.drop a.client.tun.length).map fun p => (a.pk, p)

end Arrivals

end LinkMesh
