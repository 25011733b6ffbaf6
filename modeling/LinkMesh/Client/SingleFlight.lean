import Mathlib.Data.Finset.Basic
import LinkMesh.Basis.KeyMap
import LinkMesh.Basis.Machine
import LinkMesh.Basis.SeqMap
import LinkMesh.Wire.Signal

/-!
# Queries under way

`query_impl` and `handle_server_response` of `linkmesh-client/src/connection.rs`:
any number of tasks query the server at once, by IP or by name, and the main loop
hands the responses to them. A query for a key that is in `inflight` ends at
once. A step is what is done under one lock, or to the socket or a channel; a
wait for an answer ends at any time, with the answer if it is there.

The number of a call stands for its channel, and a response comes with the call
whose request it answers, which the code does not see.

## Results

* `Held.next`     — what calls hold, if no call gets in the way of another.
* `single_flight` — one request a key, and every call its own answer and waiter,
  in every run in which a call takes its key while that is free and a response
  comes while its call still waits.
-/

namespace LinkMesh

open Std

-- ---------------------------------------------------------------------------
-- Calls
-- ---------------------------------------------------------------------------

/-- Where a call of `query_impl` is. -/
inductive FlightPhase where
  /-- its key was not in `inflight` -/
  | checked
  | taken
  | registered
  /-- the request is out -/
  | waiting
  | leaving
  | dropping
  | done
  deriving DecidableEq, Repr

/-- The next lock of a call, or its request. -/
inductive FlightStep where
  | take
  | register
  | send (ok : Bool)
  /-- the answer, the timeout, or the loss of the sender -/
  | resume
  | release
  | drop
  deriving DecidableEq, Repr

/-- A result, with the call whose request it answers. -/
abbrev FlightAnswer := Option Nat × Except String PeerInfo

structure Flight where
  key : String
  body : QueryBody
  phase : FlightPhase := .checked
  /-- what its channel holds -/
  got : Option FlightAnswer := none
  result : Option FlightAnswer := none

namespace Flight

/-- The call after a step, if it can happen. -/
def advance (c : Flight) (e : FlightStep) : Option Flight :=
  match e, c.phase with
  | .take, .checked => some { c with phase := .taken }
  | .register, .taken => some { c with phase := .registered }
  | .send ok, .registered =>
    match encodeQuery c.body with
    | .error _ => some { c with phase := .leaving }
    | .ok _ => some { c with phase := if ok then .waiting else .leaving }
  | .resume, .waiting => some { c with phase := .leaving, result := c.got }
  | .release, .leaving => some { c with phase := .dropping }
  | .drop, .dropping => some { c with phase := .done }
  | _, _ => none

/-- A result for a receiver that is still there. -/
def receive (a : FlightAnswer) (c : Flight) : Flight :=
  match c.phase with
  | .registered => { c with got := some a }
  | .waiting => { c with got := some a }
  | _ => c

end Flight

-- ---------------------------------------------------------------------------
-- Responses
-- ---------------------------------------------------------------------------

/-- The key that a response names; empty if it answers no query. -/
def responseKey (resp : ResponseBody) : String :=
  match resp.data with
  | .queryHit req _ _ _ _ _ => req
  | .queryMiss req _ => req
  | _ => ""

def responseResult (resp : ResponseBody) : Except String PeerInfo :=
  match resp.data with
  | .queryHit _ ip publicKey endpoint relayRk aliasName =>
    .ok
      { publicKey, endpoint, relayRk
        aliasName := if aliasName = "" then none else some aliasName
        ip := some ip }
  | _ => .error (resp.error.getD "查询失败")

-- ---------------------------------------------------------------------------
-- Runs
-- ---------------------------------------------------------------------------

/-- The calls, and the two tables they share. -/
structure Flights where
  calls : ExtTreeMap Nat Flight
  inflight : Finset String
  pending : ExtTreeMap String Nat
  /-- the waiter that the main loop has taken out, with its result -/
  inHand : Option (Nat × FlightAnswer)
  /-- the calls whose requests are out -/
  sent : List Nat

inductive FlightEvent where
  | queryPeer (i : Nat) (ip : String)
  | queryByName (i : Nat) (name : String)
  | act (i : Nat) (e : FlightStep)
  /-- a response takes out the waiter of its key -/
  | respond (origin : Option Nat) (resp : ResponseBody)
  /-- the waiter is given the result -/
  | deliver

namespace Flights

/-- `query_impl` looks its key up. -/
def queryImpl (i : Nat) (key : String) (body : QueryBody) (s : Flights) : Flights :=
  if i ∈ s.calls ∨ key ∈ s.inflight then s else { s with calls := s.calls.insert i { key, body } }

/-- What a step of a call does to the tables. -/
def touch (i : Nat) (key : String) (s : Flights) : FlightStep → Flights
  | .take => { s with inflight := insert key s.inflight }
  | .register => { s with pending := s.pending.insert key i }
  | .send _ => s
  | .resume => s
  | .release => { s with inflight := s.inflight.erase key }
  | .drop => { s with pending := s.pending.erase key }

def act (i : Nat) (e : FlightStep) (s : Flights) : Flights :=
  match s.calls[i]? with
  | none => s
  | some c =>
    match c.advance e with
    | none => s
    | some c' =>
      { s.touch i c.key e with
        calls := s.calls.insert i c'
        sent := if c'.phase = .waiting then i :: s.sent else s.sent }

/-- `handle_server_response` -/
def respond (origin : Option Nat) (resp : ResponseBody) (s : Flights) : Flights :=
  match s.pending[responseKey resp]? with
  | none => s
  | some i =>
    { s with
      pending := s.pending.erase (responseKey resp)
      inHand := some (i, origin, responseResult resp) }

/-- `tx.send(result)` -/
def deliver (s : Flights) : Flights :=
  match s.inHand with
  | none => s
  | some (i, a) => { s with inHand := none, calls := s.calls.modify i fun c => c.receive a }

def next (s : Flights) : FlightEvent → Flights
  | .queryPeer i ip => s.queryImpl i ip { ip, name := none }
  | .queryByName i name => s.queryImpl i name { ip := "", name := some name }
  | .act i e => s.act i e
  | .respond origin resp => s.respond origin resp
  | .deliver => s.deliver

/-- Nobody asks for the empty key. The server answers a query under its key or
under none, and the main loop takes one response after the other. -/
def enabled (s : Flights) : FlightEvent → Prop
  | .queryPeer _ ip => ip ≠ ""
  | .queryByName _ name => name ≠ ""
  | .act _ _ => True
  | .respond origin resp => s.inHand = none ∧ (responseKey resp = "" ∨
      ∃ i c, origin = some i ∧ i ∈ s.sent ∧ s.calls[i]? = some c ∧ c.key = responseKey resp)
  | .deliver => True

def init : Flights := ⟨∅, ∅, ∅, none, []⟩

def machine : Machine Flights FlightEvent where
  init s := s = init
  enabled := enabled
  next := next

end Flights

-- ---------------------------------------------------------------------------
-- What a call holds
-- ---------------------------------------------------------------------------

namespace FlightPhase

/-- The call has put its key into `inflight`, and not taken it out. -/
def hasKey : FlightPhase → Bool
  | .taken => true
  | .registered => true
  | .waiting => true
  | .leaving => true
  | _ => false

/-- The call has taken its key, and has not ended. -/
def isActive (p : FlightPhase) : Bool := p.hasKey || p = .dropping

/-- The call has put its waiter into `pending`, and not taken it out. -/
def hasWaiter (p : FlightPhase) : Bool := p.isActive && p ≠ .taken

/-- The request is out, and the call has not ended. -/
def inFlight : FlightPhase → Bool
  | .waiting => true
  | .leaving => true
  | .dropping => true
  | _ => false

theorem isActive_of_hasWaiter {p : FlightPhase} (h : p.hasWaiter = true) : p.isActive = true := by
  cases p <;> simp_all [hasWaiter]

theorem isActive_of_inFlight {p : FlightPhase} (h : p.inFlight = true) : p.isActive = true := by
  cases p <;> simp_all [inFlight, isActive, hasKey]

end FlightPhase

namespace Flight

variable {c c' : Flight} {e : FlightStep}

/-- What a step can make of a call. -/
inductive Step (c : Flight) : FlightStep → Flight → Prop where
  | take : c.phase = .checked → Step c .take { c with phase := .taken }
  | register : c.phase = .taken → Step c .register { c with phase := .registered }
  | sent : c.phase = .registered → Step c (.send true) { c with phase := .waiting }
  | failed {ok : Bool} : c.phase = .registered → Step c (.send ok) { c with phase := .leaving }
  | resume : c.phase = .waiting → Step c .resume { c with phase := .leaving, result := c.got }
  | release : c.phase = .leaving → Step c .release { c with phase := .dropping }
  | drop : c.phase = .dropping → Step c .drop { c with phase := .done }

/-- A step makes nothing else of a call. -/
theorem advance_step (h : c.advance e = some c') : c.Step e c' := by
  unfold advance at h
  split at h
  · rename_i hPhase
    cases h
    exact .take hPhase
  · rename_i hPhase
    cases h
    exact .register hPhase
  · rename_i ok hPhase
    split at h
    · cases h
      exact .failed hPhase
    · cases h
      cases ok with
      | true => exact .sent hPhase
      | false => exact .failed hPhase
  · rename_i hPhase
    cases h
    exact .resume hPhase
  · rename_i hPhase
    cases h
    exact .release hPhase
  · rename_i hPhase
    cases h
    exact .drop hPhase
  · cases h

theorem receive_key {a : FlightAnswer} : (c.receive a).key = c.key := by
  unfold receive
  split <;> rfl

theorem receive_phase {a : FlightAnswer} : (c.receive a).phase = c.phase := by
  unfold receive
  split <;> rfl

end Flight

namespace Flights

variable {s : Flights} {i : Nat} {c c' : Flight} {e : FlightStep} {key : String} {body : QueryBody}

/-- What the calls hold when none gets in the way of another. -/
structure Held (s : Flights) : Prop where
  named : ∀ (i : Nat) c, s.calls[i]? = some c → c.key ≠ ""
  inflight : ∀ (i : Nat) c, s.calls[i]? = some c → c.phase.hasKey = true → c.key ∈ s.inflight
  alone : ∀ (i j : Nat) c d, s.calls[i]? = some c → s.calls[j]? = some d → c.phase.isActive = true →
    d.phase.isActive = true → c.key = d.key → i = j
  waiter : ∀ (k : String) i, s.pending[k]? = some i →
    ∃ c, s.calls[i]? = some c ∧ c.key = k ∧ c.phase.hasWaiter = true
  inHand : ∀ i a, s.inHand = some (i, a) → a.1 = some i
  answer : ∀ (i : Nat) c a, s.calls[i]? = some c → c.got = some a ∨ c.result = some a → a.1 = some i

/-- A call takes its key while it is free, and no other call for the key is
about to remove its waiter. A response that finds a waiter comes while the call
that it answers still waits. -/
def Undisturbed (s : Flights) : FlightEvent → Prop
  | .act i .take => ∀ c, s.calls[i]? = some c → c.phase = .checked →
      c.key ∉ s.inflight ∧ ∀ (j : Nat) d, s.calls[j]? = some d → d.key = c.key → d.phase ≠ .dropping
  | .respond origin resp => responseKey resp ∈ s.pending →
      ∃ i c, origin = some i ∧ s.calls[i]? = some c ∧ c.phase = .waiting
  | _ => True

theorem held_init : init.Held where
  named _ _ h := by simp [init] at h
  inflight _ _ h := by simp [init] at h
  alone _ _ _ _ h := by simp [init] at h
  waiter _ _ h := by simp [init] at h
  inHand _ _ h := by simp [init] at h
  answer _ _ _ h := by simp [init] at h

/-- A new call holds nothing. -/
theorem Held.queryImpl (h : s.Held) (hKey : key ≠ "") : (s.queryImpl i key body).Held := by
  unfold Flights.queryImpl
  split
  · exact h
  · rename_i hFree
    have hNew : i ∉ s.calls := fun hMem => hFree (.inl hMem)
    have hCall : ∀ (j : Nat) d, (s.calls.insert i { key, body })[j]? = some d →
        (j = i ∧ d = { key, body }) ∨ s.calls[j]? = some d := fun j d hd => KeyMap.insert_cases hd
    refine ⟨fun j d hd => ?_, fun j d hd hHas => ?_, fun j j' d d' hd hd' hActive hActive' hSame => ?_,
      fun k j hEntry => ?_, h.inHand, fun j d a hd hAnswer => ?_⟩
    · rcases hCall j d hd with ⟨_, rfl⟩ | hOld
      · exact hKey
      · exact h.named j d hOld
    · rcases hCall j d hd with ⟨_, rfl⟩ | hOld
      · cases hHas
      · exact h.inflight j d hOld hHas
    · rcases hCall j d hd with ⟨_, rfl⟩ | hOld
      · cases hActive
      · rcases hCall j' d' hd' with ⟨_, rfl⟩ | hOld'
        · cases hActive'
        · exact h.alone j j' d d' hOld hOld' hActive hActive' hSame
    · obtain ⟨d, hd, hWaiter⟩ := h.waiter k j hEntry
      refine ⟨d, ?_, hWaiter⟩
      rw [SeqMap.getElem?_insert, if_neg]
      · exact hd
      · rintro rfl
        exact hNew (SeqMap.mem_iff.mpr ⟨d, hd⟩)
    · rcases hCall j d hd with ⟨_, rfl⟩ | hOld
      · rcases hAnswer with hGot | hResult
        · cases hGot
        · cases hResult
      · exact h.answer j d a hOld hAnswer

/-- Nobody else holds what an active call holds. -/
theorem Held.other (h : s.Held) (hc : s.calls[i]? = some c) (hActive : c.phase.isActive = true) {j : Nat}
    {d : Flight} (hd : s.calls[j]? = some d) (hOther : j ≠ i) (hSame : d.key = c.key) :
    d.phase.isActive = false := by
  by_contra hBoth
  exact hOther (h.alone j i d c hd hc (Bool.eq_true_of_not_eq_false hBoth) hActive hSame)

/-- A call goes on: what it holds itself is up to the step, and what the others
hold must not change. -/
theorem Held.change {inflight : Finset String} {pending : ExtTreeMap String Nat} {sent : List Nat} (h : s.Held)
    (hc : s.calls[i]? = some c) (hKey : c'.key = c.key)
    (hAnswer : ∀ a, c'.got = some a ∨ c'.result = some a → c.got = some a ∨ c.result = some a)
    (hHas : c'.phase.hasKey = true → c.key ∈ inflight)
    (hOthers : ∀ (j : Nat) d, s.calls[j]? = some d → j ≠ i → d.phase.hasKey = true → d.key ∈ inflight)
    (hAlone : c'.phase.isActive = true → ∀ (j : Nat) d, s.calls[j]? = some d → j ≠ i → d.key = c.key →
      d.phase.isActive = false)
    (hWaiters : ∀ (k : String) j, pending[k]? = some j →
      (j = i ∧ k = c.key ∧ c'.phase.hasWaiter = true) ∨ (j ≠ i ∧ s.pending[k]? = some j)) :
    Held { s with calls := s.calls.insert i c', inflight, pending, sent } := by
  have hCall : ∀ (j : Nat) d, (s.calls.insert i c')[j]? = some d →
      (j = i ∧ d = c') ∨ (j ≠ i ∧ s.calls[j]? = some d) := by
    intro j d hd
    rw [SeqMap.getElem?_insert] at hd
    split at hd
    · rename_i hj
      exact .inl ⟨hj, (Option.some.inj hd).symm⟩
    · rename_i hj
      exact .inr ⟨hj, hd⟩
  refine ⟨fun j d hd => ?_, fun j d hd hd' => ?_, fun j j' d d' hd hd' hActive hActive' hSame => ?_,
    fun k j hEntry => ?_, h.inHand, fun j d a hd hd' => ?_⟩
  · rcases hCall j d hd with ⟨_, rfl⟩ | ⟨_, hOld⟩
    · rw [hKey]
      exact h.named i c hc
    · exact h.named j d hOld
  · rcases hCall j d hd with ⟨_, rfl⟩ | ⟨hOther, hOld⟩
    · rw [hKey]
      exact hHas hd'
    · exact hOthers j d hOld hOther hd'
  · rcases hCall j d hd with ⟨rfl, rfl⟩ | ⟨hOther, hOld⟩
    · rcases hCall j' d' hd' with ⟨rfl, _⟩ | ⟨hOther', hOld'⟩
      · rfl
      · rw [hAlone hActive j' d' hOld' hOther' (hSame.symm.trans hKey)] at hActive'
        cases hActive'
    · rcases hCall j' d' hd' with ⟨rfl, rfl⟩ | ⟨_, hOld'⟩
      · rw [hAlone hActive' j d hOld hOther (hSame.trans hKey)] at hActive
        cases hActive
      · exact h.alone j j' d d' hOld hOld' hActive hActive' hSame
  · rcases hWaiters k j hEntry with ⟨rfl, rfl, hWaiter⟩ | ⟨hOther, hOld⟩
    · exact ⟨c', SeqMap.getElem?_insert.trans (if_pos rfl), hKey, hWaiter⟩
    · obtain ⟨d, hd, hRest⟩ := h.waiter k j hOld
      exact ⟨d, SeqMap.getElem?_insert.trans ((if_neg hOther).trans hd), hRest⟩
  · rcases hCall j d hd with ⟨rfl, rfl⟩ | ⟨_, hOld⟩
    · exact h.answer j c a hc (hAnswer a hd')
    · exact h.answer j d a hOld hd'

theorem Held.key_of_waiter (h : s.Held) (hc : s.calls[i]? = some c) {k : String} (hEntry : s.pending[k]? = some i) :
    k = c.key := by
  obtain ⟨d, hd, rfl, _⟩ := h.waiter k i hEntry
  cases hc.symm.trans hd
  rfl

/-- A waiter is that of a call which has one. -/
theorem Held.ne_of_no_waiter (h : s.Held) (hc : s.calls[i]? = some c) (hNone : c.phase.hasWaiter = false)
    {k : String} {j : Nat} (hEntry : s.pending[k]? = some j) : j ≠ i := by
  rintro rfl
  obtain ⟨d, hd, _, hWaiter⟩ := h.waiter k j hEntry
  cases hc.symm.trans hd
  rw [hNone] at hWaiter
  cases hWaiter

/-- A call goes on with its key and its waiter. -/
theorem Held.goOn {sent : List Nat} (h : s.Held) (hc : s.calls[i]? = some c) (hKey : c'.key = c.key)
    (hAnswer : ∀ a, c'.got = some a ∨ c'.result = some a → c.got = some a ∨ c.result = some a)
    (hHas : c.phase.hasKey = true) (hWaiter : c'.phase.hasWaiter = true) :
    Held { s with calls := s.calls.insert i c', sent } := by
  have hActive : c.phase.isActive = true := by simp [FlightPhase.isActive, hHas]
  refine h.change hc hKey hAnswer (fun _ => h.inflight i c hc hHas) (fun j d hd _ => h.inflight j d hd)
    (fun _ j d hd hOther => h.other hc hActive hd hOther) fun k j hEntry => ?_
  by_cases hj : j = i
  · subst hj
    obtain ⟨d, hd, rfl, _⟩ := h.waiter k j hEntry
    cases hc.symm.trans hd
    exact .inl ⟨rfl, rfl, hWaiter⟩
  · exact .inr ⟨hj, hEntry⟩

theorem Held.take (h : s.Held) (hc : s.calls[i]? = some c) (hPhase : c.phase = .checked)
    (hGuard : s.Undisturbed (.act i .take)) :
    Held { s with calls := s.calls.insert i { c with phase := .taken }, inflight := insert c.key s.inflight } := by
  obtain ⟨hFree, hDropping⟩ := hGuard c hc hPhase
  refine h.change hc rfl (fun _ => id) (fun _ => Finset.mem_insert_self ..)
    (fun j d hd _ hHas => Finset.mem_insert_of_mem (h.inflight j d hd hHas)) ?_ ?_
  · intro _ j d hd _ hSame
    have hHas : d.phase.hasKey = false := by
      by_contra hHas
      exact hFree (hSame ▸ h.inflight j d hd (Bool.eq_true_of_not_eq_false hHas))
    simp [FlightPhase.isActive, hHas, hDropping j d hd hSame]
  · intro k j hEntry
    refine .inr ⟨h.ne_of_no_waiter hc ?_ hEntry, hEntry⟩
    rw [hPhase]
    rfl

theorem Held.register (h : s.Held) (hc : s.calls[i]? = some c) (hPhase : c.phase = .taken) :
    Held { s with calls := s.calls.insert i { c with phase := .registered }, pending := s.pending.insert c.key i } := by
  have hHas : c.phase.hasKey = true := by
    rw [hPhase]
    rfl
  have hActive : c.phase.isActive = true := by simp [FlightPhase.isActive, hHas]
  refine h.change hc rfl (fun _ => id) (fun _ => h.inflight i c hc hHas) (fun j d hd _ => h.inflight j d hd)
    (fun _ j d hd hOther => h.other hc hActive hd hOther) fun k j hEntry => ?_
  rcases KeyMap.insert_cases hEntry with ⟨hk, hj⟩ | hOld
  · exact .inl ⟨hj, hk, rfl⟩
  · refine .inr ⟨h.ne_of_no_waiter hc ?_ hOld, hOld⟩
    rw [hPhase]
    rfl

theorem Held.release (h : s.Held) (hc : s.calls[i]? = some c) (hPhase : c.phase = .leaving) :
    Held { s with calls := s.calls.insert i { c with phase := .dropping }, inflight := s.inflight.erase c.key } := by
  have hActive : c.phase.isActive = true := by
    rw [hPhase]
    rfl
  refine h.change hc rfl (fun _ => id) nofun ?_ (fun _ j d hd hOther => h.other hc hActive hd hOther) ?_
  · -- the key of another call is another key
    intro j d hd hOther hHas
    refine Finset.mem_erase.mpr ⟨fun hSame => ?_, h.inflight j d hd hHas⟩
    have hIdle : d.phase.isActive = false := h.other hc hActive hd hOther hSame
    simp [FlightPhase.isActive, hHas] at hIdle
  · intro k j hEntry
    by_cases hj : j = i
    · exact .inl ⟨hj, h.key_of_waiter hc (hj ▸ hEntry), rfl⟩
    · exact .inr ⟨hj, hEntry⟩

theorem Held.drop (h : s.Held) (hc : s.calls[i]? = some c) :
    Held { s with calls := s.calls.insert i { c with phase := .done }, pending := s.pending.erase c.key } := by
  refine h.change hc rfl (fun _ => id) nofun (fun j d hd _ => h.inflight j d hd) nofun fun k j hEntry => ?_
  obtain ⟨hk, hOld⟩ := KeyMap.of_getElem?_erase hEntry
  refine .inr ⟨?_, hOld⟩
  rintro rfl
  exact hk (h.key_of_waiter hc hOld)

/-- A step of a call. -/
theorem Held.act (h : s.Held) (hGuard : s.Undisturbed (.act i e)) : (s.act i e).Held := by
  unfold Flights.act
  split
  · exact h
  · rename_i c hc
    split
    · exact h
    · rename_i c' hAdvance
      have hStep : c.Step e c' := Flight.advance_step hAdvance
      cases hStep with
      | take hPhase => exact h.take hc hPhase hGuard
      | register hPhase => exact h.register hc hPhase
      | sent hPhase => exact h.goOn hc rfl (fun _ => id) (by rw [hPhase]; rfl) rfl
      | failed hPhase => exact h.goOn hc rfl (fun _ => id) (by rw [hPhase]; rfl) rfl
      | resume hPhase =>
        refine h.goOn hc rfl (fun a ha => .inl ?_) (by rw [hPhase]; rfl) rfl
        rcases ha with hGot | hResult
        · exact hGot
        · exact hResult
      | release hPhase => exact h.release hc hPhase
      | drop hPhase => exact h.drop hc

/-- A response takes the waiter of the call that it answers. -/
theorem Held.respond {origin : Option Nat} {resp : ResponseBody} (h : s.Held)
    (hEnabled : s.enabled (.respond origin resp)) (hGuard : s.Undisturbed (.respond origin resp)) :
    (s.respond origin resp).Held := by
  unfold Flights.respond
  split
  · exact h
  · rename_i i hEntry
    obtain ⟨c, hc, hKey, hWaiter⟩ := h.waiter _ i hEntry
    have hActive : c.phase.isActive = true := FlightPhase.isActive_of_hasWaiter hWaiter
    refine ⟨h.named, h.inflight, h.alone, fun k j hEntry' => ?_, fun j a hHand => ?_, h.answer⟩
    · exact h.waiter k j (KeyMap.of_getElem?_erase hEntry').2
    · obtain ⟨_, hNamed⟩ := hEnabled
      obtain ⟨j', d, hOrigin, hd, hWaiting⟩ := hGuard (KeyMap.mem_iff.mpr ⟨i, hEntry⟩)
      cases hHand
      rcases hNamed with hNone | ⟨j'', d', hOrigin', _, hd', hKey'⟩
      · exact absurd (hKey.trans hNone) (h.named i c hc)
      · cases hOrigin.symm.trans hOrigin'
        cases hd.symm.trans hd'
        have hSame : j' = i := by
          refine h.alone j' i d c hd hc ?_ hActive (hKey'.trans hKey.symm)
          rw [hWaiting]
          rfl
        rw [hSame] at hOrigin
        exact hOrigin

theorem Held.deliver (h : s.Held) : s.deliver.Held := by
  unfold Flights.deliver
  split
  · exact h
  · rename_i i a hHand
    have hCall : ∀ (j : Nat) d, (s.calls.modify i fun c => c.receive a)[j]? = some d →
        ∃ c, s.calls[j]? = some c ∧ d.key = c.key ∧ d.phase = c.phase ∧ d.result = c.result ∧
          (d.got = c.got ∨ (j = i ∧ d.got = some a)) := by
      intro j d hd
      rw [SeqMap.getElem?_modify] at hd
      split at hd
      · rename_i hj
        obtain ⟨c, hc, rfl⟩ := Option.map_eq_some_iff.mp hd
        refine ⟨c, hj ▸ hc, Flight.receive_key, Flight.receive_phase, ?_, ?_⟩
        · unfold Flight.receive
          split <;> rfl
        · unfold Flight.receive
          split
          · exact .inr ⟨hj, rfl⟩
          · exact .inr ⟨hj, rfl⟩
          · exact .inl rfl
      · exact ⟨d, hd, rfl, rfl, rfl, .inl rfl⟩
    refine ⟨fun j d hd => ?_, fun j d hd hHas => ?_, fun j j' d d' hd hd' hActive hActive' hSame => ?_,
      fun k j hEntry => ?_, nofun, fun j d b hd hAnswer => ?_⟩
    · obtain ⟨c, hc, hKey, _⟩ := hCall j d hd
      rw [hKey]
      exact h.named j c hc
    · obtain ⟨c, hc, hKey, hPhase, _⟩ := hCall j d hd
      rw [hPhase] at hHas
      rw [hKey]
      exact h.inflight j c hc hHas
    · obtain ⟨c, hc, hKey, hPhase, _⟩ := hCall j d hd
      obtain ⟨c', hc', hKey', hPhase', _⟩ := hCall j' d' hd'
      rw [hPhase] at hActive
      rw [hPhase'] at hActive'
      rw [hKey, hKey'] at hSame
      exact h.alone j j' c c' hc hc' hActive hActive' hSame
    · obtain ⟨c, hc, hKey, hWaiter⟩ := h.waiter k j hEntry
      by_cases hj : j = i
      · refine ⟨c.receive a, ?_, Flight.receive_key.trans hKey, ?_⟩
        · rw [SeqMap.getElem?_modify, if_pos hj, hc, Option.map_some]
        · rw [Flight.receive_phase]
          exact hWaiter
      · refine ⟨c, ?_, hKey, hWaiter⟩
        rw [SeqMap.getElem?_modify, if_neg hj]
        exact hc
    · obtain ⟨c, hc, _, _, hResult, hGot⟩ := hCall j d hd
      rcases hAnswer with hb | hb
      · rcases hGot with hOld | ⟨hj, hNew⟩
        · exact h.answer j c b hc (.inl (hOld.symm.trans hb))
        · cases hNew.symm.trans hb
          rw [hj]
          exact h.inHand i a hHand
      · exact h.answer j c b hc (.inr (hResult.symm.trans hb))

/-- Every step of a run without disturbance. -/
theorem Held.next (h : s.Held) (e : FlightEvent) (hEnabled : s.enabled e) (hGuard : s.Undisturbed e) :
    (s.next e).Held := by
  cases e with
  | queryPeer i ip => exact h.queryImpl hEnabled
  | queryByName i name => exact h.queryImpl hEnabled
  | act i e => exact h.act hGuard
  | respond origin resp => exact h.respond hEnabled hGuard
  | deliver => exact h.deliver

-- ---------------------------------------------------------------------------
-- Single flight
-- ---------------------------------------------------------------------------

/-- One request a key is under way, a call has the result of its own request, and
none touches the waiter of another. -/
structure SingleFlight (s : Flights) : Prop where
  one : ∀ (i j : Nat) c d, s.calls[i]? = some c → s.calls[j]? = some d → c.phase.inFlight = true →
    d.phase.inFlight = true → c.key = d.key → i = j
  own : ∀ (i : Nat) c a, s.calls[i]? = some c → c.result = some a → a.1 = some i
  waiters : ∀ (i : Nat) e (k : String) j, s.pending[k]? = some j → j ≠ i →
    (s.next (.act i e)).pending[k]? = some j

/-- A call replaces no waiter, and removes at most its own. -/
theorem Held.waiters (h : s.Held) {k : String} {j : Nat} (hEntry : s.pending[k]? = some j) (hOther : j ≠ i) :
    (s.act i e).pending[k]? = some j := by
  obtain ⟨d, hd, hKey, hWaiter⟩ := h.waiter k j hEntry
  unfold Flights.act
  split
  · exact hEntry
  · rename_i c hc
    split
    · exact hEntry
    · rename_i c' hAdvance
      have hNotMine : c.phase.isActive = true → k ≠ c.key := by
        rintro hActive hSame
        have hIdle : d.phase.isActive = false := h.other hc hActive hd hOther (hKey.trans hSame)
        rw [FlightPhase.isActive_of_hasWaiter hWaiter] at hIdle
        cases hIdle
      have hStep : c.Step e c' := Flight.advance_step hAdvance
      cases hStep with
      | register hPhase =>
        refine KeyMap.getElem?_insert.trans ((if_neg (hNotMine ?_)).trans hEntry)
        rw [hPhase]
        rfl
      | drop hPhase =>
        refine KeyMap.getElem?_erase.trans ((if_neg (hNotMine ?_)).trans hEntry)
        rw [hPhase]
        rfl
      | take => exact hEntry
      | sent => exact hEntry
      | failed => exact hEntry
      | resume => exact hEntry
      | release => exact hEntry

/--
**Single flight.** In every run of any number of calls, responses and timeouts,
in which a call takes its key while that is free and no other call for the key
is about to remove its waiter, and a response that finds a waiter comes while
the call that it answers still waits: one request a key is under way, the result
of a call is that of its own request, and no call replaces or removes the waiter
of another.
-/
theorem single_flight (h : machine.Reach Undisturbed s) : s.SingleFlight := by
  have hHeld : s.Held := by
    refine h.invariant ?_ fun s e hHeld hEnabled hGuard => hHeld.next e hEnabled hGuard
    rintro _ rfl
    exact held_init
  refine ⟨?_, fun i c a hc hResult => hHeld.answer i c a hc (.inr hResult), fun i e k j => hHeld.waiters⟩
  intro i j c d hc hd hIn hIn' hSame
  exact hHeld.alone i j c d hc hd (FlightPhase.isActive_of_inFlight hIn) (FlightPhase.isActive_of_inFlight hIn') hSame

/-- What the calls of a state show of the condition. -/
theorem undisturbed_take (hFree : ∀ p ∈ s.calls.toList, p.2.phase = .checked → p.2.key ∉ s.inflight)
    (hDropping : ∀ p ∈ s.calls.toList, p.2.phase ≠ .dropping) : s.Undisturbed (.act i .take) := by
  intro c hc hPhase
  refine ⟨hFree _ (ExtTreeMap.mem_toList_iff_getElem?_eq_some.mpr hc) hPhase, fun j d hd _ => ?_⟩
  exact hDropping _ (ExtTreeMap.mem_toList_iff_getElem?_eq_some.mpr hd)

/-- The server answers a query for 10.13.13.9. -/
def exampleResponse : ResponseBody :=
  .okWithData (.queryHit "10.13.13.9" "10.13.13.9" (keyB64 (keyBytes 5)) "203.0.113.7:4000" none "")

/-- A call up to its request. -/
def exampleCall (i : Nat) : List FlightEvent :=
  [.queryPeer i "10.13.13.9", .act i .take, .act i .register, .act i (.send true)]

/-- A call that is answered before it gives up. -/
def exampleAnswered : Flights :=
  machine.run init (exampleCall 0 ++ [.respond (some 0) exampleResponse, .deliver, .act 0 .resume])

theorem single_flight_example : machine.Reach Undisturbed exampleAnswered ∧ exampleAnswered.SingleFlight := by
  have hIp : "10.13.13.9" ≠ "" := by decide
  have hCall : machine.Reach Undisturbed (machine.run init (exampleCall 0)) := by
    refine Machine.reach_run (.init rfl) ⟨hIp, trivial, trivial, undisturbed_take ?_ ?_, trivial, trivial,
      trivial, trivial, trivial⟩
    · decide +kernel
    · decide +kernel
  have hWaits : ((machine.run init (exampleCall 0)).calls[0]?.map fun c => (c.key, c.phase)) =
      some ("10.13.13.9", .waiting) := by
    decide +kernel
  have hSent : 0 ∈ (machine.run init (exampleCall 0)).sent := by decide +kernel
  obtain ⟨c, hc, hPair⟩ := Option.map_eq_some_iff.mp hWaits
  obtain ⟨hKey, hPhase⟩ := Prod.mk.inj hPair
  have hEnabled : (machine.run init (exampleCall 0)).enabled (.respond (some 0) exampleResponse) :=
    ⟨rfl, .inr ⟨0, c, rfl, hSent, hc, hKey⟩⟩
  have hGuard : (machine.run init (exampleCall 0)).Undisturbed (.respond (some 0) exampleResponse) :=
    fun _ => ⟨0, c, rfl, hc, hPhase⟩
  have hAnswered : machine.Reach Undisturbed exampleAnswered := by
    unfold exampleAnswered
    rw [Machine.run_append]
    exact Machine.reach_run hCall ⟨hEnabled, hGuard, trivial, trivial, trivial, trivial, trivial⟩
  exact ⟨hAnswered, single_flight hAnswered⟩

/-- Both calls look the key up before either takes it. -/
def exampleRace : List FlightEvent :=
  [.queryPeer 0 "10.13.13.9", .queryPeer 1 "10.13.13.9", .act 0 .take, .act 0 .register, .act 0 (.send true),
    .act 1 .take, .act 1 .register, .act 1 (.send true)]

/-- A call gives up, and the next one waits. -/
def exampleRetry : List FlightEvent :=
  exampleCall 0 ++ [.act 0 .resume, .act 0 .release, .act 0 .drop] ++ exampleCall 1

/-- The answer to the first request comes now. -/
def exampleLate : List FlightEvent := exampleRetry ++ [.respond (some 0) exampleResponse, .deliver, .act 1 .resume]

/-- Two requests for one IP are under way at once; and a call has the answer to
the request of an earlier one. -/
theorem flights_collide :
    machine.Reach (fun _ _ => True) (machine.run init exampleRace) ∧
    ¬ (machine.run init exampleRace).SingleFlight ∧
    machine.Reach (fun _ _ => True) (machine.run init exampleLate) ∧
    ¬ (machine.run init exampleLate).SingleFlight := by
  have hIp : "10.13.13.9" ≠ "" := by decide
  have hReach : ∀ es : List FlightEvent,
      (∀ e ∈ es, (∃ i, e = .queryPeer i "10.13.13.9") ∨ ∃ i e', e = .act i e') →
      machine.Reach (fun _ _ => True) (machine.run init es) := by
    intro es hes
    refine Machine.reach_run (.init rfl) (Machine.admissible_of_forall fun e he s => ⟨?_, trivial⟩)
    rcases hes e he with ⟨i, rfl⟩ | ⟨i, e', rfl⟩
    · exact hIp
    · trivial
  refine ⟨hReach _ ?_, fun hSingle => ?_, ?_, fun hSingle => ?_⟩
  · simp [exampleRace]
  · have hFirst : ((machine.run init exampleRace).calls[0]?.map fun c => (c.key, c.phase)) =
        some ("10.13.13.9", .waiting) := by
      decide +kernel
    have hSecond : ((machine.run init exampleRace).calls[1]?.map fun c => (c.key, c.phase)) =
        some ("10.13.13.9", .waiting) := by
      decide +kernel
    obtain ⟨c, hc, hPair⟩ := Option.map_eq_some_iff.mp hFirst
    obtain ⟨d, hd, hPair'⟩ := Option.map_eq_some_iff.mp hSecond
    obtain ⟨hKey, hPhase⟩ := Prod.mk.inj hPair
    obtain ⟨hKey', hPhase'⟩ := Prod.mk.inj hPair'
    have hSame : 0 = 1 := by
      refine hSingle.one 0 1 c d hc hd ?_ ?_ (hKey.trans hKey'.symm)
      · rw [hPhase]
        rfl
      · rw [hPhase']
        rfl
    cases hSame
  · have hRetry : machine.Reach (fun _ _ => True) (machine.run init exampleRetry) := hReach _ (by
      simp [exampleRetry, exampleCall])
    have hAsked : ((machine.run init exampleRetry).calls[0]?.map Flight.key) = some "10.13.13.9" := by
      decide +kernel
    have hSent : 0 ∈ (machine.run init exampleRetry).sent := by decide +kernel
    obtain ⟨c, hc, hKey⟩ := Option.map_eq_some_iff.mp hAsked
    have hEnabled : (machine.run init exampleRetry).enabled (.respond (some 0) exampleResponse) :=
      ⟨rfl, .inr ⟨0, c, rfl, hSent, hc, hKey⟩⟩
    unfold exampleLate
    rw [Machine.run_append]
    exact Machine.reach_run hRetry ⟨hEnabled, trivial, trivial, trivial, trivial, trivial, trivial⟩
  · have hResult : ((machine.run init exampleLate).calls[1]?.bind fun c => c.result.map Prod.fst) =
        some (some 0) := by
      decide +kernel
    obtain ⟨c, hc, hAnswer⟩ := Option.bind_eq_some_iff.mp hResult
    obtain ⟨a, ha, hOrigin⟩ := Option.map_eq_some_iff.mp hAnswer
    cases hOrigin.symm.trans (hSingle.own 1 c a hc ha)

end Flights

end LinkMesh
