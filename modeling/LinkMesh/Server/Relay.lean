import LinkMesh.Basis.IpAddr
import LinkMesh.Server.Workers
import LinkMesh.Wire.Packet

/-!
# The relay

`relay_forward` (`linkmesh-server/src/signaling.rs`). The workers run it, and so
does the loop of the relay port; it takes and lets go the locks of the live
identities, of the routes and of the rooms. A step is one locked section together with what
follows it up to the next lock.

The relays run beside `Workers.machine`; they are numbered, and any number of
them may be under way. Which identity has authenticated in which room is noted
along the run.

## Results

* `forward_delivered` — what it takes for a packet to be passed on.
-/

namespace LinkMesh

open Std KeyMap

variable {Ct : Type}

-- ---------------------------------------------------------------------------
-- Packets
-- ---------------------------------------------------------------------------

/-- A relayed packet, with the UDP address it came from. -/
structure RelayFrame where
  packet : Bytes
  sender : SourceAddr
  /-- the header holds relay keys, not identities -/
  isRk : Bool
  dest : RawKey
  srcKey : RawKey
  ct : Bytes
  deriving DecidableEq, Repr

/-- The packet is looked at before any lock is taken. -/
def RelayFrame.parse (packet : Bytes) (sender : SourceAddr) : Except String RelayFrame := do
  let isRk := relayHeaderLen ≤ packet.length && packet[3]? == some (UInt8.ofNat msgRelayRk)
  let (dest, srcKey, ct) ← parseRelay packet
  .ok { packet := packet, sender := sender, isRk := isRk, dest := dest, srcKey := srcKey, ct := ct }

theorem RelayFrame.parse_frameRelay {msgType : Nat} {dest srcKey : RawKey} {ct : Bytes} (sender : SourceAddr)
    (hDest : dest < 256 ^ 32) (hSrc : srcKey < 256 ^ 32) :
    RelayFrame.parse (frameRelay msgType dest srcKey ct) sender =
      .ok
        { packet := frameRelay msgType dest srcKey ct
          sender := sender
          isRk := UInt8.ofNat msgType == UInt8.ofNat msgRelayRk
          dest := dest
          srcKey := srcKey
          ct := ct } := by
  have hLength : relayHeaderLen ≤ (frameRelay msgType dest srcKey ct).length := by
    unfold frameRelay relayMagic relayHeaderLen
    simp only [List.length_append, keyBytes_length, List.length_cons, List.length_nil]
    omega
  have hType : (frameRelay msgType dest srcKey ct)[3]? = some (UInt8.ofNat msgType) := rfl
  unfold RelayFrame.parse
  rw [parseRelay_frameRelay hDest hSrc, decide_eq_true hLength, hType]
  rfl

-- ---------------------------------------------------------------------------
-- Where a packet goes
-- ---------------------------------------------------------------------------

/-- The text of a relay key in the route table. -/
def rkText (k : RawKey) : String := keyB64 (keyBytes k)

/-- The route of a key of the header. -/
def RelayFrame.route (f : RelayFrame) (t : RouteTable) (k : RawKey) : Option RouteEntry :=
  if f.isRk then t.getByRk (rkText k) else t.get k

/-- The identity that the packet claims to come from, if it is a live one. -/
def RelayFrame.admitted (f : RelayFrame) (srv : Signaling) : Option RawKey :=
  let identity := if f.isRk then (srv.routes.getByRk (rkText f.srcKey)).map (·.publicKey) else some f.srcKey
  identity.filter (· ∈ srv.activeIkX)

/-- The bytes of an address. -/
def addrOctets : IpAddr.Addr → Bytes
  | .v4 octets => octets.map UInt8.ofNat
  | .v6 segments => segments.flatMap fun n => [UInt8.ofNat (n / 256), UInt8.ofNat (n % 256)]

/-- The endpoint of a route as an address. -/
def endpointAddr (endpoint : String) : Except String SourceAddr :=
  match IpAddr.parseSocket endpoint with
  | some (addr, port) => .ok { octets := addrOctets addr, port := port }
  | none => .error "invalid socket address syntax"

/-- What a call depends on besides the tables: there is a batcher with room for
one more item, and sending fails. -/
structure RelayDraw where
  queued : Bool
  sendError : Option String

inductive RelayOutcome where
  /-- silently -/
  | dropped
  | failed (msg : String)
  /-- handed to the batcher, for this destination and address -/
  | queued (dest : RawKey) (addr : SourceAddr) (subframe : Bytes)
  | sent (packet : Bytes) (addr : SourceAddr)
  deriving DecidableEq, Repr

/-- The packet is on its way to the address. -/
def RelayOutcome.deliveredTo : RelayOutcome → Option SourceAddr
  | .queued _ addr _ => some addr
  | .sent _ addr => some addr
  | _ => none

/-- Through the batcher if it can be, else as it came. -/
def RelayFrame.deliver (f : RelayFrame) (e : RouteEntry) (d : RelayDraw) : RelayOutcome :=
  match endpointAddr e.endpoint with
  | .error msg => .failed s!"端点解析失败: {msg}"
  | .ok addr =>
    if d.queued then .queued f.dest addr (keyBytes f.srcKey ++ f.ct)
    else
      match d.sendError with
      | some e => .failed s!"中继转发失败: {e}"
      | none => .sent f.packet addr

/-- The rooms must be the same. Without rooms, a source that has no route may
send as well. -/
def RelayFrame.forward (f : RelayFrame) (rooms : List RoomEntry) (source dest : Option RouteEntry)
    (d : RelayDraw) : RelayOutcome :=
  match source, dest with
  | some s, some e => if s.room ≠ e.room then .dropped else f.deliver e d
  | none, some e => if rooms.isEmpty then f.deliver e d else .dropped
  | _, none => .dropped

/-- A packet that is passed on goes to the endpoint of its destination, into the
room of its source unless this has no route and there are no rooms. -/
theorem forward_delivered {f : RelayFrame} {rooms : List RoomEntry} {source dest : Option RouteEntry}
    {d : RelayDraw} {addr : SourceAddr} (h : (f.forward rooms source dest d).deliveredTo = some addr) :
    ∃ e, dest = some e ∧ endpointAddr e.endpoint = .ok addr ∧
      (source = none ∧ rooms = [] ∨ ∃ s, source = some s ∧ s.room = e.room) := by
  have hDeliver : ∀ e, (f.deliver e d).deliveredTo = some addr → endpointAddr e.endpoint = .ok addr := by
    intro e hTo
    unfold RelayFrame.deliver at hTo
    split at hTo
    · cases hTo
    · rename_i addr' hAddr
      rw [hAddr]
      split at hTo
      · cases hTo
        rfl
      · split at hTo
        · cases hTo
        · cases hTo
          rfl
  unfold RelayFrame.forward at h
  split at h
  · rename_i s e
    split at h
    · cases h
    · rename_i hRoom
      exact ⟨e, rfl, hDeliver e h, .inr ⟨s, rfl, not_not.mp hRoom⟩⟩
  · rename_i e
    split at h
    · rename_i hRooms
      exact ⟨e, rfl, hDeliver e h, .inl ⟨rfl, List.isEmpty_iff.mp hRooms⟩⟩
    · cases h
  · cases h

-- ---------------------------------------------------------------------------
-- Sections
-- ---------------------------------------------------------------------------

/-- Where a call is between two locked sections. -/
inductive RelayTask where
  | idle
  | parsed (f : RelayFrame)
  /-- the claimed identity is live -/
  | admitted (f : RelayFrame) (identity : RawKey)
  /-- the route of the source is refreshed -/
  | refreshed (f : RelayFrame) (identity : RawKey)
  /-- the routes of the source and of the destination are known -/
  | found (f : RelayFrame) (identity : RawKey) (source dest : Option RouteEntry)

namespace RelayTask

/-- The next locked section of a call. -/
def step (srv : Signaling) (now : Nat) : RelayTask → Signaling × RelayTask
  | .idle => (srv, .idle)
  | .parsed f =>
    match f.admitted srv with
    | some identity => (srv, .admitted f identity)
    | none => (srv, .idle)
  | .admitted f identity =>
    -- a relay key does not refresh a route
    (if f.isRk then srv else srv.refreshRoute f.srcKey now, .refreshed f identity)
  | .refreshed f identity =>
    (srv, .found f identity (f.route srv.routes f.srcKey) (f.route srv.routes f.dest))
  | .found _ _ _ _ => (srv, .idle)

/-- How the next section ends a call. -/
def outcome (srv : Signaling) (d : RelayDraw) : RelayTask → RelayOutcome
  | .found f _ source dest => f.forward srv.rooms source dest d
  | _ => .dropped

end RelayTask

-- ---------------------------------------------------------------------------
-- The machine
-- ---------------------------------------------------------------------------

/-- The identity and the room of a session that was just registered. -/
def SignalOutcome.admitted : SignalOutcome Ct → List (RawKey × String)
  | .auth (.accepted entry _) => [(entry.ikX, entry.room)]
  | _ => []

/-- The server with the relayed packets that are under way. -/
structure Relays (Ct : Type) where
  server : Workers Ct
  tasks : Nat → RelayTask := fun _ => .idle
  /-- who has authenticated in this run, and in which room -/
  authenticated : List (RawKey × String) := []

inductive RelayEvent (Ct : Type) where
  | server (ev : WorkerEvent Ct)
  /-- a packet arrives -/
  | receive (i : Nat) (packet : Bytes) (sender : SourceAddr)
  /-- the next section of a call -/
  | work (i : Nat) (d : RelayDraw)

namespace Relays

/-- Who authenticates by the event. -/
def admits (env : SignalingEnv Ct) (s : Workers Ct) : WorkerEvent Ct → List (RawKey × String)
  | .receive f src d => (s.srv.handleSignaling env f src d).2.admitted
  | _ => []

def next (env : SignalingEnv Ct) (n : Nat) (r : Relays Ct) : RelayEvent Ct → Relays Ct
  | .server ev =>
    { r with server := r.server.next env n ev, authenticated := r.authenticated ++ admits env r.server ev }
  | .receive i packet sender =>
    match RelayFrame.parse packet sender with
    | .error _ => r
    | .ok f => { r with tasks := Function.update r.tasks i (.parsed f) }
  | .work i _ =>
    { r with
      server := { r.server with srv := ((r.tasks i).step r.server.srv r.server.clock).1 }
      tasks := Function.update r.tasks i ((r.tasks i).step r.server.srv r.server.clock).2 }

/-- A worker takes a datagram when it has none; relayed packets go to the relays. -/
def enabled (n : Nat) (r : Relays Ct) : RelayEvent Ct → Prop
  | .server (.tick now) => r.server.clock ≤ now
  | .server (.receive _ src _) => r.server.tasks (shardIndex src n) = .idle
  | .server (.relay _ _) => False
  | .server _ => True
  | .receive i _ _ => r.tasks i = .idle
  | .work _ _ => True

/-- The server with `n` workers and its relays, over any interleaving. -/
def machine (env : SignalingEnv Ct) (n : Nat) : Machine (Relays Ct) (RelayEvent Ct) where
  init r := ∃ clock mesh rooms aliases, r = { server := .start clock mesh rooms aliases }
  enabled := enabled n
  next := next env n

end Relays

end LinkMesh
