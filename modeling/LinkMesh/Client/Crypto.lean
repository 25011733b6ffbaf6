import Mathlib.Data.Nat.Pairing
import Mathlib.Data.Nat.Bitwise
import Mathlib.Order.Basic

/-!
# Keys, tunnel packets and the cryptographic primitives

`linkmesh-shared/src/crypto.rs` builds on third-party primitives (X25519,
HKDF-SHA256, ChaCha20-Poly1305). They are the parameter `Crypto` of the
model; what the client relies on is stated by two named assumptions:

* `Crypto.Lawful`        — Diffie-Hellman commutes, and a sealed packet opens
  exactly under the key it was sealed with;
* `Crypto.CollisionFree` — different key material gives different keys.

`symbolic` is the free instance of both: it remembers what a value was
computed from.

Keys and salts are the numbers their bytes spell (big endian, so `≤` is the
order of the byte arrays); instants are milliseconds. The `u32` and `u64`
counters of the data plane are natural numbers.
-/

namespace LinkMesh

/-- The bytes of an IP packet (`Vec<u8>`). -/
abbrev Bytes := List UInt8

/-- A 32-byte public key, private key or symmetric key. -/
abbrev RawKey := Nat

/-- A 12-byte handshake salt. -/
abbrev Salt := Nat

/-- A 12-byte AEAD nonce, as its first 4 and last 8 bytes. -/
abbrev Nonce := Nat × Nat

abbrev Instant := Nat

/-- Both sides draw a salt; the final one is the XOR, so the order of the two
does not matter. -/
def xorSalt (a b : Salt) : Salt := a ^^^ b

theorem xorSalt_comm (a b : Salt) : xorSalt a b = xorSalt b a := Nat.xor_comm a b

-- ---------------------------------------------------------------------------
-- Tunnel packets
-- ---------------------------------------------------------------------------

/-- What `parse_tunnel_packet` and the payload length checks of the handlers
make of a decrypted tunnel frame. -/
inductive Plain where
  /-- `rk_pub ‖ salt ‖ virtual IP` -/
  | hello (epoch : Nat) (rk : RawKey) (salt : Salt) (ip : String)
  | data (epoch seq : Nat) (payload : Bytes)
  /-- `new_rk_pub ‖ new_salt` -/
  | rekey (epoch : Nat) (rk : RawKey) (salt : Salt)
  | ack (epoch ack : Nat)
  /-- an unknown type, or a HELLO, REKEY or ACK whose payload is too short -/
  | malformed
  /-- shorter than the 13-byte header -/
  | short
  deriving DecidableEq, Repr

/-- The deterministic nonce of a DATA frame. -/
def dataNonce (epoch seq : Nat) : Nonce := (epoch, seq)

-- ---------------------------------------------------------------------------
-- Primitives
-- ---------------------------------------------------------------------------

/-- The cryptographic primitives, with datagrams in `Ct`. -/
structure Crypto (Ct : Type) where
  /-- `PublicKey::from(&secret)` -/
  publicKey : RawKey → RawKey
  /-- `secret.diffie_hellman(&peer)` -/
  diffieHellman : RawKey → RawKey → RawKey
  /-- `HKDF(salt, ikm, "linkmesh/peer/v1")` on two concatenated secrets -/
  hkdfExpand : Salt → RawKey × RawKey → RawKey
  /-- ChaCha20-Poly1305, the nonce prepended -/
  encryptWithNonce : RawKey → Nonce → Plain → Ct
  /-- inverse of the above, `none` when authentication fails -/
  decrypt : RawKey → Ct → Option Plain
  /-- length of a datagram in bytes -/
  len : Ct → Nat

variable {Ct : Type}

namespace Crypto

/-- ECDH of an own private key and a peer's public key. -/
def sharedSecret (C : Crypto Ct) (priv peerPublic : RawKey) : RawKey :=
  C.diffieHellman priv peerPublic

/-- The data-plane session key: `HKDF(DH(ik) ‖ DH(rk))` under the final salt. -/
def derivePeerKey (C : Crypto Ct) (ikPriv peerIkPub rkPriv peerRkPub : RawKey)
    (salt : Salt) : RawKey :=
  C.hkdfExpand salt (C.sharedSecret ikPriv peerIkPub, C.sharedSecret rkPriv peerRkPub)

/-- Functional correctness of X25519 and of the AEAD. -/
structure Lawful (C : Crypto Ct) : Prop where
  dh_comm : ∀ a b, C.diffieHellman a (C.publicKey b) = C.diffieHellman b (C.publicKey a)
  decrypt_encrypt : ∀ k k' n p,
    C.decrypt k' (C.encryptWithNonce k n p) = if k' = k then some p else none

/-- Different key material gives different keys: an X25519 secret belongs to
one pair of key pairs, HKDF does not collide on its input key material, and
its output is never an X25519 secret. -/
structure CollisionFree (C : Crypto Ct) : Prop where
  dh_inj : ∀ a p b q, C.diffieHellman a p = C.diffieHellman b q →
    (C.publicKey a = C.publicKey b ∧ p = q) ∨ (C.publicKey a = q ∧ p = C.publicKey b)
  hkdf_inj : ∀ s s' i i', C.hkdfExpand s i = C.hkdfExpand s' i' → i = i'
  hkdf_ne_dh : ∀ s i a p, C.hkdfExpand s i ≠ C.diffieHellman a p

variable {C : Crypto Ct}

/-- Both ends derive the same session key from each other's public halves. -/
theorem Lawful.derivePeerKey_comm (hC : C.Lawful) (ik ik' rk rk' : RawKey) (s s' : Salt) :
    C.derivePeerKey ik (C.publicKey ik') rk (C.publicKey rk') (xorSalt s s') =
      C.derivePeerKey ik' (C.publicKey ik) rk' (C.publicKey rk) (xorSalt s' s) := by
  unfold derivePeerKey sharedSecret
  rw [hC.dh_comm ik ik', hC.dh_comm rk rk', xorSalt_comm]

/-- A session key determines the two routing keys it was derived from, up to
which end is which. -/
theorem CollisionFree.derivePeerKey_inj (hF : C.CollisionFree)
    {ik p rk q s ik' p' rk' q' s' : RawKey}
    (h : C.derivePeerKey ik p rk q s = C.derivePeerKey ik' p' rk' q' s') :
    (C.publicKey rk = C.publicKey rk' ∧ q = q') ∨ (C.publicKey rk = q' ∧ q = C.publicKey rk') :=
  hF.dh_inj _ _ _ _ (Prod.mk.inj (hF.hkdf_inj _ _ _ _ h)).2

/-- A session key is never a static handshake key. -/
theorem CollisionFree.derivePeerKey_ne (hF : C.CollisionFree)
    {ik p rk q s a b : RawKey} : C.derivePeerKey ik p rk q s ≠ C.sharedSecret a b :=
  hF.hkdf_ne_dh _ _ _ _

end Crypto

-- ---------------------------------------------------------------------------
-- The symbolic instance
-- ---------------------------------------------------------------------------

/-- The symbolic primitives: a key is its own public half, a shared secret is
the unordered pair of the two, an HKDF output is its input, and a datagram
shows its key, nonce and content. -/
def symbolic : Crypto (RawKey × Nonce × Plain) where
  publicKey a := a
  diffieHellman a p := 2 * Nat.pair (min a p) (max a p)
  hkdfExpand s i := 2 * Nat.pair s (Nat.pair i.1 i.2) + 1
  encryptWithNonce k n p := (k, n, p)
  decrypt k c := if k = c.1 then some c.2.2 else none
  len _ := 0

/-- An unordered pair determines its two components up to their order. -/
theorem unordered_pair_inj {a p b q : Nat}
    (h : Nat.pair (min a p) (max a p) = Nat.pair (min b q) (max b q)) :
    (a = b ∧ p = q) ∨ (a = q ∧ p = b) := by
  obtain ⟨hMin, hMax⟩ := Nat.pair_eq_pair.mp h
  omega

theorem symbolic_lawful : symbolic.Lawful where
  dh_comm a b := by simp only [symbolic, min_comm a b, max_comm a b]
  decrypt_encrypt k k' n p := rfl

theorem symbolic_collisionFree : symbolic.CollisionFree where
  dh_inj a p b q h := unordered_pair_inj (Nat.eq_of_mul_eq_mul_left Nat.two_pos h)
  hkdf_inj s s' i i' h := by
    have hPair := Nat.eq_of_mul_eq_mul_left Nat.two_pos (Nat.succ_injective h)
    exact Prod.ext_iff.mpr (Nat.pair_eq_pair.mp (Nat.pair_eq_pair.mp hPair).2)
  hkdf_ne_dh s i a p h := by
    have hParity : (2 * Nat.pair s (Nat.pair i.1 i.2) + 1) % 2 =
        (2 * Nat.pair (min a p) (max a p)) % 2 := congrArg (· % 2) h
    omega

end LinkMesh
