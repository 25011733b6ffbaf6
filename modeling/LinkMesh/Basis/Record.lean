import Mathlib.Data.List.Forall2
import LinkMesh.Basis.Layout

/-!
# Records of fixed width

A `Record` writes a value into fields of fixed widths and reads it back. It
says which values it takes (`Fits`), how it spells what it reads back
(`spell`), which values it can hold at all (`Typed`), and on which fields
reading and writing again changes nothing (`Strict`). Records are put together
from single fields, and the four statements with them.

## Results

* `encode_ok`     — a value is encoded exactly when it fits.
* `decode_encode` — what was encoded is read back in its spelling.
* `encode_decode` — accepted bytes are encoded again exactly when they are strict.
* `IsCodec.decode_fits` — what was decoded fits.
-/

open Layout

/-- Consecutive fields that hold a value. -/
structure Record (ε α : Type) where
  widths : List Nat
  put : α → Except ε (List (List UInt8))
  get : List (List UInt8) → Except ε α
  Typed : α → Prop
  Fits : α → Prop
  spell : α → α
  Strict : List (List UInt8) → Prop
  put_ok : ∀ {a}, (∃ fs, put a = .ok fs) ↔ Fits a
  put_widths : ∀ {a fs}, put a = .ok fs → fs.map List.length = widths
  get_put : ∀ {a fs}, Typed a → put a = .ok fs → get fs = .ok (spell a)
  put_get : ∀ {a fs}, fs.map List.length = widths → get fs = .ok a → (put a = .ok fs ↔ Strict fs)

namespace Record

variable {ε α β : Type}

theorem map_eq_ok {x : Except ε α} {f : α → β} {b : β} : x.map f = .ok b ↔ ∃ a, x = .ok a ∧ f a = b := by
  cases x with
  | error e =>
    constructor
    · intro h
      cases h
    · rintro ⟨_, hFalse, _⟩
      cases hFalse
  | ok a =>
    constructor
    · intro h
      exact ⟨a, rfl, Except.ok.inj h⟩
    · rintro ⟨a', hEq, rfl⟩
      cases hEq
      rfl

-- ---------------------------------------------------------------------------
-- Bytes
-- ---------------------------------------------------------------------------

section

variable (R : Record ε α) {a : α} {bytes : List UInt8}

def encode (a : α) : Except ε (List UInt8) := (R.put a).map List.flatten

def decode (bytes : List UInt8) : Except ε α := R.get (split R.widths bytes)

def StrictBytes (bytes : List UInt8) : Prop := R.Strict (split R.widths bytes)

theorem encode_ok : (∃ bytes, R.encode a = .ok bytes) ↔ R.Fits a := by
  rw [← R.put_ok]
  constructor
  · rintro ⟨bytes, h⟩
    obtain ⟨fs, hFields, _⟩ := map_eq_ok.mp h
    exact ⟨fs, hFields⟩
  · rintro ⟨fs, hFields⟩
    exact ⟨fs.flatten, map_eq_ok.mpr ⟨fs, hFields, rfl⟩⟩

theorem encode_length (h : R.encode a = .ok bytes) : bytes.length = R.widths.sum := by
  obtain ⟨fs, hFields, rfl⟩ := map_eq_ok.mp h
  rw [List.length_flatten, R.put_widths hFields]

theorem decode_encode (hTyped : R.Typed a) (h : R.encode a = .ok bytes) : R.decode bytes = .ok (R.spell a) := by
  obtain ⟨fs, hFields, rfl⟩ := map_eq_ok.mp h
  unfold decode
  rw [split_of_widths (R.put_widths hFields)]
  exact R.get_put hTyped hFields

theorem encode_eq_iff (hLength : bytes.length = R.widths.sum) :
    R.encode a = .ok bytes ↔ R.put a = .ok (split R.widths bytes) := by
  constructor
  · intro h
    obtain ⟨fs, hFields, hEq⟩ := map_eq_ok.mp h
    rw [hFields, (flatten_eq_iff (R.put_widths hFields) hLength).mp hEq]
  · intro h
    exact map_eq_ok.mpr ⟨_, h, flatten_split hLength⟩

theorem encode_decode (hLength : bytes.length = R.widths.sum) (h : R.decode bytes = .ok a) :
    R.encode a = .ok bytes ↔ R.StrictBytes bytes := by
  rw [R.encode_eq_iff hLength]
  exact R.put_get (split_lengths hLength) h

end

/-- An encoder and a decoder that succeed as those of the record. -/
structure IsCodec (R : Record ε α) (enc : α → Except ε (List UInt8)) (dec : List UInt8 → Except ε α) :
    Prop where
  enc_ok : ∀ {a bytes}, enc a = .ok bytes ↔ R.encode a = .ok bytes
  dec_ok : ∀ {a bytes}, dec bytes = .ok a ↔ bytes.length = R.widths.sum ∧ R.decode bytes = .ok a

namespace IsCodec

variable {R : Record ε α} {enc : α → Except ε (List UInt8)} {dec : List UInt8 → Except ε α} {a : α}
  {bytes : List UInt8}

theorem fits (h : R.IsCodec enc dec) : (∃ bytes, enc a = .ok bytes) ↔ R.Fits a := by
  simp only [h.enc_ok]
  exact R.encode_ok

theorem round_trip (h : R.IsCodec enc dec) (hTyped : R.Typed a) (hEncode : enc a = .ok bytes) :
    dec bytes = .ok (R.spell a) := by
  rw [h.enc_ok] at hEncode
  exact h.dec_ok.mpr ⟨R.encode_length hEncode, R.decode_encode hTyped hEncode⟩

theorem strict (h : R.IsCodec enc dec) (hDecode : dec bytes = .ok a) : enc a = .ok bytes ↔ R.StrictBytes bytes := by
  obtain ⟨hLength, hDecode⟩ := h.dec_ok.mp hDecode
  rw [h.enc_ok]
  exact R.encode_decode hLength hDecode

end IsCodec

-- ---------------------------------------------------------------------------
-- Fields
-- ---------------------------------------------------------------------------

/-- One field. -/
def single (n : Nat) (put : α → Except ε (List UInt8)) (get : List UInt8 → Except ε α) (Typed Fits : α → Prop)
    (spell : α → α) (Strict : List UInt8 → Prop)
    (put_ok : ∀ {a}, (∃ b, put a = .ok b) ↔ Fits a)
    (put_width : ∀ {a b}, put a = .ok b → b.length = n)
    (get_put : ∀ {a b}, Typed a → put a = .ok b → get b = .ok (spell a))
    (put_get : ∀ {a b}, b.length = n → get b = .ok a → (put a = .ok b ↔ Strict b)) : Record ε α where
  widths := [n]
  put a := (put a).map fun b => [b]
  get fs := get (fs.headD [])
  Typed := Typed
  Fits := Fits
  spell := spell
  Strict fs := Strict (fs.headD [])
  put_ok := by
    intro a
    rw [← put_ok]
    constructor
    · rintro ⟨fs, h⟩
      obtain ⟨b, hb, _⟩ := map_eq_ok.mp h
      exact ⟨b, hb⟩
    · rintro ⟨b, hb⟩
      exact ⟨[b], map_eq_ok.mpr ⟨b, hb, rfl⟩⟩
  put_widths := by
    intro a fs h
    obtain ⟨b, hb, rfl⟩ := map_eq_ok.mp h
    rw [List.map_singleton, put_width hb]
  get_put := by
    intro a fs hTyped h
    obtain ⟨b, hb, rfl⟩ := map_eq_ok.mp h
    exact get_put hTyped hb
  put_get := by
    intro a fs hWidths h
    obtain ⟨b, rest, rfl, hb, hRest⟩ := List.map_eq_cons_iff.mp hWidths
    obtain rfl := List.map_eq_nil_iff.mp hRest
    show (put a).map (fun b => [b]) = .ok [b] ↔ Strict b
    rw [← put_get hb h, map_eq_ok]
    simp

/-- A record inside one field. -/
def nest (R : Record ε α) : Record ε α :=
  single R.widths.sum R.encode R.decode R.Typed R.Fits R.spell R.StrictBytes R.encode_ok R.encode_length
    R.decode_encode R.encode_decode

/-- Two values behind each other. -/
def both (R : Record ε α) (S : Record ε β) : Record ε (α × β) where
  widths := R.widths ++ S.widths
  put p := do
    let fs ← R.put p.1
    let gs ← S.put p.2
    .ok (fs ++ gs)
  get fs := do
    let a ← R.get (fs.take R.widths.length)
    let b ← S.get (fs.drop R.widths.length)
    .ok (a, b)
  Typed p := R.Typed p.1 ∧ S.Typed p.2
  Fits p := R.Fits p.1 ∧ S.Fits p.2
  spell p := (R.spell p.1, S.spell p.2)
  Strict fs := R.Strict (fs.take R.widths.length) ∧ S.Strict (fs.drop R.widths.length)
  put_ok := by
    intro p
    rw [← R.put_ok, ← S.put_ok]
    constructor
    · rintro ⟨_, h⟩
      obtain ⟨fs, hFields, h⟩ := bind_eq_ok.mp h
      obtain ⟨gs, hMore, _⟩ := bind_eq_ok.mp h
      exact ⟨⟨fs, hFields⟩, gs, hMore⟩
    · rintro ⟨⟨fs, hFields⟩, gs, hMore⟩
      exact exists_bind_ok hFields (exists_bind_ok hMore ⟨_, rfl⟩)
  put_widths := by
    intro p _ h
    obtain ⟨fs, hFields, h⟩ := bind_eq_ok.mp h
    obtain ⟨gs, hMore, h⟩ := bind_eq_ok.mp h
    cases h
    rw [List.map_append, R.put_widths hFields, S.put_widths hMore]
  get_put := by
    intro p _ hTyped h
    obtain ⟨fs, hFields, h⟩ := bind_eq_ok.mp h
    obtain ⟨gs, hMore, h⟩ := bind_eq_ok.mp h
    cases h
    have hCount : R.widths.length = fs.length := by rw [← R.put_widths hFields, List.length_map]
    rw [hCount, List.take_left, List.drop_left]
    refine bind_eq_ok.mpr ⟨_, R.get_put hTyped.1 hFields, ?_⟩
    exact bind_eq_ok.mpr ⟨_, S.get_put hTyped.2 hMore, rfl⟩
  put_get := by
    intro p fs hWidths h
    obtain ⟨a, hFirst, h⟩ := bind_eq_ok.mp h
    obtain ⟨b, hSecond, h⟩ := bind_eq_ok.mp h
    cases h
    have hTake : (fs.take R.widths.length).map List.length = R.widths := by
      rw [List.map_take, hWidths, List.take_left]
    have hDrop : (fs.drop R.widths.length).map List.length = S.widths := by
      rw [List.map_drop, hWidths, List.drop_left]
    rw [← R.put_get hTake hFirst, ← S.put_get hDrop hSecond]
    constructor
    · intro hPut
      obtain ⟨gs, hFields, hPut⟩ := bind_eq_ok.mp hPut
      obtain ⟨hs, hMore, hPut⟩ := bind_eq_ok.mp hPut
      cases hPut
      have hCount : R.widths.length = gs.length := by rw [← R.put_widths hFields, List.length_map]
      rw [hCount, List.take_left, List.drop_left]
      exact ⟨hFields, hMore⟩
    · rintro ⟨hFields, hMore⟩
      refine bind_eq_ok.mpr ⟨_, hFields, bind_eq_ok.mpr ⟨_, hMore, ?_⟩⟩
      rw [List.take_append_drop]

/-- Another shape of the same value. -/
def shape (R : Record ε α) (pack : β → α) (unpack : α → β) (hPack : ∀ a, pack (unpack a) = a) :
    Record ε β where
  widths := R.widths
  put b := R.put (pack b)
  get fs := (R.get fs).map unpack
  Typed b := R.Typed (pack b)
  Fits b := R.Fits (pack b)
  spell b := unpack (R.spell (pack b))
  Strict := R.Strict
  put_ok := R.put_ok
  put_widths := R.put_widths
  get_put := by
    intro b fs hTyped h
    rw [R.get_put hTyped h]
    rfl
  put_get := by
    intro b fs hWidths h
    obtain ⟨a, hGet, rfl⟩ := map_eq_ok.mp h
    rw [hPack]
    exact R.put_get hWidths hGet

/-- A number of `n` bytes. -/
def number (ε : Type) (n : Nat) : Record ε Nat :=
  single n (fun v => .ok (leBytes n v)) (fun b => .ok (leValue b)) (· < 256 ^ n) (fun _ => True) id
    (fun _ => True)
    ⟨fun _ => trivial, fun _ => ⟨_, rfl⟩⟩
    (by
      intro v b h
      rw [← Except.ok.inj h, leBytes_length])
    (by
      intro v b hTyped h
      rw [← Except.ok.inj h, leValue_leBytes hTyped, id])
    (by
      intro v b hLength h
      rw [← Except.ok.inj h, ← hLength, leBytes_leValue]
      simp)

/-- Bytes that are written as zero and not read. -/
def unused (ε : Type) (n : Nat) : Record ε Unit :=
  single n (fun _ => .ok (List.replicate n 0)) (fun _ => .ok ()) (fun _ => True) (fun _ => True) id
    (· = List.replicate n 0)
    ⟨fun _ => trivial, fun _ => ⟨_, rfl⟩⟩
    (by
      intro _ b h
      rw [← Except.ok.inj h, List.length_replicate])
    (fun _ _ => rfl)
    (by
      intro _ b _ _
      rw [Except.ok.injEq]
      exact eq_comm)

/-- A value that may be missing, behind its presence byte. -/
def opt (R : Record ε α) : Record ε (Option α) where
  widths := 1 :: R.widths
  put
    | some a => (R.put a).map ([1] :: ·)
    | none => .ok ([0] :: R.widths.map (List.replicate · 0))
  get fs := if fs.headD [] = [1] then (R.get fs.tail).map some else .ok none
  Typed o := ∀ a, o = some a → R.Typed a
  Fits o := ∀ a, o = some a → R.Fits a
  spell := Option.map R.spell
  Strict fs := (fs.headD [] = [1] ∧ R.Strict fs.tail) ∨ fs = [0] :: R.widths.map (List.replicate · 0)
  put_ok := by
    intro o
    cases o with
    | none => simp
    | some a =>
      simp only [Option.some.injEq, forall_eq', ← R.put_ok]
      constructor
      · rintro ⟨_, h⟩
        obtain ⟨fs, hFields, _⟩ := map_eq_ok.mp h
        exact ⟨fs, hFields⟩
      · rintro ⟨fs, hFields⟩
        exact ⟨_, map_eq_ok.mpr ⟨fs, hFields, rfl⟩⟩
  put_widths := by
    intro o fs h
    cases o with
    | none =>
      rw [← Except.ok.inj h]
      simp [Function.comp_def]
    | some a =>
      obtain ⟨gs, hFields, rfl⟩ := map_eq_ok.mp h
      rw [List.map_cons, R.put_widths hFields, List.length_singleton]
  get_put := by
    intro o fs hTyped h
    cases o with
    | none =>
      rw [← Except.ok.inj h]
      rfl
    | some a =>
      obtain ⟨gs, hFields, rfl⟩ := map_eq_ok.mp h
      show (R.get gs).map some = _
      rw [R.get_put (hTyped a rfl) hFields]
      rfl
  put_get := by
    intro o fs hWidths h
    obtain ⟨flag, gs, rfl, _, hRest⟩ := List.map_eq_cons_iff.mp hWidths
    show _ ↔ (flag = [1] ∧ R.Strict gs) ∨ flag :: gs = [0] :: R.widths.map (List.replicate · 0)
    have hNot : ([1] : List UInt8) ≠ [0] := by decide
    by_cases hFlag : flag = [1]
    · change (if flag = [1] then (R.get gs).map some else .ok none) = .ok o at h
      rw [if_pos hFlag] at h
      obtain ⟨a, hGet, rfl⟩ := map_eq_ok.mp h
      rw [← R.put_get hRest hGet, hFlag, map_eq_ok]
      simp [hNot]
    · change (if flag = [1] then (R.get gs).map some else .ok none) = .ok o at h
      rw [if_neg hFlag] at h
      obtain rfl := Except.ok.inj h
      simp [hFlag, eq_comm]

-- ---------------------------------------------------------------------------
-- What is read
-- ---------------------------------------------------------------------------

/-- Whatever is read from fields of the right widths could be written. -/
structure ReadsFit (R : Record ε α) : Prop where
  fits : ∀ {fs a}, fs.map List.length = R.widths → R.get fs = .ok a → R.Fits a

namespace ReadsFit

variable {R : Record ε α} {S : Record ε β}

theorem decode (h : R.ReadsFit) {a : α} {bytes : List UInt8} (hLength : bytes.length = R.widths.sum)
    (hDecode : R.decode bytes = .ok a) : R.Fits a :=
  h.fits (split_lengths hLength) hDecode

theorem single {n : Nat} {put : α → Except ε (List UInt8)} {get : List UInt8 → Except ε α}
    {Typed Fits : α → Prop} {spell : α → α} {Strict : List UInt8 → Prop} {h₁ h₂ h₃ h₄}
    (h : ∀ {b a}, b.length = n → get b = .ok a → Fits a) :
    (single n put get Typed Fits spell Strict h₁ h₂ h₃ h₄).ReadsFit where
  fits := by
    intro fs a hWidths hGet
    obtain ⟨b, rest, rfl, hb, _⟩ := List.map_eq_cons_iff.mp hWidths
    exact h hb hGet

theorem nest (h : R.ReadsFit) : R.nest.ReadsFit := .single h.decode

theorem both (hR : R.ReadsFit) (hS : S.ReadsFit) : (R.both S).ReadsFit where
  fits := by
    intro fs p hWidths hGet
    obtain ⟨a, hFirst, hGet⟩ := bind_eq_ok.mp hGet
    obtain ⟨b, hSecond, hGet⟩ := bind_eq_ok.mp hGet
    cases hGet
    have hTake : (fs.take R.widths.length).map List.length = R.widths := by
      rw [List.map_take, hWidths]
      exact List.take_left
    have hDrop : (fs.drop R.widths.length).map List.length = S.widths := by
      rw [List.map_drop, hWidths]
      exact List.drop_left
    exact ⟨hR.fits hTake hFirst, hS.fits hDrop hSecond⟩

theorem shape {pack : β → α} {unpack : α → β} {hPack : ∀ a, pack (unpack a) = a} (h : R.ReadsFit) :
    (R.shape pack unpack hPack).ReadsFit where
  fits := by
    intro fs b hWidths hGet
    obtain ⟨a, ha, rfl⟩ := map_eq_ok.mp hGet
    show R.Fits (pack (unpack a))
    rw [hPack]
    exact h.fits hWidths ha

theorem number (n : Nat) : (number ε n).ReadsFit := .single fun _ _ => trivial

theorem opt (h : R.ReadsFit) : R.opt.ReadsFit where
  fits := by
    intro fs o hWidths hGet a ha
    obtain ⟨flag, gs, rfl, _, hRest⟩ := List.map_eq_cons_iff.mp hWidths
    change (if flag = [1] then (R.get gs).map some else .ok none) = .ok o at hGet
    split at hGet
    · obtain ⟨a', ha', rfl⟩ := map_eq_ok.mp hGet
      cases ha
      exact h.fits hRest ha'
    · cases hGet
      cases ha

end ReadsFit

/-- A value that was decoded could be encoded. -/
theorem IsCodec.decode_fits {R : Record ε α} {enc : α → Except ε (List UInt8)}
    {dec : List UInt8 → Except ε α} {a : α} {bytes : List UInt8} (h : R.IsCodec enc dec)
    (hFit : R.ReadsFit) (hDecode : dec bytes = .ok a) : R.Fits a := by
  obtain ⟨hLength, hRead⟩ := h.dec_ok.mp hDecode
  exact hFit.decode hLength hRead

-- ---------------------------------------------------------------------------
-- As computations
-- ---------------------------------------------------------------------------

theorem ok_bind {a : α} {f : α → Except ε β} : (Except.ok a >>= f) = f a := rfl

theorem map_eq_bind {x : Except ε α} {f : α → β} : x.map f = x >>= fun a => .ok (f a) := by
  cases x <;> rfl

theorem single_put {n : Nat} {put : α → Except ε (List UInt8)} {get : List UInt8 → Except ε α}
    {Typed Fits : α → Prop} {spell : α → α} {Strict : List UInt8 → Prop} {h₁ h₂ h₃ h₄} (a : α) :
    (single n put get Typed Fits spell Strict h₁ h₂ h₃ h₄).put a = put a >>= fun b => .ok [b] :=
  map_eq_bind

section Equations

variable (R : Record ε α) (S : Record ε β)

theorem encode_eq (a : α) : R.encode a = R.put a >>= fun fs => .ok fs.flatten := map_eq_bind

theorem both_put (p : α × β) :
    (R.both S).put p = R.put p.1 >>= fun fs => S.put p.2 >>= fun gs => .ok (fs ++ gs) := rfl

theorem both_get (fs : List (List UInt8)) : (R.both S).get fs =
    R.get (fs.take R.widths.length) >>= fun a => S.get (fs.drop R.widths.length) >>= fun b => .ok (a, b) := rfl

theorem shape_put (pack : β → α) (unpack : α → β) (hPack : ∀ a, pack (unpack a) = a) (b : β) :
    (R.shape pack unpack hPack).put b = R.put (pack b) := rfl

theorem shape_get (pack : β → α) (unpack : α → β) (hPack : ∀ a, pack (unpack a) = a)
    (fs : List (List UInt8)) :
    (R.shape pack unpack hPack).get fs = R.get fs >>= fun a => .ok (unpack a) := map_eq_bind

theorem nest_put (a : α) : R.nest.put a = R.encode a >>= fun b => .ok [b] := single_put a

theorem nest_get (b : List UInt8) : R.nest.get [b] = R.decode b := rfl

theorem opt_put_some (a : α) : R.opt.put (some a) = R.put a >>= fun fs => .ok ([1] :: fs) := map_eq_bind

theorem opt_put_none : R.opt.put none = .ok ([0] :: R.widths.map (List.replicate · 0)) := rfl

theorem opt_get (flag : List UInt8) (fs : List (List UInt8)) :
    R.opt.get (flag :: fs) = if flag = [1] then (R.get fs).map some else .ok none := rfl

theorem both_strict (fs : List (List UInt8)) : (R.both S).Strict fs ↔
    R.Strict (fs.take R.widths.length) ∧ S.Strict (fs.drop R.widths.length) := Iff.rfl

theorem shape_strict (pack : β → α) (unpack : α → β) (hPack : ∀ a, pack (unpack a) = a)
    (fs : List (List UInt8)) : (R.shape pack unpack hPack).Strict fs ↔ R.Strict fs := Iff.rfl

theorem nest_strict (b : List UInt8) : R.nest.Strict [b] ↔ R.StrictBytes b := Iff.rfl

theorem number_strict (n : Nat) (b : List UInt8) : (number ε n).Strict [b] ↔ True := Iff.rfl

theorem unused_strict (n : Nat) (b : List UInt8) : (unused ε n).Strict [b] ↔ b = List.replicate n 0 := Iff.rfl

theorem unused_put (n : Nat) : (unused ε n).put () = .ok [List.replicate n 0] := rfl

theorem unused_get (n : Nat) (b : List UInt8) : (unused ε n).get [b] = .ok () := rfl

theorem unused_length (n : Nat) : (unused ε n).widths.length = 1 := rfl

theorem opt_strict (flag : List UInt8) (fs : List (List UInt8)) : R.opt.Strict (flag :: fs) ↔
    flag = [1] ∧ R.Strict fs ∨ flag = [0] ∧ fs = R.widths.map (List.replicate · 0) := by
  show flag = [1] ∧ R.Strict fs ∨ flag :: fs = [0] :: R.widths.map (List.replicate · 0) ↔ _
  rw [List.cons.injEq]

theorem opt_length : R.opt.widths.length = R.widths.length + 1 := rfl

theorem nest_length : R.nest.widths.length = 1 := rfl

theorem number_length (n : Nat) : (number ε n).widths.length = 1 := rfl

theorem number_put (n v : Nat) : (number ε n).put v = .ok [leBytes n v] := rfl

theorem number_get (n : Nat) (b : List UInt8) : (number ε n).get [b] = .ok (leValue b) := rfl

end Equations

-- ---------------------------------------------------------------------------
-- Tables
-- ---------------------------------------------------------------------------

theorem mapM_eq_ok {f : α → Except ε β} {l : List α} {r : List β} :
    l.mapM f = .ok r ↔ List.Forall₂ (fun a b => f a = .ok b) l r := by
  induction l generalizing r with
  | nil =>
    rw [List.mapM_nil, List.forall₂_nil_left_iff]
    exact ⟨fun h => (Except.ok.inj h).symm, fun h => by rw [h]; rfl⟩
  | cons a l ih =>
    rw [List.mapM_cons, List.forall₂_cons_left_iff]
    constructor
    · intro h
      obtain ⟨b, hb, h⟩ := bind_eq_ok.mp h
      obtain ⟨bs, hbs, h⟩ := bind_eq_ok.mp h
      exact ⟨b, bs, hb, ih.mp hbs, (Except.ok.inj h).symm⟩
    · rintro ⟨b, bs, hb, hbs, rfl⟩
      exact bind_eq_ok.mpr ⟨b, hb, bind_eq_ok.mpr ⟨bs, ih.mpr hbs, rfl⟩⟩

theorem mapM_congr {f g : α → Except ε β} {l : List α} (h : ∀ a ∈ l, f a = g a) : l.mapM f = l.mapM g := by
  induction l with
  | nil => rfl
  | cons a l ih =>
    rw [List.forall_mem_cons] at h
    rw [List.mapM_cons, List.mapM_cons, h.1, ih h.2]

section Tables

variable (R : Record ε α) {es : List α} {rows : List (List UInt8)}

theorem rows_widths (h : List.Forall₂ (fun e row => R.encode e = .ok row) es rows) :
    rows.map List.length = List.replicate es.length R.widths.sum := by
  induction h with
  | nil => rfl
  | cons hRow _ ih => rw [List.map_cons, ih, R.encode_length hRow, List.length_cons, List.replicate_succ]

theorem rows_decode (hTyped : ∀ e ∈ es, R.Typed e)
    (h : List.Forall₂ (fun e row => R.encode e = .ok row) es rows) :
    List.Forall₂ (fun row a => R.decode row = .ok a) rows (es.map R.spell) := by
  induction h with
  | nil => exact .nil
  | cons hRow _ ih =>
    rw [List.forall_mem_cons] at hTyped
    exact .cons (R.decode_encode hTyped.1 hRow) (ih hTyped.2)

theorem rows_strict (hWidths : ∀ row ∈ rows, row.length = R.widths.sum)
    (h : List.Forall₂ (fun row a => R.decode row = .ok a) rows es) :
    List.Forall₂ (fun e row => R.encode e = .ok row) es rows ↔ ∀ row ∈ rows, R.StrictBytes row := by
  induction h with
  | nil => simp
  | cons hRow _ ih =>
    rw [List.forall_mem_cons] at hWidths
    rw [List.forall₂_cons, List.forall_mem_cons, ih hWidths.2, R.encode_decode hWidths.1 hRow]

/-- A count, so many rows, and zeros in place of the rows up to `max`. -/
def putRows (max : Nat) (tooMany : Nat → ε) (es : List α) : Except ε (List (List UInt8)) :=
  if max < es.length then .error (tooMany es.length)
  else do
    let rows ← es.mapM R.encode
    .ok [leBytes 2 es.length, rows.flatten ++ List.replicate ((max - es.length) * R.widths.sum) 0]

def getRows (max : Nat) (outOfRange : Nat → ε) (count slots : List UInt8) : Except ε (List α) :=
  if max < leValue count then .error (outOfRange (leValue count))
  else (split (List.replicate (leValue count) R.widths.sum) slots).mapM R.decode

/-- The rows are strict, and there are zeros behind them. -/
def StrictRows (max : Nat) (count slots : List UInt8) : Prop :=
  (∀ row ∈ split (List.replicate (leValue count) R.widths.sum) slots, R.StrictBytes row) ∧
    slots.drop (leValue count * R.widths.sum) =
      List.replicate ((max - leValue count) * R.widths.sum) 0

variable {max : Nat} {tooMany outOfRange : Nat → ε} {fs : List (List UInt8)}

theorem putRows_eq_ok : R.putRows max tooMany es = .ok fs ↔
    es.length ≤ max ∧ ∃ rows, List.Forall₂ (fun e row => R.encode e = .ok row) es rows ∧
      [leBytes 2 es.length, rows.flatten ++ List.replicate ((max - es.length) * R.widths.sum) 0] = fs := by
  unfold putRows
  by_cases hMany : max < es.length
  · rw [if_pos hMany]
    constructor
    · intro h
      cases h
    · rintro ⟨hFew, _⟩
      omega
  · rw [if_neg hMany, bind_eq_ok]
    simp only [mapM_eq_ok, Except.ok.injEq]
    exact ⟨fun h => ⟨by omega, h⟩, fun h => h.2⟩

theorem putRows_ok : (∃ fs, R.putRows max tooMany es = .ok fs) ↔ es.length ≤ max ∧ ∀ e ∈ es, R.Fits e := by
  have hRows : (∃ rows, List.Forall₂ (fun e row => R.encode e = .ok row) es rows) ↔ ∀ e ∈ es, R.Fits e := by
    simp only [← R.encode_ok]
    induction es with
    | nil => simp
    | cons e es ih =>
      rw [List.forall_mem_cons, ← ih]
      simp only [List.forall₂_cons_left_iff]
      constructor
      · rintro ⟨_, row, rows, hRow, hRows, _⟩
        exact ⟨⟨row, hRow⟩, rows, hRows⟩
      · rintro ⟨⟨row, hRow⟩, rows, hRows⟩
        exact ⟨_, row, rows, hRow, hRows, rfl⟩
  rw [← hRows]
  simp only [putRows_eq_ok]
  constructor
  · rintro ⟨_, hFew, rows, hEach, _⟩
    exact ⟨hFew, rows, hEach⟩
  · rintro ⟨hFew, rows, hEach⟩
    exact ⟨_, hFew, rows, hEach, rfl⟩

theorem putRows_widths (h : R.putRows max tooMany es = .ok fs) :
    fs.map List.length = [2, max * R.widths.sum] := by
  obtain ⟨hFew, rows, hRows, rfl⟩ := R.putRows_eq_ok.mp h
  have hRoom : es.length * R.widths.sum + (max - es.length) * R.widths.sum = max * R.widths.sum := by
    rw [← Nat.add_mul, Nat.add_sub_cancel' hFew]
  simp only [List.map_cons, List.map_nil, leBytes_length, List.length_append, List.length_flatten,
    R.rows_widths hRows, List.sum_replicate_nat, List.length_replicate, hRoom]

theorem getRows_putRows (hMax : max < 256 ^ 2) (hTyped : ∀ e ∈ es, R.Typed e)
    (h : R.putRows max tooMany es = .ok fs) :
    R.getRows max outOfRange (fs.headD []) (fs.tail.headD []) = .ok (es.map R.spell) := by
  obtain ⟨hFew, rows, hRows, rfl⟩ := R.putRows_eq_ok.mp h
  have hCount : leValue (leBytes 2 es.length) = es.length := leValue_leBytes (by omega)
  unfold getRows
  simp only [List.headD_cons, List.tail_cons, hCount]
  rw [if_neg (by omega), split_append (R.rows_widths hRows), mapM_eq_ok]
  exact R.rows_decode hTyped hRows

/-- The rows of a table have the width of their record. -/
theorem row_length {count slots : List UInt8} (hSlots : slots.length = max * R.widths.sum)
    (hFew : leValue count ≤ max) :
    ∀ row ∈ split (List.replicate (leValue count) R.widths.sum) slots, row.length = R.widths.sum := by
  have hRoom : (List.replicate (leValue count) R.widths.sum).sum ≤ slots.length := by
    rw [List.sum_replicate_nat, hSlots]
    exact Nat.mul_le_mul_right _ hFew
  intro row hRow
  have hMem := List.mem_map_of_mem (f := List.length) hRow
  rw [split_lengths_le hRoom] at hMem
  exact List.eq_of_mem_replicate hMem

theorem putRows_getRows {count slots : List UInt8} (hCount : count.length = 2)
    (hSlots : slots.length = max * R.widths.sum) (h : R.getRows max outOfRange count slots = .ok es) :
    R.putRows max tooMany es = .ok [count, slots] ↔ R.StrictRows max count slots := by
  unfold getRows at h
  by_cases hMany : max < leValue count
  · rw [if_pos hMany] at h
    cases h
  rw [if_neg hMany, mapM_eq_ok] at h
  have hRoom : (List.replicate (leValue count) R.widths.sum).sum ≤ slots.length := by
    rw [List.sum_replicate_nat, hSlots]
    exact Nat.mul_le_mul_right _ (by omega)
  have hRows := split_lengths_le hRoom
  have hEach := R.row_length hSlots (by omega : leValue count ≤ max)
  have hLength : es.length = leValue count := by
    have hMap := congrArg List.length hRows
    rw [List.length_map, List.length_replicate] at hMap
    exact h.length_eq.symm.trans hMap
  unfold StrictRows
  rw [← R.rows_strict hEach h, R.putRows_eq_ok, hLength, ← hCount, leBytes_leValue]
  constructor
  · rintro ⟨_, rows, hEncode, hText⟩
    obtain rfl := (List.cons.inj (List.cons.inj hText).2).1
    have hWrote := R.rows_widths hEncode
    rw [hLength] at hWrote
    have hFlat : rows.flatten.length = leValue count * R.widths.sum := by
      rw [List.length_flatten, hWrote, List.sum_replicate_nat]
    rw [split_append hWrote, ← hFlat, List.drop_left]
    exact ⟨hEncode, rfl⟩
  · rintro ⟨hEncode, hZero⟩
    refine ⟨by omega, _, hEncode, ?_⟩
    rw [flatten_split_take, List.sum_replicate_nat, ← hZero, List.take_append_drop]

def table (max : Nat) (hMax : max < 256 ^ 2) (tooMany outOfRange : Nat → ε) : Record ε (List α) where
  widths := [2, max * R.widths.sum]
  put := R.putRows max tooMany
  get fs := R.getRows max outOfRange (fs.headD []) (fs.tail.headD [])
  Typed es := ∀ e ∈ es, R.Typed e
  Fits es := es.length ≤ max ∧ ∀ e ∈ es, R.Fits e
  spell := List.map R.spell
  Strict fs := R.StrictRows max (fs.headD []) (fs.tail.headD [])
  put_ok := R.putRows_ok
  put_widths := R.putRows_widths
  get_put := R.getRows_putRows hMax
  put_get := by
    intro es fs hWidths h
    obtain ⟨count, rest, rfl, hCount, hRest⟩ := List.map_eq_cons_iff.mp hWidths
    obtain ⟨slots, rest, rfl, hSlots, hNil⟩ := List.map_eq_cons_iff.mp hRest
    obtain rfl := List.map_eq_nil_iff.mp hNil
    exact R.putRows_getRows hCount hSlots h

variable (hMax : max < 256 ^ 2)

theorem table_length : (R.table max hMax tooMany outOfRange).widths.length = 2 := rfl

theorem table_put (es : List α) : (R.table max hMax tooMany outOfRange).put es = R.putRows max tooMany es := rfl

theorem table_strict (count slots : List UInt8) :
    (R.table max hMax tooMany outOfRange).Strict [count, slots] ↔ R.StrictRows max count slots := Iff.rfl

theorem table_get (count slots : List UInt8) :
    (R.table max hMax tooMany outOfRange).get [count, slots] = R.getRows max outOfRange count slots := rfl

end Tables

end Record
