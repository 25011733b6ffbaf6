import LinkMesh.Wire.Text

/-!
# Packets

The plain headers of `linkmesh-shared/src/protocol.rs`: the signaling header,
which every packet with the magic begins with, and the header of a relayed one.

* `parseRelay_frameRelay`           — a relayed packet is parsed back;
* `parseRelayBatch_frameRelayBatch` — a batch is, if it has at most 1024 parts;
* `frameRelayBatch_of_parse`        — what is accepted is read to its last byte;
* `relayBatch_codec`                — both directions.
-/

namespace LinkMesh

def msgRelay : Nat := 0x06
def msgRelayRk : Nat := 0x14

def msgRelayBatch : Nat := 0x0A
def msgNotify : Nat := 0x04

/-- `LM` -/
def relayMagic : Bytes := [0x4C, 0x4D]

def headerLen : Nat := 36
def relayHeaderLen : Nat := 68

-- ---------------------------------------------------------------------------
-- The signaling header
-- ---------------------------------------------------------------------------

structure PacketHeader where
  version : Nat
  msgType : Nat
  senderPublicKey : RawKey
  deriving DecidableEq, Repr

/-- A packet is told by its length and its magic; the version is not looked at. -/
def parseHeader (packet : Bytes) : Except String PacketHeader :=
  if packet.length < headerLen then .error "封包过短"
  else if packet.take 2 ≠ relayMagic then .error "魔数不匹配，不是 LinkMesh 封包"
  else
    .ok
      { version := (packet.getD 2 0).toNat
        msgType := (packet.getD 3 0).toNat
        senderPublicKey := keyOfBytes ((packet.drop 4).take 32) }

-- ---------------------------------------------------------------------------
-- Relayed packets
-- ---------------------------------------------------------------------------

/-- `parse_relay`: the destination, the source and the ciphertext. -/
def parseRelay (packet : Bytes) : Except String (RawKey × RawKey × Bytes) :=
  if packet.length < relayHeaderLen then .error "中继封包过短"
  else if packet.take 2 ≠ relayMagic then .error "魔数不匹配"
  else
    .ok (keyOfBytes ((packet.drop 4).take 32), keyOfBytes ((packet.drop 36).take 32),
      packet.drop relayHeaderLen)

/-- `frame_relay` and `frame_relay_rk`, by the message type. -/
def frameRelay (msgType : Nat) (dest srcKey : RawKey) (ct : Bytes) : Bytes :=
  relayMagic ++ [2, UInt8.ofNat msgType] ++ (keyBytes dest ++ (keyBytes srcKey ++ ct))

/-- A framed packet is parsed back. -/
theorem parseRelay_frameRelay {msgType : Nat} {dest srcKey : RawKey} {ct : Bytes} (hDest : dest < 256 ^ 32)
    (hSrc : srcKey < 256 ^ 32) :
    parseRelay (frameRelay msgType dest srcKey ct) = .ok (dest, srcKey, ct) := by
  have hKey : ∀ {k : RawKey}, k < 256 ^ 32 → keyOfBytes (keyBytes k) = k :=
    fun hk => Layout.beValue_beBytes hk
  have hFirst : (frameRelay msgType dest srcKey ct).drop 4 = keyBytes dest ++ (keyBytes srcKey ++ ct) := rfl
  have hSecond : (frameRelay msgType dest srcKey ct).drop 36 = keyBytes srcKey ++ ct := by
    show ((frameRelay msgType dest srcKey ct).drop 4).drop 32 = _
    rw [hFirst, List.drop_left' (keyBytes_length dest)]
  have hThird : (frameRelay msgType dest srcKey ct).drop relayHeaderLen = ct := by
    show ((frameRelay msgType dest srcKey ct).drop 36).drop 32 = _
    rw [hSecond, List.drop_left' (keyBytes_length srcKey)]
  have hMagic : (frameRelay msgType dest srcKey ct).take 2 = relayMagic := rfl
  have hLength : ¬ (frameRelay msgType dest srcKey ct).length < relayHeaderLen := by
    unfold frameRelay relayMagic relayHeaderLen
    simp only [List.length_append, keyBytes_length, List.length_cons, List.length_nil]
    omega
  unfold parseRelay
  rw [if_neg hLength, if_neg (not_not_intro hMagic), hFirst, hSecond, hThird,
    List.take_left' (keyBytes_length dest), List.take_left' (keyBytes_length srcKey), hKey hDest, hKey hSrc]

/-- What is parsed is a key of 32 bytes and the bytes behind the header. -/
theorem parseRelay_bounds {packet ct : Bytes} {dest srcKey : RawKey}
    (h : parseRelay packet = .ok (dest, srcKey, ct)) :
    dest < 256 ^ 32 ∧ ct.length + relayHeaderLen = packet.length := by
  unfold parseRelay at h
  split at h
  · cases h
  · rename_i hLong
    split at h
    · cases h
    · cases h
      unfold relayHeaderLen at hLong ⊢
      have hKey : ((packet.drop 4).take 32).length = 32 := by
        rw [List.length_take, List.length_drop]
        omega
      refine ⟨keyOfBytes_lt hKey, ?_⟩
      rw [List.length_drop]
      omega

-- ---------------------------------------------------------------------------
-- Batches
-- ---------------------------------------------------------------------------

/-- `MAX_SUBFRAMES` -/
def maxSubframes : Nat := 1024

/-- A subframe behind its length; a length that does not fit is cut off. -/
def frameSubframe (sf : Bytes) : Bytes := Layout.beBytes 2 (min sf.length 65535) ++ sf

def frameRelayBatch (dest : RawKey) (subframes : List Bytes) : Bytes :=
  relayMagic ++ [2, UInt8.ofNat msgRelayBatch] ++ (keyBytes dest ++ (subframes.map frameSubframe).flatten)

theorem frameRelayBatch_length {dest : RawKey} {subframes : List Bytes} :
    (frameRelayBatch dest subframes).length =
      headerLen + 2 * subframes.length + (subframes.map List.length).sum := by
  have hParts : ((subframes.map frameSubframe).flatten).length =
      2 * subframes.length + (subframes.map List.length).sum := by
    induction subframes with
    | nil => rfl
    | cons sf subframes ih =>
      have hHead : (frameSubframe sf).length = 2 + sf.length := by
        unfold frameSubframe
        rw [List.length_append, Layout.beBytes_length]
      rw [List.map_cons, List.flatten_cons, List.length_append, ih, hHead, List.map_cons, List.sum_cons,
        List.length_cons]
      omega
  unfold frameRelayBatch headerLen
  simp only [List.length_append, keyBytes_length, hParts, relayMagic, List.length_cons, List.length_nil]
  omega

/-- The loop of `parse_relay_batch`, for at most so many more subframes. -/
def readSubframes : Nat → Bytes → Except String (List Bytes)
  | _, [] => .ok []
  | 0, _ :: _ => .error "批量中继子帧数超限"
  | _ + 1, [_] => .error "批量中继子帧长度头不足"
  | n + 1, hi :: lo :: rest =>
    let len := hi.toNat * 256 + lo.toNat
    if rest.length < len then .error "批量中继子帧长度越界"
    else do
      let more ← readSubframes n (rest.drop len)
      .ok (rest.take len :: more)

/-- `parse_relay_batch`: the destination and the subframes. -/
def parseRelayBatch (packet : Bytes) : Except String (RawKey × List Bytes) :=
  if packet.length < headerLen then .error "批量中继封包过短"
  else if packet.take 2 ≠ relayMagic then .error "魔数不匹配"
  else do
    let subframes ← readSubframes maxSubframes (packet.drop headerLen)
    .ok (keyOfBytes ((packet.drop 4).take 32), subframes)

/-- A subframe that fits its length field, in front of others. -/
theorem readSubframes_cons {n : Nat} {sf rest : Bytes} (hFit : sf.length ≤ 65535) :
    readSubframes (n + 1) (frameSubframe sf ++ rest) = (readSubframes n rest).map (sf :: ·) := by
  have hBytes : Layout.beBytes 2 (min sf.length 65535) =
      [UInt8.ofNat (sf.length / 256), UInt8.ofNat (sf.length % 256)] := by
    rw [Nat.min_eq_left hFit]
    simp only [Layout.beBytes, Layout.leBytes, List.reverse_cons, List.reverse_nil, List.nil_append,
      List.singleton_append]
    have hHigh : sf.length / 256 % 256 = sf.length / 256 := by omega
    rw [hHigh]
  have hLength : (UInt8.ofNat (sf.length / 256)).toNat * 256 + (UInt8.ofNat (sf.length % 256)).toNat =
      sf.length := by
    simp only [UInt8.toNat_ofNat']
    omega
  unfold frameSubframe
  rw [hBytes]
  show readSubframes (n + 1) (_ :: _ :: (sf ++ rest)) = _
  rw [readSubframes]
  simp only [hLength, List.length_append, List.take_left, List.drop_left]
  rw [if_neg (by omega)]
  cases readSubframes n rest <;> rfl

theorem readSubframes_frames {n : Nat} (subframes : List Bytes) (hFit : ∀ sf ∈ subframes, sf.length ≤ 65535) :
    readSubframes n (subframes.map frameSubframe).flatten =
      if subframes.length ≤ n then .ok subframes else .error "批量中继子帧数超限" := by
  induction subframes generalizing n with
  | nil => cases n <;> rfl
  | cons sf subframes ih =>
    have hRest := fun n => ih (n := n) fun sf' h => hFit sf' (List.mem_cons_of_mem _ h)
    rw [List.map_cons, List.flatten_cons]
    cases n with
    | zero =>
      obtain ⟨b, bs, hCons⟩ : ∃ b bs, frameSubframe sf = b :: bs := by
        refine List.exists_cons_of_length_pos ?_
        unfold frameSubframe
        rw [List.length_append, Layout.beBytes_length]
        omega
      rw [hCons]
      rfl
    | succ n =>
      rw [readSubframes_cons (hFit sf (List.mem_cons_self ..)), hRest n]
      simp only [List.length_cons, Nat.add_le_add_iff_right]
      split <;> rfl

/-- A batch of parts that fit their length fields is parsed back, unless it has
too many of them. -/
theorem parseRelayBatch_frameRelayBatch {dest : RawKey} {subframes : List Bytes} (hDest : dest < 256 ^ 32)
    (hFit : ∀ sf ∈ subframes, sf.length ≤ 65535) :
    parseRelayBatch (frameRelayBatch dest subframes) =
      if subframes.length ≤ maxSubframes then .ok (dest, subframes) else .error "批量中继子帧数超限" := by
  have hKey : keyOfBytes (keyBytes dest) = dest := Layout.beValue_beBytes hDest
  have hFirst : (frameRelayBatch dest subframes).drop 4 =
      keyBytes dest ++ (subframes.map frameSubframe).flatten := rfl
  have hRest : (frameRelayBatch dest subframes).drop headerLen = (subframes.map frameSubframe).flatten := by
    show ((frameRelayBatch dest subframes).drop 4).drop 32 = _
    rw [hFirst, List.drop_left' (keyBytes_length dest)]
  have hMagic : (frameRelayBatch dest subframes).take 2 = relayMagic := rfl
  have hLength : ¬ (frameRelayBatch dest subframes).length < headerLen := by
    unfold frameRelayBatch relayMagic headerLen
    simp only [List.length_append, keyBytes_length, List.length_cons, List.length_nil]
    omega
  unfold parseRelayBatch
  rw [if_neg hLength, if_neg (not_not_intro hMagic), hFirst, hRest,
    List.take_left' (keyBytes_length dest), hKey, readSubframes_frames subframes hFit]
  split <;> rfl

-- ---------------------------------------------------------------------------
-- What is accepted
-- ---------------------------------------------------------------------------

/-- A part read behind its length frames to the bytes that it was read from. -/
theorem frameSubframe_take {hi lo : UInt8} {rest : Bytes} (hEnough : ¬ rest.length < hi.toNat * 256 + lo.toNat) :
    frameSubframe (rest.take (hi.toNat * 256 + lo.toNat)) =
      hi :: lo :: rest.take (hi.toNat * 256 + lo.toNat) := by
  have hHi : hi.toNat < 256 := hi.toNat_lt
  have hLo : lo.toNat < 256 := lo.toNat_lt
  have hLength : min (rest.take (hi.toNat * 256 + lo.toNat)).length 65535 = Layout.beValue [hi, lo] := by
    have hValue : Layout.beValue [hi, lo] = hi.toNat * 256 + lo.toNat := by
      simp only [Layout.beValue, Layout.leValue, List.reverse_cons, List.reverse_nil, List.nil_append,
        List.singleton_append]
      omega
    rw [hValue, List.length_take]
    omega
  have hHead : Layout.beBytes 2 (Layout.beValue [hi, lo]) = [hi, lo] := Layout.beBytes_beValue [hi, lo]
  unfold frameSubframe
  rw [hLength, hHead]
  rfl

/-- The loop ends where the bytes end: what it read frames to all of them. -/
theorem frames_readSubframes {n : Nat} {bs : Bytes} {subframes : List Bytes}
    (h : readSubframes n bs = .ok subframes) : (subframes.map frameSubframe).flatten = bs := by
  fun_induction readSubframes n bs generalizing subframes with
  | case1 n =>
    cases h
    rfl
  | case2 => cases h
  | case3 => cases h
  | case4 => cases h
  | case5 n hi lo rest len hEnough =>
    rename_i ih
    obtain ⟨more, hMore, hAll⟩ := bind_eq_ok.mp h
    cases hAll
    rw [List.map_cons, List.flatten_cons, frameSubframe_take hEnough, ih hMore]
    show hi :: lo :: (rest.take len ++ rest.drop len) = _
    rw [List.take_append_drop]

/-- A batch that is accepted is what its parts are framed to, but for the two
bytes that hold the version and the type. -/
theorem frameRelayBatch_of_parse {packet : Bytes} {dest : RawKey} {subframes : List Bytes}
    (h : parseRelayBatch packet = .ok (dest, subframes)) :
    packet.take 2 = relayMagic ∧
      frameRelayBatch dest subframes = packet.take 2 ++ [2, UInt8.ofNat msgRelayBatch] ++ packet.drop 4 := by
  unfold parseRelayBatch at h
  split at h
  · cases h
  · rename_i hLong
    split at h
    · cases h
    · rename_i hMagic
      obtain ⟨read, hRead, hAll⟩ := bind_eq_ok.mp h
      cases hAll
      have hMagic := not_not.mp hMagic
      have hKey : ((packet.drop 4).take 32).length = 32 := by
        unfold headerLen at hLong
        rw [List.length_take, List.length_drop]
        omega
      have hParts : (packet.drop 4).drop 32 = packet.drop headerLen := List.drop_drop
      refine ⟨hMagic, ?_⟩
      unfold frameRelayBatch
      rw [keyBytes_keyOfBytes hKey, frames_readSubframes hRead, hMagic, ← hParts, List.take_append_drop]

/-- The codec of batches. A framed list of parts that fit their length fields is
parsed back to its key and its parts, if there are at most 1024, and is refused
otherwise; what is accepted is the frame of what was parsed, to its last byte,
whatever its version and type say. -/
theorem relayBatch_codec :
    (∀ (dest : RawKey) (subframes : List Bytes), dest < 256 ^ 32 → (∀ sf ∈ subframes, sf.length ≤ 65535) →
      parseRelayBatch (frameRelayBatch dest subframes) =
        if subframes.length ≤ maxSubframes then .ok (dest, subframes) else .error "批量中继子帧数超限") ∧
    ∀ (packet : Bytes) (dest : RawKey) (subframes : List Bytes), parseRelayBatch packet = .ok (dest, subframes) →
      ∃ version msgType rest, packet = relayMagic ++ [version, msgType] ++ rest ∧
        frameRelayBatch dest subframes = relayMagic ++ [2, UInt8.ofNat msgRelayBatch] ++ rest := by
  refine ⟨fun dest subframes hDest hFit => parseRelayBatch_frameRelayBatch hDest hFit, ?_⟩
  intro packet dest subframes h
  obtain ⟨hMagic, hFrame⟩ := frameRelayBatch_of_parse h
  have hLong : ¬ packet.length < headerLen := by
    intro hShort
    unfold parseRelayBatch at h
    rw [if_pos hShort] at h
    cases h
  unfold headerLen at hLong
  obtain ⟨version, msgType, hNext⟩ : ∃ version msgType, (packet.drop 2).take 2 = [version, msgType] := by
    refine List.length_eq_two.mp ?_
    rw [List.length_take, List.length_drop]
    omega
  refine ⟨version, msgType, packet.drop 4, ?_, hMagic ▸ hFrame⟩
  calc packet = packet.take 2 ++ ((packet.drop 2).take 2 ++ (packet.drop 2).drop 2) := by
        rw [List.take_append_drop, List.take_append_drop]
    _ = relayMagic ++ [version, msgType] ++ packet.drop 4 := by
        rw [hMagic, hNext, List.drop_drop, List.append_assoc]

/-- A batch of two parts, one of them empty. -/
theorem relayBatch_codec_parts :
    parseRelayBatch (frameRelayBatch 7 [[1, 2, 3], []]) = .ok (7, [[1, 2, 3], []]) ∧
      ∃ version msgType rest, frameRelayBatch 7 [[1, 2, 3], []] = relayMagic ++ [version, msgType] ++ rest ∧
        frameRelayBatch 7 [[1, 2, 3], []] = relayMagic ++ [2, UInt8.ofNat msgRelayBatch] ++ rest := by
  have hParsed : parseRelayBatch (frameRelayBatch 7 [[1, 2, 3], []]) = .ok (7, [[1, 2, 3], []]) :=
    relayBatch_codec.1 7 [[1, 2, 3], []] (by decide) (by decide)
  exact ⟨hParsed, relayBatch_codec.2 _ 7 _ hParsed⟩

end LinkMesh
