import UriRouting.Proofs.Snapshot.RoundTrip
/-!
# Altered snapshots

A payload is opened from just one kind of bytes: its header, in which six bytes are reserved, and the
payload itself. The reserved bytes hold the version of the engine and the flags, which nothing reads.
So a snapshot that was altered anywhere else is refused, as long as the hash tells its payload from
the one that was saved and the stored hash was not made to fit another payload. One that was altered
only in the reserved bytes loads as before.

Main statements: `openPayload_eq_ok_iff` and `load_altered`.
-/

namespace UriRouting.Snapshot

/-! ## Numbers -/

/-- Bytes are those of the number that they stand for. -/
theorem littleEndian_ofLittleEndian (bytes : Bytes) :
    littleEndian bytes.length (ofLittleEndian bytes) = bytes := by
  induction bytes with
  | nil => rfl
  | cons b bytes ih =>
    have hlow : UInt8.ofNat (b.toNat + 256 * ofLittleEndian bytes) = b := by
      rw [← UInt8.toNat_inj, UInt8.toNat_ofNat']
      have := b.toNat_lt
      omega
    have hrest : (b.toNat + 256 * ofLittleEndian bytes) / 256 = ofLittleEndian bytes := by
      have := b.toNat_lt
      omega
    rw [List.length_cons, ofLittleEndian, littleEndian, hlow, hrest, ih]

theorem ofLittleEndian_lt (bytes : Bytes) : ofLittleEndian bytes < 256 ^ bytes.length := by
  induction bytes with
  | nil => exact Nat.one_pos
  | cons b bytes ih =>
    have := b.toNat_lt
    rw [ofLittleEndian, List.length_cons, Nat.pow_succ]
    omega

/-! ## Headers -/

/-- Behind a field of a header stands the next. -/
theorem headerField_append_drop (bytes : Bytes) (start size : Nat) :
    headerField bytes start size ++ bytes.drop (start + size) = bytes.drop start := by
  rw [headerField, ← List.drop_drop, List.take_append_drop]

theorem length_headerField {bytes : Bytes} {start size : Nat} (h : start + size ≤ bytes.length) :
    (headerField bytes start size).length = size := by
  rw [headerField, List.length_take, List.length_drop]
  omega

/-- A field that holds a number consists of the bytes of that number. -/
theorem headerField_eq_littleEndian {bytes : Bytes} {start size n : Nat}
    (h : (headerField bytes start size).length = size)
    (hn : ofLittleEndian (headerField bytes start size) = n) :
    headerField bytes start size = littleEndian size n := by
  have hbytes := littleEndian_ofLittleEndian (headerField bytes start size)
  rw [h, hn] at hbytes
  exact hbytes.symm

/-- The header of a payload with some bytes in the place of the engine's version and the flags. -/
def headerWith (reserved payload : Bytes) : Bytes :=
  magic ++ littleEndian 2 formatVersion ++ reserved ++ littleEndian 4 payload.length
    ++ checksum payload

theorem header_eq_headerWith (payload : Bytes) :
    header payload = headerWith (littleEndian 2 engineVersion ++ littleEndian 4 0) payload := by
  simp [header, headerWith]

theorem drop_headerWith {reserved : Bytes} (h : reserved.length = 6) (payload : Bytes) :
    (headerWith reserved payload ++ payload).drop 12
      = littleEndian 4 payload.length ++ checksum payload ++ payload := by
  have hfront : (magic ++ littleEndian 2 formatVersion ++ reserved).length = 12 := by
    simp [magic, h]
  rw [headerWith, List.append_assoc, List.append_assoc, List.drop_left' hfront, List.append_assoc]

theorem drop_headerSize_headerWith {reserved : Bytes} (h : reserved.length = 6) (payload : Bytes) :
    (headerWith reserved payload ++ payload).drop headerSize = payload :=
  List.drop_left' (by simp [headerWith, magic, h, length_checksum, headerSize])

theorem hash_headerWith {reserved : Bytes} (h : reserved.length = 6) (payload : Bytes) :
    headerField (headerWith reserved payload ++ payload) 16 16 = checksum payload := by
  have hfield := headerField_append (magic ++ littleEndian 2 formatVersion ++ reserved
    ++ littleEndian 4 payload.length) (checksum payload) payload
  rw [length_checksum, ← List.append_assoc, ← headerWith] at hfield
  simpa [magic, h] using hfield

/-- Opening a payload looks at everything but the bytes 6 to 11. -/
theorem openPayload_congr {bytes bytes' : Bytes} (htake : bytes.take 6 = bytes'.take 6)
    (hdrop : bytes.drop 12 = bytes'.drop 12) (hlength : bytes.length = bytes'.length) :
    openPayload bytes = openPayload bytes' := by
  have hmagic : bytes.take 4 = bytes'.take 4 := by
    have h := congrArg (List.take 4) htake
    simpa [List.take_take] using h
  have hformat : headerField bytes 4 2 = headerField bytes' 4 2 := by
    have h := congrArg (List.drop 4) htake
    rwa [List.drop_take, List.drop_take] at h
  have hfield : ∀ start size,
      headerField bytes (12 + start) size = headerField bytes' (12 + start) size := by
    intro start size
    rw [headerField, headerField, ← List.drop_drop, ← List.drop_drop, hdrop]
  have hpayload : bytes.drop headerSize = bytes'.drop headerSize := by
    have h := congrArg (List.drop 20) hdrop
    rwa [List.drop_drop, List.drop_drop] at h
  have hsize : headerField bytes 12 4 = headerField bytes' 12 4 := hfield 0 4
  have hhash : headerField bytes 16 16 = headerField bytes' 16 16 := hfield 4 16
  simp only [openPayload, hmagic, hformat, hpayload, hsize, hhash, hlength]

/-- Bytes are the fields of their header, one behind another, and what follows the header. -/
theorem eq_append_headerFields (bytes : Bytes) :
    bytes = bytes.take 4 ++ (headerField bytes 4 2 ++ (headerField bytes 6 6
      ++ (headerField bytes 12 4 ++ (headerField bytes 16 16 ++ bytes.drop headerSize)))) := by
  rw [headerSize, headerField_append_drop bytes 16 16, headerField_append_drop bytes 12 4,
    headerField_append_drop bytes 6 6, headerField_append_drop bytes 4 2, List.take_append_drop]

/-- A payload is opened from its header, whatever the reserved bytes are. -/
theorem openPayload_headerWith {reserved payload : Bytes} (h : reserved.length = 6)
    (hlength : payload.length < UInt32.size) :
    openPayload (headerWith reserved payload ++ payload) = .ok payload := by
  have hopen := openPayload_header hlength
  rw [header_eq_headerWith] at hopen
  rw [← hopen]
  refine openPayload_congr rfl ?_ ?_
  · rw [drop_headerWith h, drop_headerWith (by simp)]
  · simp only [headerWith, List.length_append, h, length_littleEndian]

/-- A payload is opened from its header, whatever the reserved bytes are, and from nothing else. -/
theorem openPayload_eq_ok_iff {bytes payload : Bytes} :
    openPayload bytes = .ok payload
      ↔ payload.length < UInt32.size
        ∧ ∃ reserved, reserved.length = 6 ∧ bytes = headerWith reserved payload ++ payload := by
  constructor
  · intro h
    simp only [openPayload] at h
    -- one case for each check, in the order of the header but for the reserved bytes
    split at h
    · cases h
    rename_i hlength
    split at h
    · cases h
    rename_i hmagic
    split at h
    · cases h
    rename_i hformat
    split at h
    · cases h
    rename_i hsize
    split at h
    · cases h
    rename_i hhash
    obtain rfl := Except.ok.inj h
    rw [Nat.not_lt] at hlength
    rw [not_not] at hmagic hformat hsize hhash
    have hfield : ∀ {start size}, start + size ≤ 32 →
        (headerField bytes start size).length = size := fun h =>
      length_headerField (Nat.le_trans h hlength)
    have hversion : headerField bytes 4 2 = littleEndian 2 formatVersion :=
      headerField_eq_littleEndian (hfield (by omega)) hformat
    have hcount : headerField bytes 12 4 = littleEndian 4 (bytes.drop headerSize).length :=
      headerField_eq_littleEndian (hfield (by omega)) hsize.symm
    have hbound := ofLittleEndian_lt (headerField bytes 12 4)
    rw [← hsize, hfield (by omega)] at hbound
    refine ⟨hbound, headerField bytes 6 6, hfield (by omega), ?_⟩
    conv => lhs; rw [eq_append_headerFields bytes, hmagic, hversion, hcount, ← hhash]
    simp only [headerWith, List.append_assoc]
  · rintro ⟨hlength, reserved, hreserved, rfl⟩
    exact openPayload_headerWith hreserved hlength

/-! ## Loading -/

/-- If the hash tells the payload of some bytes from that of a snapshot, and the stored hash was not
replaced to fit another payload, the bytes open only where they are those of the snapshot, except
perhaps for the reserved ones. -/
theorem eq_of_openPayload {payload opened bytes : Bytes} (h : openPayload bytes = .ok opened)
    (hfree : checksum (bytes.drop headerSize) = checksum payload → bytes.drop headerSize = payload)
    (hforged : ¬ (headerField bytes 16 16 ≠ checksum payload ∧ bytes.drop headerSize ≠ payload
      ∧ checksum (bytes.drop headerSize) = headerField bytes 16 16)) :
    bytes.take 6 = (header payload ++ payload).take 6
      ∧ bytes.drop 12 = (header payload ++ payload).drop 12 := by
  obtain ⟨-, reserved, hreserved, rfl⟩ := openPayload_eq_ok_iff.1 h
  rw [drop_headerSize_headerWith hreserved] at hfree hforged
  rw [hash_headerWith hreserved] at hforged
  have hopened : opened = payload := by
    by_contra hother
    exact hforged ⟨fun hsame => hother (hfree hsame), hother, rfl⟩
  subst hopened
  rw [header_eq_headerWith, drop_headerWith hreserved, drop_headerWith (by simp)]
  exact ⟨rfl, rfl⟩

theorem drop_headerSize_save (table : RouteTable) (version : Option String) :
    (save table version).drop headerSize = Codec.storedTable.write (storeTable table version) := by
  rw [save, header_eq_headerWith]
  exact drop_headerSize_headerWith (by simp) _

/-- A snapshot opens only if its length fits in the header. -/
theorem length_lt_of_openPayload_save {table : RouteTable} {version : Option String} {payload : Bytes}
    (h : openPayload (save table version) = .ok payload) :
    (Codec.storedTable.write (storeTable table version)).length < UInt32.size := by
  obtain ⟨hlength, reserved, hreserved, hsave⟩ := openPayload_eq_ok_iff.1 h
  rw [← drop_headerSize_save, hsave, drop_headerSize_headerWith hreserved]
  exact hlength

/-- Suppose that the hash tells the payload of some bytes from that of a snapshot, and that the
stored hash and the payload were not both replaced so that they agree. If the bytes differ from the
snapshot elsewhere than in the bytes 6 to 11, no loader takes them. If they differ only there, in the
version of the engine and the flags, every loader does with them what it does with the snapshot. -/
theorem load_altered (table : RouteTable) (version : Option String) (bytes : Bytes)
    (hfree : checksum (bytes.drop headerSize) = checksum ((save table version).drop headerSize) →
      bytes.drop headerSize = (save table version).drop headerSize)
    (hforged : ¬ (headerField bytes 16 16 ≠ headerField (save table version) 16 16
      ∧ bytes.drop headerSize ≠ (save table version).drop headerSize
      ∧ checksum (bytes.drop headerSize) = headerField bytes 16 16)) :
    (bytes.take 6 ≠ (save table version).take 6 ∨ bytes.drop 12 ≠ (save table version).drop 12 →
      ∀ book expected, ∃ e, load book expected bytes = .error e)
    ∧ (bytes.take 6 = (save table version).take 6 → bytes.drop 12 = (save table version).drop 12 →
        ∀ book expected, load book expected bytes = load book expected (save table version)) := by
  have hhash : headerField (save table version) 16 16
      = checksum (Codec.storedTable.write (storeTable table version)) := by
    rw [save, header_eq_headerWith]
    exact hash_headerWith (by simp) _
  constructor
  · intro hdiffers book expected
    rw [load_eq]
    cases hopen : openPayload bytes with
    | error e => exact ⟨e, rfl⟩
    | ok opened =>
      rw [drop_headerSize_save] at hfree hforged
      rw [hhash] at hforged
      obtain ⟨htake, hdrop⟩ := eq_of_openPayload hopen hfree hforged
      rcases hdiffers with htake' | hdrop'
      · exact absurd htake htake'
      · exact absurd hdrop hdrop'
  · intro htake hdrop book expected
    have hlength : bytes.length = (save table version).length := by
      have h := congrArg List.length hdrop
      have hsaved : 32 ≤ (save table version).length := by
        simp [save, length_header, headerSize]
      rw [List.length_drop, List.length_drop] at h
      omega
    rw [load_eq, load_eq, openPayload_congr htake hdrop hlength]

/-- A snapshot whose last byte was cut off and whose length was corrected is refused. -/
theorem load_altered_shortened :
    let saved := save .empty (some "1")
    let bytes := saved.take 12 ++ 34 :: (saved.drop 13).dropLast
    bytes.length + 1 = saved.length
      ∧ ∀ book expected, ∃ e, load book expected bytes = .error e := by
  intro saved bytes
  refine ⟨by decide +kernel, (load_altered .empty (some "1") bytes ?_ ?_).1 ?_⟩
  · have htold : checksum (bytes.drop headerSize) ≠ checksum (saved.drop headerSize) := by
      decide +kernel
    exact fun heq => absurd heq htold
  · have hsame : headerField bytes 16 16 = headerField saved 16 16 := by decide +kernel
    exact fun h => h.1 hsame
  · exact Or.inr (by decide +kernel)

/-- A snapshot loads although a flag in its header was set, for no check reads the flags. -/
theorem load_flagged :
    let saved := save .empty none
    let bytes := saved.set 8 1
    RouteTable.build .standard [] = .ok .empty ∧ bytes ≠ saved ∧ bytes.drop 9 = saved.drop 9
      ∧ load .standard none bytes = .ok .empty := by
  intro saved bytes
  have hopen : openPayload bytes = .ok (Codec.storedTable.write (storeTable .empty none)) :=
    openPayload_eq_ok_iff.2 ⟨by decide +kernel, [1, 0, 1, 0, 0, 0], rfl, by decide +kernel⟩
  refine ⟨rfl, by decide +kernel, by decide +kernel, ?_⟩
  rw [load_eq, hopen]
  rfl

end UriRouting.Snapshot
