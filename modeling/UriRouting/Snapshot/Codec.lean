import UriRouting.Snapshot.Bytes
/-!
# Codecs

A codec writes values as bytes and reads them back from the front of longer bytes. What it writes it
also reads, whatever follows; this holds up to 2⁶⁴ bytes, since lengths are written as 64-bit numbers.
Pairs, lists and options of what has a codec have one too.

A number below 251 is one byte; a greater one is a marker and two, four or eight bytes. Reading also
takes the longer forms of small numbers.
-/

namespace UriRouting.Snapshot

/-- Reads a value from the front of some bytes. -/
abbrev Reader (α : Type) := Bytes → Option (α × Bytes)

/-- A way to write values and to read them back. -/
structure Codec (α : Type) where
  /-- The bytes of a value. -/
  write : α → Bytes
  /-- The value at the front of some bytes. -/
  read : Reader α
  /-- No value is written as nothing. -/
  write_ne_nil : ∀ a, write a ≠ []
  /-- What was written is read back, and what follows is left. -/
  read_write : ∀ a rest, (write a).length < UInt64.size → read (write a ++ rest) = some (a, rest)

/-! ## Numbers -/

/-- Reads a number of `width` bytes. -/
def readFixed (width : Nat) : Reader Nat := fun bytes =>
  if width ≤ bytes.length then some (ofLittleEndian (bytes.take width), bytes.drop width) else none

theorem readFixed_littleEndian {width n : Nat} (h : n < Nat.pow 256 width) (rest : Bytes) :
    readFixed width (littleEndian width n ++ rest) = some (n, rest) := by
  simp [readFixed, ofLittleEndian_littleEndian h]

/-- Writes a number of at most 64 bits. -/
def writeNumber (n : Nat) : Bytes :=
  if n < 251 then [UInt8.ofNat n]
  else if n < UInt16.size then 251 :: littleEndian 2 n
  else if n < UInt32.size then 252 :: littleEndian 4 n
  else 253 :: littleEndian 8 n

/-- Reads a number of at most `widest` bytes after its marker. -/
def readNumber (widest : Nat) : Reader Nat
  | [] => none
  | b :: rest =>
    if b < 251 then some (b.toNat, rest)
    else if b = 251 then readFixed 2 rest
    else if b = 252 then readFixed 4 rest
    else if b = 253 ∧ 8 ≤ widest then readFixed 8 rest
    else none

theorem writeNumber_ne_nil (n : Nat) : writeNumber n ≠ [] := by
  unfold writeNumber
  repeat' split
  all_goals simp

theorem readNumber_writeNumber {n : Nat} (h : n < UInt64.size) (rest : Bytes) :
    readNumber 8 (writeNumber n ++ rest) = some (n, rest) := by
  unfold writeNumber
  split
  · rename_i hn
    have hb : UInt8.ofNat n < 251 := by
      rw [UInt8.lt_iff_toNat_lt, UInt8.toNat_ofNat']
      rw [Nat.mod_eq_of_lt (by omega)]
      exact hn
    have hv : n % 256 = n := Nat.mod_eq_of_lt (by omega)
    simp [readNumber, hb, hv]
  split
  · rename_i hn
    simpa [readNumber] using @readFixed_littleEndian 2 n (by simpa using hn) rest
  split
  · rename_i hn
    simpa [readNumber] using @readFixed_littleEndian 4 n (by simpa using hn) rest
  · simpa [readNumber] using @readFixed_littleEndian 8 n (by simpa using h) rest

namespace Codec

/-- Natural numbers of 64 bits. -/
def natural : Codec UInt64 where
  write n := writeNumber n.toNat
  read bytes := (readNumber 8 bytes).map fun (n, rest) => (UInt64.ofNat n, rest)
  write_ne_nil n := writeNumber_ne_nil n.toNat
  read_write n rest _ := by simp [readNumber_writeNumber n.toNat_lt rest]

end Codec

/-! ## Texts and lists -/

/-- Reads `count` values. -/
def readTimes {α : Type} (read : Reader α) : Nat → Reader (List α)
  | 0, bytes => some ([], bytes)
  | count + 1, bytes =>
    match read bytes with
    | none => none
    | some (a, rest) => (readTimes read count rest).map fun (as, rest) => (a :: as, rest)

/-- Reads a list: the number of its values, then the values. -/
def readList {α : Type} (read : Reader α) : Reader (List α) := fun bytes =>
  match readNumber 8 bytes with
  | none => none
  | some (count, rest) => readTimes read count rest

/-- Writes a list: the number of its values, then the values. -/
def writeList {α : Type} (write : α → Bytes) (as : List α) : Bytes :=
  writeNumber as.length ++ as.flatMap write

theorem readTimes_flatMap {α : Type} {write : α → Bytes} {read : Reader α} (as : List α)
    (h : ∀ a ∈ as, ∀ rest, read (write a ++ rest) = some (a, rest)) (rest : Bytes) :
    readTimes read as.length (as.flatMap write ++ rest) = some (as, rest) := by
  induction as with
  | nil => rfl
  | cons a as ih =>
    simp only [List.flatMap_cons, List.length_cons, List.append_assoc, readTimes]
    rw [h a List.mem_cons_self]
    simp [ih fun b hb => h b (List.mem_cons_of_mem _ hb)]

theorem readList_writeList {α : Type} {write : α → Bytes} {read : Reader α} (as : List α)
    (h : ∀ a ∈ as, ∀ rest, read (write a ++ rest) = some (a, rest)) (hlen : as.length < UInt64.size)
    (rest : Bytes) : readList read (writeList write as ++ rest) = some (as, rest) := by
  simp only [readList, writeList, List.append_assoc, readNumber_writeNumber hlen]
  exact readTimes_flatMap as h rest

/-- A list of values that take at least one byte each is no longer than its written form. -/
theorem length_le_writeList {α : Type} {write : α → Bytes} (hne : ∀ a, write a ≠ [])
    (as : List α) : as.length ≤ (writeList write as).length := by
  have key : as.length ≤ (as.flatMap write).length := by
    induction as with
    | nil => simp
    | cons a as ih =>
      have := List.length_pos_iff.2 (hne a)
      simp only [List.flatMap_cons, List.length_cons, List.length_append]
      omega
  simp only [writeList, List.length_append]
  omega

/-- A value of a list is written in no more bytes than the list. -/
theorem length_write_le_writeList {α : Type} {write : α → Bytes} {as : List α} {a : α}
    (h : a ∈ as) : (write a).length ≤ (writeList write as).length := by
  have key : (write a).length ≤ (as.flatMap write).length := by
    induction as with
    | nil => simp at h
    | cons b bs ih =>
      simp only [List.flatMap_cons, List.length_append]
      rcases List.mem_cons.1 h with rfl | h
      · omega
      · have := ih h
        omega
  simp only [writeList, List.length_append]
  omega

/-- Reads a text in UTF-8 behind its number of bytes. -/
def readText : Reader String := fun bytes =>
  match readNumber 8 bytes with
  | none => none
  | some (size, rest) =>
    if size ≤ rest.length then
      (String.fromUTF8? ⟨(rest.take size).toArray⟩).map fun text => (text, rest.drop size)
    else none

/-- Writes a text in UTF-8 behind its number of bytes. -/
def writeText (text : String) : Bytes :=
  let bytes := text.toByteArray.data.toList
  writeNumber bytes.length ++ bytes

theorem fromUTF8?_toByteArray (text : String) : String.fromUTF8? text.toByteArray = some text := by
  simp only [String.fromUTF8?, text.isValidUTF8, dif_pos]
  rfl

namespace Codec

/-- Texts. -/
def text : Codec String where
  write := writeText
  read := readText
  write_ne_nil s := by simp [writeText, writeNumber_ne_nil]
  read_write s rest h := by
    have hlen : s.toByteArray.data.toList.length < UInt64.size := by
      simp only [writeText, List.length_append] at h
      omega
    simp only [writeText, readText, List.append_assoc, readNumber_writeNumber hlen]
    simpa using fromUTF8?_toByteArray s

/-- Lists. -/
def list {α : Type} (codec : Codec α) : Codec (List α) where
  write := writeList codec.write
  read := readList codec.read
  write_ne_nil as := by simp [writeList, writeNumber_ne_nil]
  read_write as rest h := by
    refine readList_writeList as (fun a ha rest => codec.read_write a rest ?_) ?_ rest
    · exact Nat.lt_of_le_of_lt (length_write_le_writeList ha) h
    · exact Nat.lt_of_le_of_lt (length_le_writeList codec.write_ne_nil as) h

/-! ## Small types -/

/-- Truth values. -/
def bool : Codec Bool where
  write b := [if b then 1 else 0]
  read
    | 0 :: rest => some (false, rest)
    | 1 :: rest => some (true, rest)
    | _ => none
  write_ne_nil b := by simp
  read_write b rest _ := by cases b <;> rfl

/-- A value that may be absent. -/
def option {α : Type} (codec : Codec α) : Codec (Option α) where
  write
    | none => [0]
    | some a => 1 :: codec.write a
  read
    | 0 :: rest => some (none, rest)
    | 1 :: rest => (codec.read rest).map fun (a, rest) => (some a, rest)
    | _ => none
  write_ne_nil a := by cases a <;> simp
  read_write a rest h := by
    cases a with
    | none => rfl
    | some a =>
      have hlen : (codec.write a).length < UInt64.size := by
        simp only [List.length_cons] at h
        omega
      simp [codec.read_write a rest hlen]

/-- Two values one after the other. -/
def pair {α β : Type} (first : Codec α) (second : Codec β) : Codec (α × β) where
  write ab := first.write ab.1 ++ second.write ab.2
  read bytes :=
    match first.read bytes with
    | none => none
    | some (a, rest) => (second.read rest).map fun (b, rest) => ((a, b), rest)
  write_ne_nil ab := by simp [first.write_ne_nil]
  read_write ab rest h := by
    simp only [List.length_append] at h
    simp [first.read_write ab.1 _ (by omega), second.read_write ab.2 rest (by omega)]

/-- Values in another shape. -/
def via {α β : Type} (codec : Codec α) (ofShape : α → β) (toShape : β → α)
    (ofShape_toShape : ∀ b, ofShape (toShape b) = b) : Codec β where
  write b := codec.write (toShape b)
  read bytes := (codec.read bytes).map fun (a, rest) => (ofShape a, rest)
  write_ne_nil b := codec.write_ne_nil (toShape b)
  read_write b rest h := by simp [codec.read_write (toShape b) rest h, ofShape_toShape]

end Codec

/-! ## Alternatives -/

/-- Reads the number of an alternative, which has at most 32 bits. -/
def readTag : Reader Nat :=
  readNumber 4

@[simp] theorem readTag_cons {tag : UInt8} (h : tag < 251) (rest : Bytes) :
    readTag (tag :: rest) = some (tag.toNat, rest) := by
  simp [readTag, readNumber, h]

end UriRouting.Snapshot
