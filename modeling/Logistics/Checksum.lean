import Mathlib.Data.Nat.Digits.Defs
import Logistics.Deserialize

namespace Logistics.Checksum

open JsonManager Deserialize List

def storeField (size : Nat) (src : List UInt8) : List UInt8 :=
  src.take (size - 1) ++ replicate (size - (src.take (size - 1)).length) 0

def cString (field : List UInt8) : List UInt8 := field.takeWhile fun b => b ≠ 0

def upperHex (n : Nat) : List Char := (Nat.toDigits 16 n).map Char.toUpper

def snprintf (size : Nat) (text : List Char) : List Char := text.take (size - 1)

def hashBytes (hash : UInt64) (bytes : List UInt8) : UInt64 :=
  bytes.foldl (fun hash b => ((hash <<< 5) + hash) + b.toUInt64) hash

def generateChecksum (msgType sourceId : List UInt8) : List Char :=
  let hash := hashBytes (hashBytes 5381 (cString msgType)) (cString sourceId)
  snprintf checksumSize (upperHex (hash &&& 0xFFFFFF).toNat)

def hashInput (hash : UInt32) (input : List UInt8) : UInt32 :=
  input.foldl (fun hash b => (hash <<< 5) + hash + b.toUInt32) hash

def computeChecksum (msgType sourceId : List UInt8) : List Char :=
  upperHex (hashInput 5381 (msgType ++ sourceId) &&& 0xFFFFFF).toNat

def djb2 (hash : Nat) (bytes : List UInt8) : Nat := bytes.foldl (fun hash b => 33 * hash + b.toNat) hash

theorem djb2_mod (m hash : Nat) (bytes : List UInt8) : djb2 (hash % m) bytes % m = djb2 hash bytes % m := by
  induction bytes generalizing hash with
  | nil => exact Nat.mod_mod _ _
  | cons b bytes ih =>
    calc djb2 (hash % m) (b :: bytes) % m = djb2 ((33 * (hash % m) + b.toNat) % m) bytes % m := (ih _).symm
      _ = djb2 ((33 * hash + b.toNat) % m) bytes % m := by
        rw [Nat.add_mod, Nat.mul_mod, Nat.mod_mod, ← Nat.mul_mod, ← Nat.add_mod]
      _ = djb2 hash (b :: bytes) % m := ih _

theorem toNat_hashStep (hash : UInt64) (b : UInt8) :
    (((hash <<< 5) + hash) + b.toUInt64).toNat = (33 * hash.toNat + b.toNat) % 2 ^ 64 := by
  have hshift : (5 : UInt64).toNat % 64 = 5 := by decide
  simp only [UInt64.toNat_add, UInt64.toNat_shiftLeft, hshift, Nat.shiftLeft_eq, UInt8.toNat_toUInt64]
  omega

theorem toNat_hashBytes (hash : UInt64) (bytes : List UInt8) :
    (hashBytes hash bytes).toNat = djb2 hash.toNat bytes % 2 ^ 64 := by
  induction bytes generalizing hash with
  | nil => exact (Nat.mod_eq_of_lt hash.toNat_lt).symm
  | cons b bytes ih =>
    rw [hashBytes, foldl_cons, ← hashBytes, ih, toNat_hashStep, djb2_mod]
    rfl

theorem toNat_hashInput (hash : UInt32) (input : List UInt8) :
    (hashInput hash input).toNat = djb2 hash.toNat input % 2 ^ 32 := by
  induction input generalizing hash with
  | nil => exact (Nat.mod_eq_of_lt hash.toNat_lt).symm
  | cons b input ih =>
    have hstep : ((hash <<< 5) + hash + b.toUInt32).toNat = (33 * hash.toNat + b.toNat) % 2 ^ 32 := by
      have hshift : (5 : UInt32).toNat % 32 = 5 := by decide
      simp only [UInt32.toNat_add, UInt32.toNat_shiftLeft, hshift, Nat.shiftLeft_eq, UInt8.toNat_toUInt32]
      omega
    rw [hashInput, foldl_cons, ← hashInput, ih, hstep, djb2_mod]
    rfl

theorem djb2_append (hash : Nat) (bytes bytes' : List UInt8) :
    djb2 hash (bytes ++ bytes') = djb2 (djb2 hash bytes) bytes' := foldl_append

theorem masked_hashBytes (bytes bytes' : List UInt8) :
    (hashBytes (hashBytes 5381 bytes) bytes' &&& 0xFFFFFF).toNat = djb2 5381 (bytes ++ bytes') % 2 ^ 24 := by
  have hmask : (0xFFFFFF : UInt64).toNat = 2 ^ 24 - 1 := by decide
  rw [UInt64.toNat_and, hmask, Nat.and_two_pow_sub_one_eq_mod, toNat_hashBytes, toNat_hashBytes, djb2_mod,
    ← djb2_append, Nat.mod_mod_of_dvd _ (by decide)]
  rfl

theorem masked_hashInput (input : List UInt8) :
    (hashInput 5381 input &&& 0xFFFFFF).toNat = djb2 5381 input % 2 ^ 24 := by
  have hmask : (0xFFFFFF : UInt32).toNat = 2 ^ 24 - 1 := by decide
  rw [UInt32.toNat_and, hmask, Nat.and_two_pow_sub_one_eq_mod, toNat_hashInput, Nat.mod_mod_of_dvd _ (by decide)]
  rfl

theorem length_upperHex {n : Nat} (h : n < 16 ^ 6) : (upperHex n).length ≤ 6 := by
  rw [upperHex, length_map]
  exact Nat.toDigits_length 16 n 6 (by decide) h

variable {src : List UInt8}

theorem cString_storeField_eq_take (size : Nat) (hnul : 0 ∉ src) :
    cString (storeField size src) = src.take (size - 1) := by
  rw [storeField, cString, takeWhile_append_of_pos]
  · simp
  · intro b hb
    have hne : b ≠ 0 := fun h => hnul (h ▸ mem_of_mem_take hb)
    simpa using hne

theorem cString_storeField {size : Nat} (hlen : src.length < size) (hnul : 0 ∉ src) :
    cString (storeField size src) = src := by
  rw [cString_storeField_eq_take size hnul, take_of_length_le (by omega)]

theorem djb2_toNat (hash : UInt64) (text : String) :
    JsonManager.djb2 hash.toNat text = (hashBytes hash text.toUTF8.toList).toNat := by
  rw [JsonManager.djb2]
  induction text.toUTF8.toList generalizing hash with
  | nil => rfl
  | cons b bytes ih =>
    have hstep : (hash.toNat <<< 5 + hash.toNat + b.toNat) % 2 ^ 64 =
        (((hash <<< 5) + hash) + b.toUInt64).toNat := by
      rw [toNat_hashStep]
      omega
    rw [foldl_cons, hstep, ih]
    rfl

theorem generateChecksum_eq (msgType : MsgType) (sourceId : String) :
    JsonManager.generateChecksum msgType sourceId = String.ofList (snprintf checksumSize (upperHex
        (hashBytes (hashBytes 5381 msgType.text.toUTF8.toList) sourceId.toUTF8.toList &&& 0xFFFFFF).toNat)) := by
  have hhash : JsonManager.djb2 (JsonManager.djb2 5381 msgType.text) sourceId =
      (hashBytes (hashBytes 5381 msgType.text.toUTF8.toList) sourceId.toUTF8.toList).toNat := by
    have hseed : (5381 : Nat) = (5381 : UInt64).toNat := by decide
    rw [hseed, djb2_toNat, djb2_toNat]
  rw [JsonManager.generateChecksum, hhash, safeStrcpy, String.toList_ofList]
  rfl

/-- The checksums of the two languages agree on all bytes and fit into their field. -/
theorem checksums_agree (msgType sourceId : List UInt8) (htype : msgType.length < messageTypeSize)
    (htype' : 0 ∉ msgType) (hid : sourceId.length < idSize) (hid' : 0 ∉ sourceId) :
    generateChecksum (storeField messageTypeSize msgType) (storeField idSize sourceId) =
        computeChecksum msgType sourceId ∧ (computeChecksum msgType sourceId).length + 1 ≤ checksumSize := by
  have hlen : (upperHex (djb2 5381 (msgType ++ sourceId) % 2 ^ 24)).length ≤ 6 :=
    length_upperHex (Nat.mod_lt _ (by decide))
  rw [generateChecksum, computeChecksum, cString_storeField htype htype', cString_storeField hid hid',
    masked_hashBytes, masked_hashInput]
  exact ⟨take_of_length_le (hlen.trans (by decide)), Nat.succ_le_succ hlen |>.trans (by decide)⟩

theorem checksum_of_high_bytes :
    generateChecksum (storeField messageTypeSize [65, 200]) (storeField idSize [255]) = computeChecksum [65, 200] [255] :=
  (checksums_agree [65, 200] [255] (by decide) (by decide) (by decide) (by decide)).1

end Logistics.Checksum
