import WgMesh.Base64Text
import WgMesh.TextScan

namespace WgMesh.PairKeys

/-!
# WireGuard keys and what two peers share

A key is 32 bytes; texts of keys are base64.  What belongs to a pair of peers
(the preshared key, the relay pair id) is derived from the two key texts in
their order, so that it does not matter who asks.
-/

open Base64Text TextScan

/-- `wgtypes.Key`. -/
structure Key where
  bytes : List Byte
  size : bytes.length = 32
deriving DecidableEq

/-- The key with only zero bytes. -/
def zeroKey : Key where
  bytes := List.replicate 32 (byteOf 0)
  size := rfl

/-- The key with only ones. -/
def onesKey : Key where
  bytes := List.replicate 32 (byteOf 255)
  size := rfl

/-- `Key.String`. -/
def Key.text (key : Key) : String :=
  String.ofList (encode key.bytes)

/-- `wgtypes.ParseKey`; its error texts are left out. -/
def parseKey (text : String) : Option Key :=
  match decode text.toList with
  | none => none
  | some bytes =>
      if size : bytes.length = 32 then some ⟨bytes, size⟩ else none

/-- The two texts in order, as both derivations sort them. -/
def ordered (first second : String) : String × String :=
  if textLess second first then (second, first) else (first, second)

/-- `DerivePairKey`: HKDF of the master secret, keyed on the sorted pair. -/
def derivePairKey (hkdf : String → Key) (pubA pubB : String) : Key :=
  hkdf
    ("wgmesh-pair-psk:" ++ (ordered pubA pubB).1 ++ "|" ++
      (ordered pubA pubB).2)

/-- `relayPairID`: a digest of the sorted pair. -/
def relayPairID (digest : String → String) (keyA keyB : String) : String :=
  digest ((ordered keyA keyB).1 ++ "|" ++ (ordered keyA keyB).2)

theorem parseKey_text
    (key : Key) :
    parseKey key.text = some key := by
  have decoded : decode key.text.toList = some key.bytes := by
    rw [Key.text, String.toList_ofList, decode_encode]
  unfold parseKey
  rw [decoded]
  simp [key.size]

theorem trimSpace_text
    (key : Key) :
    trimSpace key.text = key.text := by
  apply trimSpace_eq_self
  intro char member
  rw [Key.text, String.toList_ofList] at member
  rcases mem_encode member with rfl | ⟨value, small, rfl⟩
  · decide
  · interval_cases value <;> decide

/-- The order of a pair does not depend on who is named first. -/
theorem ordered_comm
    (first second : String) :
    ordered first second = ordered second first := by
  unfold ordered
  cases forward : textLess first second with
  | true => rw [textLess_asymm forward, if_pos rfl, if_neg (by decide)]
  | false =>
      cases backward : textLess second first with
      | true => rfl
      | false => rw [eq_of_not_textLess forward backward]

theorem derivePairKey_comm
    (hkdf : String → Key)
    (pubA pubB : String) :
    derivePairKey hkdf pubA pubB = derivePairKey hkdf pubB pubA := by
  unfold derivePairKey
  rw [ordered_comm]

end WgMesh.PairKeys
