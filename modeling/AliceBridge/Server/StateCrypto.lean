import AliceBridge.Lib.Bytes
import AliceBridge.Lib.JsonText

/-! # Encryption of the stored texts

`state_crypto.rs`: the key is read from hexadecimal text, a payload is sealed
under a nonce drawn for it and opened only under the key version it names. The
cipher itself is a parameter; what is used of it is that a text sealed under a
key and a nonce is what opens under them (`Aead.Lawful`). -/
namespace AliceBridge.Server.StateCrypto
open AliceBridge.Lib.Utf8 AliceBridge.Lib.Bytes AliceBridge.Lib.JsonText

def nonceBytes : Nat := 12
def keyBytes : Nat := 32
def currentKeyVersion : Int := 1

/-- Bytes of a fixed number. -/
structure Sized (n : Nat) where
  bytes : Bytes
  length_eq : bytes.length = n
deriving DecidableEq

abbrev Key := Sized keyBytes
abbrev Nonce := Sized nonceBytes

/-- ChaCha20-Poly1305 without associated data: a text too long is not encrypted, one
that fails authentication is not decrypted. -/
structure Aead where
  encrypt : Key → Nonce → Bytes → Option Bytes
  decrypt : Key → Nonce → Bytes → Option Bytes

structure Aead.Lawful (aead : Aead) : Prop where
  decrypt_encrypt : ∀ {key nonce plaintext ciphertext},
    aead.encrypt key nonce plaintext = some ciphertext →
      aead.decrypt key nonce ciphertext = some plaintext

inductive CryptoError where
  | invalidKey
  | unsupportedKeyVersion
  | invalidNonce
  | authentication
deriving DecidableEq, Repr

structure EncryptedPayload where
  nonce : Bytes
  ciphertext : Bytes
  keyVersion : Int
deriving DecidableEq

structure StateCipher where
  key : Key
  keyVersion : Int
deriving DecidableEq

/-! ## The key -/

/-- `hex::decode`: two digits a byte. -/
def hexBytes : Text → Option Bytes
  | [] => some []
  | [_] => none
  | high :: low :: rest => do
    let h ← hexValue high
    let l ← hexValue low
    let bytes ← hexBytes rest
    some (UInt8.ofNat (16 * h + l) :: bytes)

/-- The lower case digits of the bytes. -/
def hexText (bytes : Bytes) : Text :=
  bytes.flatMap fun byte => [hexDigit (byte.toNat / 16), hexDigit (byte.toNat % 16)]

def StateCipher.fromHex (value : Text) : Except CryptoError StateCipher :=
  if byteLen value ≠ keyBytes * 2 then .error .invalidKey
  else
    match hexBytes value with
    | none => .error .invalidKey
    | some bytes =>
      if h : bytes.length = keyBytes then .ok ⟨⟨bytes, h⟩, currentKeyVersion⟩
      else .error .invalidKey

theorem hexValue_hexDigit : ∀ n : Fin 16, hexValue (hexDigit n.val) = some n.val ∧
    (hexDigit n.val).utf8Size = 1 := by
  decide

theorem hexBytes_hexText (bytes : Bytes) :
    hexBytes (hexText bytes) = some bytes ∧ byteLen (hexText bytes) = 2 * bytes.length := by
  induction bytes with
  | nil => exact ⟨rfl, rfl⟩
  | cons byte bytes ih =>
    have hlt := byte.toNat_lt
    obtain ⟨hhigh, hhighSize⟩ := hexValue_hexDigit ⟨byte.toNat / 16, by omega⟩
    obtain ⟨hlow, hlowSize⟩ := hexValue_hexDigit ⟨byte.toNat % 16, by omega⟩
    have hbyte : 16 * (byte.toNat / 16) + byte.toNat % 16 = byte.toNat := by omega
    simp only at hhigh hhighSize hlow hlowSize
    constructor
    · simp only [hexText, List.flatMap_cons, List.cons_append, List.nil_append] at ih ⊢
      simp only [hexBytes, hhigh, hlow, ih.1, Option.bind_eq_bind, Option.bind_some, hbyte,
        UInt8.ofNat_toNat]
    · simp only [hexText, List.flatMap_cons, List.cons_append, List.nil_append, byteLen_cons,
        hhighSize, hlowSize, List.length_cons] at ih ⊢
      omega

/-- Every key has a text that gives it. -/
theorem fromHex_hexText (key : Key) :
    StateCipher.fromHex (hexText key.bytes) = .ok ⟨key, currentKeyVersion⟩ := by
  obtain ⟨hbytes, hlen⟩ := hexBytes_hexText key.bytes
  have hkey := key.length_eq
  rw [StateCipher.fromHex, if_neg (by omega), hbytes]
  simp only [hkey, dif_pos]

/-! ## Sealing and opening -/

section
variable (aead : Aead)

def StateCipher.seal (cipher : StateCipher) (nonce : Nonce) (plaintext : Bytes) :
    Except CryptoError EncryptedPayload :=
  match aead.encrypt cipher.key nonce plaintext with
  | some ciphertext => .ok ⟨nonce.bytes, ciphertext, cipher.keyVersion⟩
  | none => .error .authentication

def StateCipher.open (cipher : StateCipher) (payload : EncryptedPayload) :
    Except CryptoError Bytes :=
  if payload.keyVersion ≠ cipher.keyVersion then .error .unsupportedKeyVersion
  else if h : payload.nonce.length = nonceBytes then
    match aead.decrypt cipher.key ⟨payload.nonce, h⟩ payload.ciphertext with
    | some plaintext => .ok plaintext
    | none => .error .authentication
  else .error .invalidNonce

end

theorem StateCipher.open_seal {aead : Aead} (hlawful : aead.Lawful) {cipher : StateCipher}
    {nonce : Nonce} {plaintext : Bytes} {payload : EncryptedPayload}
    (h : cipher.seal aead nonce plaintext = .ok payload) :
    cipher.open aead payload = .ok plaintext := by
  unfold StateCipher.seal at h
  split at h
  next ciphertext hencrypt =>
    obtain rfl := Except.ok.inj h
    have hdecrypt := hlawful.decrypt_encrypt hencrypt
    simp [StateCipher.open, nonce.length_eq, hdecrypt]
  next => cases h

end AliceBridge.Server.StateCrypto
