import Mathlib
import MyOriShop.Lib.Text
import MyOriShop.Lib.Lines
import MyOriShop.Lib.Fallible

/-!
# Minisign: the signature of a release (`app/services/minisign_verify.py`)

* `b64decode` is `base64.b64decode` without validation: what is not in the alphabet is skipped, and
  a complete padding ends the text.
* `parsePubkey` and `parseSignature` cut the two envelopes; `verifyMinisign` is `verify_minisign`,
  which answers `False` where anything raises.
* `Crypto` is the arithmetic: Ed25519, BLAKE2b and SHA-256 are taken as functions.

Results:
* `verifyMinisign_iff`: it answers `True` exactly if both envelopes decode, their key ids agree and
  Ed25519 accepts the signature over the message, prehashed if the envelope says so.
-/

namespace MyOriShop

open Lib.Text Lib.Lines Lib.Fallible

/-- What a call may raise. `interrupt` is what `except Exception` lets pass. -/
inductive Raised where
  | error (text : String)
  /-- `UpdateVerificationError`. -/
  | verification
  | interrupt
  deriving DecidableEq

/-- `try: r  except Exception: return fallback`. -/
def caught {α : Type} (fallback : α) : Except Raised α → Except Raised α
  | .ok a => .ok a
  | .error .interrupt => .error .interrupt
  | .error _ => .ok fallback

theorem caught_ok_iff {α : Type} {fallback a : α} {r : Except Raised α} (h : a ≠ fallback) :
    caught fallback r = .ok a ↔ r = .ok a := by
  rcases r with (text | _ | _) | b
  case ok => exact Iff.rfl
  all_goals
    constructor
    · intro hr
      cases hr <;> exact absurd rfl h
    · intro hr
      cases hr

abbrev Bytes := ByteArray

/-- `bytes.decode("utf-8")`. -/
def decodeUtf8 (bytes : Bytes) : Except Raised String :=
  match String.fromUTF8? bytes with
  | some text => .ok text
  | none => .error (.error "UnicodeDecodeError")

/-! ## Base64 -/

/-- The six bits of a character of the alphabet. -/
def b64Value (c : Char) : Option Nat :=
  let n := c.toNat
  if 65 ≤ n ∧ n ≤ 90 then some (n - 65)
  else if 97 ≤ n ∧ n ≤ 122 then some (n - 71)
  else if 48 ≤ n ∧ n ≤ 57 then some (n + 4)
  else if c = '+' then some 62
  else if c = '/' then some 63
  else none

/-- The decoder at character `quad` of a group of four, with the bits `left` of the group not yet put
out and `pads` padding characters seen in a row. -/
def a2bBase64 (quad left pads : Nat) : List Char → Option (List UInt8)
  | [] => if quad = 0 then some [] else none
  | c :: cs =>
    if c = '=' then
      if 2 ≤ quad ∧ 4 ≤ quad + (pads + 1) then some []
      else a2bBase64 quad left (if 2 ≤ quad then pads + 1 else pads) cs
    else match b64Value c with
      | none => a2bBase64 quad left pads cs
      | some v =>
        match quad with
        | 0 => a2bBase64 1 v 0 cs
        | 1 => (a2bBase64 2 (v % 16) 0 cs).map (UInt8.ofNat (left * 4 + v / 16) :: ·)
        | 2 => (a2bBase64 3 (v % 4) 0 cs).map (UInt8.ofNat (left * 16 + v / 4) :: ·)
        | _ => (a2bBase64 0 0 0 cs).map (UInt8.ofNat (left * 64 + v) :: ·)

/-- `base64.b64decode(text)`. -/
def b64decode (text : String) : Except Raised Bytes :=
  if text.toList.all fun c => c.toNat < 128 then
    match a2bBase64 0 0 0 text.toList with
    | some bytes => .ok ⟨bytes.toArray⟩
    | none => .error (.error "binascii.Error")
  else .error (.error "ValueError")

/-! ## The two envelopes -/

/-- Ed25519, BLAKE2b-512 and the SHA-256 hex digest. -/
structure Crypto where
  /-- `Ed25519PublicKey.from_public_bytes(pk).verify(signature, message)`. -/
  ed25519 : (pk signature message : Bytes) → Except Raised Unit
  blake2b : Bytes → Bytes
  sha256 : Bytes → String

/-- `[ln for ln in text.splitlines() if ln.strip()]`. -/
def filledLines (text : String) : List String := (splitlines text).filter fun ln => !isBlank ln

/-- The decoded public key line: `alg[2] || key_id[8] || pubkey[32]`. -/
structure Pubkey where
  keyId : Bytes
  pk : Bytes

/-- `_parse_pubkey`. -/
def parsePubkey (text : String) : Except Raised Pubkey :=
  match (filledLines text).getLast? with
  | none => .error (.error "IndexError")
  | some keyLine => do
    let raw ← b64decode keyLine
    if raw.extract 0 2 = "Ed".toByteArray then
      return { keyId := raw.extract 2 10, pk := raw.extract 10 42 }
    else .error (.error "AssertionError")

/-- The decoded signature line: `alg[2] || key_id[8] || signature[64]`. -/
structure Signature where
  alg : Bytes
  keyId : Bytes
  signature : Bytes

/-- The second line of a `.minisig` file. -/
def parseSignature (text : String) : Except Raised Signature :=
  match (filledLines text)[1]? with
  | none => .error (.error "IndexError")
  | some line => do
    let raw ← b64decode line
    return { alg := raw.extract 0 2, keyId := raw.extract 2 10, signature := raw.extract 10 74 }

/-- What was signed: the message, or its digest in the prehashed mode. -/
def Signature.message (crypto : Crypto) (s : Signature) (manifest : Bytes) : Bytes :=
  if s.alg = "ED".toByteArray then crypto.blake2b manifest else manifest

/-- `verify_minisign`. -/
def verifyMinisign (crypto : Crypto) (manifest : Bytes) (sigText pubkeyText : String) :
    Except Raised Bool :=
  caught false do
    let key ← parsePubkey pubkeyText
    let sig ← parseSignature sigText
    if sig.keyId ≠ key.keyId then return false
    crypto.ed25519 key.pk sig.signature (sig.message crypto manifest)
    return true

/-! ## What an accepted signature says -/

/-- The manifest is signed under the key, and the signature names that key. -/
def Signed (crypto : Crypto) (manifest : Bytes) (sigText pubkeyText : String) : Prop :=
  ∃ key sig, parsePubkey pubkeyText = .ok key ∧ parseSignature sigText = .ok sig ∧
    sig.keyId = key.keyId ∧
    crypto.ed25519 key.pk sig.signature (sig.message crypto manifest) = .ok ()

theorem verifyMinisign_iff {crypto : Crypto} {manifest : Bytes} {sigText pubkeyText : String} :
    verifyMinisign crypto manifest sigText pubkeyText = .ok true ↔
      Signed crypto manifest sigText pubkeyText := by
  rw [verifyMinisign, caught_ok_iff (by decide), Signed, bind_ok_iff]
  refine exists_congr fun key => ?_
  rw [bind_ok_iff]
  constructor
  · rintro ⟨hkey, sig, hsig, h⟩
    split_ifs at h with hid
    · cases h
    · obtain ⟨⟨⟩, hverify, -⟩ := bind_ok_iff.mp h
      exact ⟨sig, hkey, hsig, not_not.mp hid, hverify⟩
  · rintro ⟨sig, hkey, hsig, hid, hverify⟩
    refine ⟨hkey, sig, hsig, ?_⟩
    rw [if_neg (not_not.mpr hid), hverify]
    rfl

end MyOriShop
