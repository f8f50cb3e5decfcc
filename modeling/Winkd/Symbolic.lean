import Winkd.SymbolicTerms
import Winkd.Crypto

/-!
# The symbolic platform

`crypto.ts` over symbolic terms: a byte string is its own hex text and one of its
base64 texts, a serialised payload is the payload itself, and one that does not
parse is `none`.  What `atob` refuses is no key and no ciphertext here, and is refused
for that.  The model
of the session manager runs on it, so that concrete runs can be evaluated, and it
has the properties asked of a platform (`roundTrips`, `agrees`).
-/

namespace Winkd
open Symbolic

variable {N : Type} [LinearOrder N]

/-- The platform whose byte strings are terms. -/
def symbolic (N : Type) [LinearOrder N] : Platform (Term N) (Option (WireMessage (Term N))) where
  bufToBase64 := Term.toBase64
  base64ToBuf t := some t.ofBase64
  bufToHex t := t
  hexToBuf t := t
  bytes := .lit
  concatBufs := Term.concat
  slice := Term.cut
  deriveBits := Term.dh
  hkdfBits := .hkdf
  hmacSign := .hmac
  aesEncrypt := .aes
  aesDecrypt := Term.aesOpen
  ecdsaSign := Term.sign
  ecdsaVerify := Term.verify
  stringify m := some m
  parse m := m

/-- The key pair of a name. -/
def pairOf (n : N) : ExportedKeyPair (Term N) := ⟨.pub n, .priv n⟩

theorem symbolic_roundTrips : (symbolic N).RoundTrips where
  base64 t := congrArg some (Term.ofBase64_toBase64 t)
  hex _ := rfl
  aes key iv p := by simp [symbolic, Term.aesOpen]
  wire _ := rfl

theorem symbolic_agrees :
    (symbolic N).Agrees (fun kp => ∃ n, kp = (symbolic N).toDHKeyPair (pairOf n)) := by
  rintro _ _ ⟨a, rfl⟩ ⟨b, rfl⟩
  exact ⟨Term.agree a b, rfl, congrArg some (Term.agree_comm b a)⟩

theorem symbolic_ideal :
    (symbolic N).Ideal (fun kp => ∃ n, kp = (symbolic N).toDHKeyPair (pairOf n)) where
  roundTrips := symbolic_roundTrips
  agrees := symbolic_agrees
  verifies := by
    rintro _ data signature ⟨n, rfl⟩ h
    obtain rfl : Term.sig n data.ofBase64 = signature := Option.some.inj h
    simp [Platform.verifyPreKey, symbolic, Term.verify, Platform.toDHKeyPair, pairOf, Term.toBase64,
      Term.ofBase64]

/-- What a message key opens was sealed under it. -/
theorem symbolic_aesGcmDecrypt {key ct iv : Term N} {bytes : List UInt8}
    (h : (symbolic N).aesGcmDecrypt key ct iv = some bytes) :
    ct.ofBase64 = .aes (key.cut 0 32) iv.ofBase64 bytes :=
  Term.aesOpen_eq_some h

/-- Only a private key and a public key, in whatever text, agree on a secret. -/
theorem symbolic_dh_cases {t u z : Term N} (h : (symbolic N).dh t u = some z) :
    ∃ a b, t = .priv a ∧ u.publicName = some b ∧ z = Term.agree a b := by
  obtain ⟨a, b, rfl, hb, rfl⟩ := Term.dh_cases (show Term.dh t u.ofBase64 = some z from h)
  exact ⟨a, b, rfl, Term.publicName_eq_some_iff.mpr hb, rfl⟩

theorem symbolic_dh {u : Term N} {b : N} (a : N) (h : u.publicName = some b) :
    (symbolic N).dh (.priv a) u = some (Term.agree a b) := by
  show Term.dh (.priv a) u.ofBase64 = _
  rw [Term.publicName_eq_some_iff.mp h, Term.dh_priv_pub]

end Winkd
