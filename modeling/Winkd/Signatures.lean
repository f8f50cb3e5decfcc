import Winkd.Deliveries
import Winkd.Hex

/-!
# The signature of a delivery

`verify_signature` takes the digits from the header, decodes them and compares the bytes with those of
the HMAC.  The comparison runs over all bytes and collects the bits in which they differ; so none is
left at the end just if the slices are the same (`ctEq_iff`).
-/

namespace Winkd.Server

/-! ## The comparison -/

/-- No bit is collected just if there was none before and the slices agree as far as both go. -/
theorem foldl_diff_eq_zero_iff (pairs : List (UInt8 × UInt8)) (diff : UInt8) :
    pairs.foldl (fun diff p => diff ||| (p.1 ^^^ p.2)) diff = 0 ↔
      diff = 0 ∧ ∀ p ∈ pairs, p.1 = p.2 := by
  induction pairs generalizing diff with
  | nil => simp
  | cons p pairs ih =>
    rw [List.foldl_cons, ih, UInt8.or_eq_zero_iff, UInt8.xor_eq_zero_iff, List.forall_mem_cons, and_assoc]

/-- Slices of one length that agree everywhere are the same. -/
theorem forall_mem_zip_iff {x y : List UInt8} (h : x.length = y.length) :
    (∀ p ∈ x.zip y, p.1 = p.2) ↔ x = y := by
  induction x generalizing y with
  | nil => cases y <;> simp_all
  | cons a x ih =>
    cases y with
    | nil => cases h
    | cons b y => rw [List.zip_cons_cons, List.forall_mem_cons, ih (Nat.succ.inj h), List.cons.injEq]

/-- **`ct_eq` is equality.** -/
theorem ctEq_iff (x y : List UInt8) : ctEq x y = true ↔ x = y := by
  unfold ctEq
  split
  · rename_i hlength
    exact iff_of_false Bool.false_ne_true fun h => hlength (congrArg List.length h)
  · rename_i hlength
    rw [beq_iff_eq, foldl_diff_eq_zero_iff, and_iff_right rfl, forall_mem_zip_iff (not_not.1 hlength)]

/-! ## The header -/

/-- `hex::decode`. -/
def StandardHex (C : BmacCrates) : Prop := ∀ t, C.hexDecode t = Hex.decode t

/-- `digits` is what the header has after `sha256=`, however often that stands there. -/
def Stripped (header digits : Text) : Prop :=
  ∃ n, header = (List.replicate n "sha256=".toList).flatten ++ digits ∧ ¬ "sha256=".toList <+: digits

/-- **A signature is accepted just if it is the HMAC in hexadecimal**, in letters of any case. -/
theorem verifySignature_iff {C : BmacCrates} (hhex : StandardHex C) :
    (∀ x y, ctEq x y = true ↔ x = y) ∧
      ∀ (secret body : List UInt8) (header : Text), verifySignature C secret body header = true ↔
        ∃ digits, Stripped header digits ∧
          digits.map Char.toLower = Hex.encode (C.hmacSha256 secret body) := by
  refine ⟨ctEq_iff, fun secret body header => ?_⟩
  have hstrip : ∀ digits, Stripped header digits ↔
      Text.trimStartMatches "sha256=".toList header = digits :=
    fun digits => (Text.trimStartMatches_eq_iff (by decide)).symm
  simp only [hstrip, exists_eq_left']
  rw [← Hex.decode_eq_some_iff, ← hhex, verifySignature]
  cases C.hexDecode (Text.trimStartMatches "sha256=".toList header) with
  | none => exact iff_of_false Bool.false_ne_true nofun
  | some provided => exact (ctEq_iff _ _).trans (eq_comm.trans Option.some_inj.symm)

namespace Deliveries.Sample

def hexCrates : BmacCrates := { crates with hexDecode := Hex.decode }

end Deliveries.Sample

set_option maxRecDepth 8000 in
/-- The MAC of an event in upper case, after two prefixes. -/
theorem verifySignature_upper :
    verifySignature Deliveries.Sample.hexCrates (Text.asBytes "secret".toList) Deliveries.Sample.started.body
      ("sha256=sha256=".toList ++ Deliveries.Sample.started.mac.toList.map Char.toUpper) = true := by
  refine ((verifySignature_iff fun _ => rfl).2 _ _ _).2
    ⟨Deliveries.Sample.started.mac.toList.map Char.toUpper, ⟨2, rfl, by decide⟩, by decide⟩

end Winkd.Server
