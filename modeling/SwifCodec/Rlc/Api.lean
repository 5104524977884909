import SwifCodec.CodingCoefficients

/-!
What the encoder and the decoder of `swif_rlc_api.c` share: the status codes and
the body of `generate_coding_coefs`.
-/

namespace SwifCodec

open Library

/-- `swif_status_t`. -/
inductive SwifStatus where
  | ok
  | failure
  | error
  deriving DecidableEq, Repr

/-- `INVALID_ESI`. -/
def invalidEsi : Nat := 0xFFFFFFFF

/-- `a % b` on `uint32_t`. -/
def mod32 (a b : Nat) : Exec Nat := if b = 0 then .error .divisionByZero else .ok (a % b)

theorem mod32_of_pos {a b : Nat} (h : 0 < b) : mod32 a b = .ok (a % b) := if_neg (by omega)

/-- `generate_coding_coefs` on an allocated table: the key and the number of
coefficients are cast to `uint16_t`, the return code is not looked at. -/
def generateCodingCoefs (table : Buffer) (tab : List Gf256) (nb maxCodingWindowSize key dt : Nat) :
    Exec (List Gf256) := do
  cAssert (nb ≤ maxCodingWindowSize)
  let (tab, _) ← swifRlcGenerateCodingCoefficients table (key % 65536) tab (nb % 65536) dt 8
  return tab

section Generate

variable {table : Buffer} {tab : List Gf256} {nb limit key dt : ℕ}

theorem generateCodingCoefs_assertion (exceeds : limit < nb) :
    generateCodingCoefs table tab nb limit key dt = .error .assertion := by
  unfold generateCodingCoefs
  rw [cAssert_of_not (by omega), error_bind]

/-- Generation in a table that is long enough. -/
theorem generateCodingCoefs_spec (le : nb ≤ limit) (density : dt ≤ 15)
    (fits : nb % 65536 ≤ tab.length) :
    ∃ cs, codingCoefficients (key % 65536) (nb % 65536) dt = some cs ∧
      generateCodingCoefs table tab nb limit key dt = .ok (cs ++ tab.drop (nb % 65536)) := by
  obtain ⟨cs, drawn, generate_eq⟩ := swifRlcGenerateCodingCoefficients_spec density fits
  refine ⟨cs, drawn, ?_⟩
  unfold generateCodingCoefs
  rw [cAssert_of (by simpa using le), ok_bind, generate_eq]
  rfl

/-- Generation in a table that is too short overruns it. -/
theorem generateCodingCoefs_short (le : nb ≤ limit) (density : dt ≤ 15)
    (short : tab.length < nb % 65536) :
    generateCodingCoefs table tab nb limit key dt = .error (.outOfBounds table) := by
  unfold generateCodingCoefs
  rw [cAssert_of (by simpa using le), ok_bind,
    swifRlcGenerateCodingCoefficients_short density short]
  rfl

theorem generateCodingCoefs_refused (le : nb ≤ limit) (density : 15 < dt) :
    generateCodingCoefs table tab nb limit key dt = .ok tab := by
  unfold generateCodingCoefs
  rw [cAssert_of (by simpa using le), ok_bind, swifRlcGenerateCodingCoefficients_refused density]
  rfl

/-- A table keeps its length. -/
theorem length_generateCodingCoefs {tab' : List Gf256}
    (ok : generateCodingCoefs table tab nb limit key dt = .ok tab') : tab'.length = tab.length := by
  by_cases le : nb ≤ limit
  · rcases Nat.lt_or_ge 15 dt with refused | density
    · rw [generateCodingCoefs_refused le refused] at ok
      cases ok
      rfl
    · by_cases fits : nb % 65536 ≤ tab.length
      · obtain ⟨cs, drawn, generate_eq⟩ := generateCodingCoefs_spec le density fits
        rw [generate_eq] at ok
        cases ok
        rw [List.length_append, length_codingCoefficients drawn, List.length_drop]
        omega
      · rw [generateCodingCoefs_short le density (by omega)] at ok
        cases ok
  · rw [generateCodingCoefs_assertion (by omega)] at ok
    cases ok

end Generate

end SwifCodec
