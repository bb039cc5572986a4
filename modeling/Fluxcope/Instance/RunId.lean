import Fluxcope.Library.Base64Url
/-!
# Run identifiers

A run has sixteen random bytes, and is named by their text.
-/

namespace Fluxcope.Instance

open Fluxcope.Library Fluxcope.Library.Utf8

def runIdBytes : Nat := 16

/-- Canonical unpadded encoding of sixteen bytes. -/
def isRunId (value : Bytes) : Bool :=
  value.length = 22 && value.all Base64Url.isSymbol &&
    match Base64Url.decode value with
    | none => false
    | some decoded => decoded.length = runIdBytes && Base64Url.encode decoded = value

structure RunId where
  asStr : Bytes
  canonical : isRunId asStr = true
  deriving DecidableEq, Repr

def RunId.generate (bytes : Bytes) (h : bytes.length = runIdBytes) : RunId where
  asStr := Base64Url.encode bytes
  canonical := by
    have hlength : (Base64Url.encode bytes).length = 22 := by
      rw [Base64Url.length_encode, h]
      rfl
    have hall : (Base64Url.encode bytes).all Base64Url.isSymbol = true :=
      List.all_eq_true.2 (Base64Url.isSymbol_of_mem_encode bytes)
    rw [isRunId, Base64Url.decode_encode, hlength, hall]
    simp [h]

def RunId.fromStr (value : Bytes) : Option RunId :=
  if h : isRunId value = true then some ⟨value, h⟩ else none

theorem RunId.fromStr_asStr (runId : RunId) : fromStr runId.asStr = some runId :=
  dif_pos runId.canonical

theorem RunId.asStr_of_fromStr {value : Bytes} {runId : RunId} (h : fromStr value = some runId) :
    runId.asStr = value := by
  unfold fromStr at h
  split at h
  · cases h
    rfl
  · cases h

theorem RunId.length_asStr (runId : RunId) : runId.asStr.length = 22 := by
  have h := runId.canonical
  simp only [isRunId, Bool.and_eq_true, decide_eq_true_eq] at h
  exact h.1.1

theorem RunId.isSymbol_of_mem (runId : RunId) :
    ∀ byte ∈ runId.asStr, Base64Url.isSymbol byte = true := by
  have h := runId.canonical
  simp only [isRunId, Bool.and_eq_true] at h
  exact List.all_eq_true.1 h.1.2

end Fluxcope.Instance
