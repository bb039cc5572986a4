import Fluxcope.Library.Kmp
import Fluxcope.Logging.FormatRecord
/-!
# The log panel

The panel keeps the latest records within two bounds.  Its text is extended as long as no
record goes, and built anew when it is asked for after one has gone.
-/

namespace Fluxcope.Logging

open Fluxcope.Library Fluxcope.Library.Utf8

structure LogRetentionPolicy where
  maxRecords : Nat := 5000
  maxBytes : Nat := 4 * 1024 * 1024

structure LogPanel where
  logs : List Bytes
  retainedBytes : Nat
  retention : LogRetentionPolicy
  renderedText : Bytes
  renderedTextDirty : Bool
  revision : UInt64

namespace LogPanel

def withRetention (retention : LogRetentionPolicy) : LogPanel where
  logs := []
  retainedBytes := 0
  retention
  renderedText := []
  renderedTextDirty := false
  revision := 0

/-- The records that stay, and their bytes. -/
def evict (retention : LogRetentionPolicy) : List Bytes → Nat → List Bytes × Nat
  | [], bytes => ([], bytes)
  | record :: logs, bytes =>
    if logs.length + 1 > retention.maxRecords ∨ bytes > retention.maxBytes then
      evict retention logs (bytes - record.length)
    else (record :: logs, bytes)

def addLog (panel : LogPanel) (record : Bytes) : LogPanel :=
  let added := panel.logs ++ [record]
  let (logs, retainedBytes) :=
    evict panel.retention added (panel.retainedBytes + record.length)
  let panel := { panel with logs, retainedBytes, revision := panel.revision + 1 }
  if logs.length < added.length then { panel with renderedTextDirty := true }
  else if panel.renderedTextDirty then panel
  else
    let separator := if panel.renderedText.isEmpty then [] else ofAscii "\n"
    { panel with renderedText := panel.renderedText ++ separator ++ logs.getLast?.getD [] }

def rebuildRenderedText (logs : List Bytes) : Bytes := (ofAscii "\n").intercalate logs

def renderText (panel : LogPanel) : LogPanel × Bytes :=
  if panel.renderedTextDirty then
    let rendered := rebuildRenderedText panel.logs
    ({ panel with renderedText := rendered, renderedTextDirty := false }, rendered)
  else (panel, panel.renderedText)

theorem retention_addLog (panel : LogPanel) (record : Bytes) :
    (panel.addLog record).retention = panel.retention := by
  unfold addLog
  dsimp only
  split
  · rfl
  · split <;> rfl

theorem retention_renderText (panel : LogPanel) :
    panel.renderText.1.retention = panel.retention := by
  unfold renderText
  split <;> rfl

/-! ## What is kept -/

/-- The records are few and short enough. -/
def Fits (retention : LogRetentionPolicy) (logs : List Bytes) : Prop :=
  logs.length ≤ retention.maxRecords ∧ logs.flatten.length ≤ retention.maxBytes

/-- No longer end of the history fits. -/
structure LatestOf (retention : LogRetentionPolicy) (history logs : List Bytes) : Prop where
  suffix : logs <:+ history
  fits : Fits retention logs
  latest : ∀ more, more <:+ history → Fits retention more → more.length ≤ logs.length

variable {retention : LogRetentionPolicy} {history logs : List Bytes} {record : Bytes}

theorem Fits.of_append {more : List Bytes} (h : Fits retention (logs ++ more)) :
    Fits retention logs := by
  obtain ⟨hcount, hbytes⟩ := h
  rw [List.length_append] at hcount
  rw [List.flatten_append, List.length_append] at hbytes
  exact ⟨by omega, by omega⟩

theorem evict_latest (retention : LogRetentionPolicy) (logs : List Bytes) :
    LatestOf retention logs (evict retention logs logs.flatten.length).1 ∧
      (evict retention logs logs.flatten.length).2 =
        (evict retention logs logs.flatten.length).1.flatten.length := by
  induction logs with
  | nil =>
    refine ⟨⟨List.suffix_refl _, ⟨Nat.zero_le _, Nat.zero_le _⟩, fun more hmore _ => ?_⟩, rfl⟩
    exact hmore.length_le
  | cons record logs ih =>
    obtain ⟨⟨hsuffix, hfits, hlatest⟩, hbytes⟩ := ih
    have hrest : (record :: logs).flatten.length - record.length = logs.flatten.length := by
      rw [List.flatten_cons, List.length_append]
      omega
    unfold evict
    split
    · rename_i hover
      rw [hrest]
      refine ⟨⟨hsuffix.trans (List.suffix_cons record logs), hfits, fun more hmore hmoreFits => ?_⟩,
        hbytes⟩
      rcases List.suffix_cons_iff.1 hmore with rfl | hmore
      · obtain ⟨hcount, hsize⟩ := hmoreFits
        rw [List.length_cons] at hcount
        omega
      · exact hlatest more hmore hmoreFits
    · rename_i hfit
      rw [not_or] at hfit
      refine ⟨⟨List.suffix_refl _, ⟨?_, Nat.le_of_not_lt hfit.2⟩, fun more hmore _ => ?_⟩, rfl⟩
      · rw [List.length_cons]
        omega
      · exact hmore.length_le

/-- Of a longer history the latest records are the latest of those and of what is new. -/
theorem LatestOf.snoc (h : LatestOf retention history logs) (record : Bytes) {next : List Bytes}
    (hnext : LatestOf retention (logs ++ [record]) next) :
    LatestOf retention (history ++ [record]) next := by
  have hkept : logs ++ [record] <:+ history ++ [record] :=
    Kmp.append_singleton_suffix_iff.2 ⟨rfl, h.suffix⟩
  refine ⟨hnext.suffix.trans hkept, hnext.fits, fun more hmore hfits => ?_⟩
  refine hnext.latest more ?_ hfits
  -- what stands in front of the new record fits, so it is among what was kept
  rcases List.eq_nil_or_concat more with rfl | ⟨init, last, rfl⟩
  · exact List.nil_suffix
  · rw [List.concat_eq_append] at hmore hfits ⊢
    obtain ⟨rfl, hinit⟩ := Kmp.append_singleton_suffix_iff.1 hmore
    have hle := h.latest init hinit hfits.of_append
    exact Kmp.append_singleton_suffix_iff.2
      ⟨rfl, List.suffix_of_suffix_length_le hinit h.suffix hle⟩

/-! ## What is shown -/

theorem rebuildRenderedText_snoc (h : logs ≠ []) (record : Bytes) :
    rebuildRenderedText (logs ++ [record]) = rebuildRenderedText logs ++ ofAscii "\n" ++ record := by
  induction logs with
  | nil => exact absurd rfl h
  | cons first logs ih =>
    cases logs with
    | nil => simp [rebuildRenderedText, List.intercalate]
    | cons second logs =>
      have hrest := ih (List.cons_ne_nil second logs)
      simp only [rebuildRenderedText, List.intercalate, List.cons_append, List.intersperse_cons_cons,
        List.flatten_cons, List.append_assoc] at hrest ⊢
      rw [hrest]

theorem rebuildRenderedText_eq_nil_iff (h : ∀ record ∈ logs, record ≠ []) :
    rebuildRenderedText logs = [] ↔ logs = [] := by
  cases logs with
  | nil => simp [rebuildRenderedText, List.intercalate]
  | cons first logs =>
    have hfirst := h first List.mem_cons_self
    cases logs with
    | nil => simpa [rebuildRenderedText, List.intercalate] using hfirst
    | cons second logs => simp [rebuildRenderedText, List.intercalate, hfirst]

/-- The panel keeps the latest records of its history, and its text, unless it is to be
built anew, is made of them. -/
structure Shows (panel : LogPanel) (history : List Bytes) : Prop where
  latest : LatestOf panel.retention history panel.logs
  bytes : panel.retainedBytes = panel.logs.flatten.length
  nonempty : ∀ record ∈ panel.logs, record ≠ []
  rendered : panel.renderedTextDirty = false →
    panel.renderedText = rebuildRenderedText panel.logs

theorem shows_withRetention (retention : LogRetentionPolicy) :
    (withRetention retention).Shows [] where
  latest := ⟨List.suffix_refl _, ⟨Nat.zero_le _, Nat.zero_le _⟩, fun _ hmore _ => hmore.length_le⟩
  bytes := rfl
  nonempty _ hmem := absurd hmem List.not_mem_nil
  rendered _ := rfl

variable {panel : LogPanel}

theorem Shows.addLog (h : panel.Shows history) (hrecord : record ≠ []) :
    (panel.addLog record).Shows (history ++ [record]) := by
  have hsum : panel.retainedBytes + record.length = (panel.logs ++ [record]).flatten.length := by
    rw [h.bytes, List.flatten_append, List.length_append, List.flatten_singleton]
  obtain ⟨hlatest, hbytes⟩ := evict_latest panel.retention (panel.logs ++ [record])
  have hadded : ∀ r ∈ panel.logs ++ [record], r ≠ [] := by
    intro r hr
    rcases List.mem_append.1 hr with hr | hr
    · exact h.nonempty r hr
    · rw [List.mem_singleton.1 hr]
      exact hrecord
  unfold LogPanel.addLog
  dsimp only
  rw [hsum]
  have hkept : ∀ r ∈ (evict panel.retention (panel.logs ++ [record])
      (panel.logs ++ [record]).flatten.length).1, r ≠ [] :=
    fun r hr => hadded r (hlatest.suffix.subset hr)
  split
  · exact ⟨h.latest.snoc record hlatest, hbytes, hkept, fun hdirty => Bool.noConfusion hdirty⟩
  · rename_i hall
    have hsame : (evict panel.retention (panel.logs ++ [record])
        (panel.logs ++ [record]).flatten.length).1 = panel.logs ++ [record] :=
      hlatest.suffix.eq_of_length_le (not_lt.1 hall)
    split
    · rename_i hdirty
      exact ⟨h.latest.snoc record hlatest, hbytes, hkept,
        fun hclean => absurd (hdirty.symm.trans hclean) (by decide)⟩
    · rename_i hclean
      refine ⟨h.latest.snoc record hlatest, hbytes, hkept, fun _ => ?_⟩
      have hrendered := h.rendered (by simpa using hclean)
      rw [hsame, List.getLast?_concat, Option.getD_some, hrendered]
      by_cases hnil : panel.logs = []
      · rw [hnil]
        simp [rebuildRenderedText, List.intercalate]
      · have hne : (rebuildRenderedText panel.logs).isEmpty = false := by
          rw [List.isEmpty_eq_false_iff, ne_eq, rebuildRenderedText_eq_nil_iff h.nonempty]
          exact hnil
        rw [hne, rebuildRenderedText_snoc hnil]
        rfl

theorem Shows.renderText (h : panel.Shows history) :
    panel.renderText.1.Shows history ∧ panel.renderText.1.logs = panel.logs ∧
      panel.renderText.2 = rebuildRenderedText panel.logs := by
  unfold LogPanel.renderText
  split
  · exact ⟨⟨h.latest, h.bytes, h.nonempty, fun _ => rfl⟩, rfl, rfl⟩
  · rename_i hclean
    exact ⟨h, rfl, h.rendered (by simpa using hclean)⟩

end LogPanel

end Fluxcope.Logging
