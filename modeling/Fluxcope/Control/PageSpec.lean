import Fluxcope.Control.CaptureQuery
import Fluxcope.Library.Descending
/-!
# What one page shows

The page splits the captures of its batch into those it scanned and those that
are left.  It shows the matching scanned ones, and its cursor, if it has one,
resumes exactly at the captures that are left.
-/

namespace Fluxcope.Control

open Fluxcope.Library Fluxcope.Capture

namespace CaptureSearch

/-- The rows of the matching captures. -/
def rows (search : CaptureSearch) (snapshots : List CaptureSnapshot) : List CompactCapture :=
  (snapshots.filter search.isMatch).map CompactCapture.fromSnapshot

def bytes (search : CaptureSearch) (captures : List CompactCapture) : Nat :=
  (captures.map search.serializedLen).sum

/-- A matching capture whose row alone exceeds the limit. -/
def Oversized (search : CaptureSearch) (maxSingleRowBytes : Nat) (s : CaptureSnapshot) : Prop :=
  search.isMatch s = true ∧
    maxSingleRowBytes < search.serializedLen (CompactCapture.fromSnapshot s)

variable (search : CaptureSearch)

@[simp] theorem rows_nil : search.rows [] = [] := rfl

theorem rows_append (xs ys : List CaptureSnapshot) :
    search.rows (xs ++ ys) = search.rows xs ++ search.rows ys := by
  simp [rows]

theorem rows_cons_of_match {s : CaptureSnapshot} (h : search.isMatch s = true)
    (xs : List CaptureSnapshot) :
    search.rows (s :: xs) = CompactCapture.fromSnapshot s :: search.rows xs := by
  simp [rows, h]

theorem rows_cons_of_not_match {s : CaptureSnapshot} (h : ¬ search.isMatch s = true)
    (xs : List CaptureSnapshot) : search.rows (s :: xs) = search.rows xs := by
  simp [rows, h]

@[simp] theorem bytes_nil : search.bytes [] = 0 := rfl

theorem bytes_append (xs ys : List CompactCapture) :
    search.bytes (xs ++ ys) = search.bytes xs + search.bytes ys := by
  simp [bytes]

theorem bytes_cons (x : CompactCapture) (xs : List CompactCapture) :
    search.bytes (x :: xs) = search.serializedLen x + search.bytes xs := by
  simp [bytes]

end CaptureSearch

/-- Why a page ends: its batch is used up, its rows are, or its bytes are. -/
inductive PageStop (limit : Nat) (scanned left : List CaptureSnapshot) (state : PageState) : Prop
  | exhausted (hleft : left = []) (holder : state.older = false)
      (hbytes : state.byteResumeCursor = none)
  | rowLimit (hleft : left ≠ []) (hrows : state.captures.length = limit)
      (holder : state.older = true) (hbytes : state.byteResumeCursor = none)
  | byteBudget (next : CaptureSnapshot) (rest : List CaptureSnapshot)
      (hleft : left = next :: rest) (hrows : state.captures.length < limit)
      (hbytes : state.byteResumeCursor = some ⟨next.sequence⟩)

/-- The loop has scanned some captures, from one state of its variables to another. -/
structure PageScanned (search : CaptureSearch) (before after : PageState)
    (scanned : List CaptureSnapshot) : Prop where
  captures : after.captures = before.captures ++ search.rows scanned
  serializedBytes :
    after.serializedBytes = before.serializedBytes + search.bytes (search.rows scanned)

/-- The last scanned capture, or the one from before. -/
def lastSequence (before : Option CaptureSequence) (scanned : List CaptureSnapshot) :
    Option CaptureSequence :=
  (scanned.getLast?.map (·.sequence)).or before

theorem lastSequence_cons (before : Option CaptureSequence) (s : CaptureSnapshot)
    (scanned : List CaptureSnapshot) :
    lastSequence before (s :: scanned) = lastSequence (some s.sequence) scanned := by
  unfold lastSequence
  cases scanned with
  | nil => rfl
  | cons t rest => simp [List.getLast?_cons]

section Loop

variable {search : CaptureSearch} {limit maxRow remaining : Nat}

/-- What the loop of a page returns. -/
def PageLoopSpec (search : CaptureSearch) (limit maxRow remaining : Nat) (state : PageState)
    (ordered : List CaptureSnapshot) : Except ControlError PageState → Prop
  | .error error => error = rowTooLarge maxRow ∧
      ∃ scanned next rest, ordered = scanned ++ next :: rest ∧ search.Oversized maxRow next ∧
        state.captures.length + (search.rows scanned).length < limit
  | .ok final => ∃ scanned left, ordered = scanned ++ left ∧
      PageScanned search state final scanned ∧ final.captures.length ≤ limit ∧
      final.serializedBytes ≤ remaining ∧
      (final.byteResumeCursor = none →
        final.lastScanned = lastSequence state.lastScanned scanned) ∧
      (left ≠ [] → state.captures.length < limit → search.bytes (search.rows scanned) = 0 →
        state.serializedBytes = 0 → maxRow ≤ remaining → scanned ≠ []) ∧
      PageStop limit scanned left final

theorem PageLoopSpec.cons {state next : PageState} {s : CaptureSnapshot}
    {ordered : List CaptureSnapshot} {result : Except ControlError PageState}
    (hcaptures : next.captures = state.captures ++ search.rows [s])
    (hbytes : next.serializedBytes = state.serializedBytes + search.bytes (search.rows [s]))
    (hlast : next.lastScanned = some s.sequence)
    (h : PageLoopSpec search limit maxRow remaining next ordered result) :
    PageLoopSpec search limit maxRow remaining state (s :: ordered) result := by
  cases result with
  | error error =>
    obtain ⟨rfl, scanned, next', rest, rfl, hover, hrows⟩ := h
    refine ⟨rfl, s :: scanned, next', rest, rfl, hover, ?_⟩
    rw [hcaptures, List.length_append] at hrows
    rw [← List.singleton_append, search.rows_append, List.length_append]
    omega
  | ok final =>
    obtain ⟨scanned, left, rfl, hscanned, hlimit, hremaining, hlastScanned, -, hstop⟩ := h
    refine ⟨s :: scanned, left, rfl, ⟨?_, ?_⟩, hlimit, hremaining, ?_, ?_, ?_⟩
    · rw [hscanned.captures, hcaptures, List.append_assoc, ← search.rows_append]
      rfl
    · rw [hscanned.serializedBytes, hbytes, Nat.add_assoc, ← search.bytes_append,
        ← search.rows_append]
      rfl
    · intro hnone
      rw [hlastScanned hnone, hlast, lastSequence_cons]
    · intro _ _ _ _ _
      exact List.cons_ne_nil _ _
    · cases hstop with
      | exhausted hleft holder hbytes => exact .exhausted hleft holder hbytes
      | rowLimit hleft hrows holder hbytes => exact .rowLimit hleft hrows holder hbytes
      | byteBudget next' rest hleft hrows hbytes =>
        exact .byteBudget next' rest hleft hrows hbytes

theorem pageLoop_spec {state : PageState} (ordered : List CaptureSnapshot)
    (hlimit : state.captures.length ≤ limit) (hbytes : state.serializedBytes ≤ remaining)
    (holder : state.older = false) (hresume : state.byteResumeCursor = none)
    (hremaining : remaining < wordMax) :
    PageLoopSpec search limit maxRow remaining state ordered
      (pageLoop search limit maxRow remaining state ordered) := by
  induction ordered generalizing state with
  | nil =>
    exact ⟨[], [], rfl, ⟨by simp, by simp⟩, hlimit, hbytes, fun _ => rfl,
      fun hleft => absurd rfl hleft, .exhausted rfl holder hresume⟩
  | cons s ordered ih =>
    unfold pageLoop
    by_cases hfull : state.captures.length = limit
    · -- the rows are used up before this capture
      rw [if_pos hfull]
      exact ⟨[], s :: ordered, rfl, ⟨by simp, by simp⟩, hlimit, hbytes, fun _ => rfl,
        fun _ hlt => by omega, .rowLimit (List.cons_ne_nil _ _) hfull rfl hresume⟩
    rw [if_neg hfull]
    have hlt : state.captures.length < limit := Nat.lt_of_le_of_ne hlimit hfull
    by_cases hmatch : search.isMatch s = true
    · simp only [if_pos hmatch]
      by_cases hover : search.serializedLen (.fromSnapshot s) > maxRow
      · rw [if_pos hover]
        exact ⟨rfl, [], s, ordered, rfl, ⟨hmatch, hover⟩, by simpa using hlt⟩
      rw [if_neg hover]
      by_cases hbudget : satAdd state.serializedBytes
          (search.serializedLen (.fromSnapshot s)) > remaining
      · -- this capture is the first one of the next page
        rw [if_pos hbudget]
        refine ⟨[], s :: ordered, rfl, ⟨by simp, by simp⟩, hlimit, hbytes, ?_, ?_,
          .byteBudget s ordered rfl hlt rfl⟩
        · intro hnone
          cases hnone
        · intro _ _ _ hzero hmax
          have hle := satAdd_le state.serializedBytes
            (search.serializedLen (.fromSnapshot s))
          omega
      · rw [if_neg hbudget]
        have hfits := (satAdd_le_iff hremaining).1 (Nat.not_lt.1 hbudget)
        have hrow : search.rows [s] = [.fromSnapshot s] := search.rows_cons_of_match hmatch []
        refine .cons ?_ ?_ rfl (ih ?_ hfits holder hresume)
        · rw [hrow]
        · rw [hrow, search.bytes_cons, search.bytes_nil, Nat.add_zero]
        · rw [List.length_append]
          exact hlt
    · simp only [if_neg hmatch]
      have hrow : search.rows [s] = [] := search.rows_cons_of_not_match hmatch []
      refine .cons ?_ ?_ rfl (ih hlimit hbytes holder hresume)
      · rw [hrow, List.append_nil]
      · rw [hrow, search.bytes_nil, Nat.add_zero]

end Loop

/-! ## The page -/

/-- What a page of descending captures returns. -/
def PageSpec (search : CaptureSearch) (limit maxRow remaining : Nat)
    (snapshots : List CaptureSnapshot) : Except ControlError CaptureSearchPage → Prop
  | .error error => error = rowTooLarge maxRow ∧ ∃ s ∈ snapshots, search.Oversized maxRow s
  | .ok page => ∃ scanned left, snapshots = scanned ++ left ∧
      page.captures = search.rows scanned ∧ page.captures.length ≤ limit ∧
      page.serializedBytes = search.bytes page.captures ∧ page.serializedBytes ≤ remaining ∧
      (left ≠ [] → search.bytes page.captures = 0 → maxRow ≤ remaining → scanned ≠ []) ∧
      (page.nextCursor = none → left = []) ∧
      ∀ cursor, page.nextCursor = some cursor → left ≠ [] ∧
        (∃ s ∈ snapshots, cursor.nextOlderSequence ≤ s.sequence) ∧
        upTo CaptureSnapshot.sequence cursor.nextOlderSequence snapshots = left

theorem insertionSort_of_descending {snapshots : List CaptureSnapshot}
    (h : Descending CaptureSnapshot.sequence snapshots) :
    snapshots.insertionSort (fun a b => b.sequence ≤ a.sequence) = snapshots :=
  List.Pairwise.insertionSort_eq (h.imp Nat.le_of_lt)

theorem matchCapturePageWithBudget_eq (search : CaptureSearch) {limit : Nat}
    (maxRow remaining : Nat) {snapshots : List CaptureSnapshot}
    (hlimit : 1 ≤ limit ∧ limit ≤ maxCapturePageLimit)
    (hdesc : Descending CaptureSnapshot.sequence snapshots) :
    matchCapturePageWithBudget search snapshots none limit maxRow remaining =
      (pageLoop search limit maxRow remaining {} snapshots).map fun state =>
        ⟨state.captures, state.nextCursor limit, state.serializedBytes⟩ := by
  have hordered : (snapshots.filter fun _ => true).insertionSort
      (fun a b => b.sequence ≤ a.sequence) = snapshots := by
    rw [List.filter_true, insertionSort_of_descending hdesc]
  unfold matchCapturePageWithBudget normalizeCapturePageLimit
  simp only [Option.getD_some, if_pos hlimit, hordered]
  simp only [bind, Except.bind, pure, Except.pure]
  cases pageLoop search limit maxRow remaining {} snapshots <;> rfl

/-- The cursor of a page resumes at the captures that are left. -/
theorem PageStop.nextCursor {search : CaptureSearch} {limit : Nat} {state : PageState}
    {scanned left : List CaptureSnapshot} (hlimit : 1 ≤ limit)
    (hdesc : Descending CaptureSnapshot.sequence (scanned ++ left))
    (hrows : state.captures = search.rows scanned)
    (hlast : state.byteResumeCursor = none →
      state.lastScanned = lastSequence none scanned)
    (hstop : PageStop limit scanned left state) :
    (state.nextCursor limit = none → left = []) ∧
      ∀ cursor, state.nextCursor limit = some cursor → left ≠ [] ∧
        (∃ s ∈ scanned ++ left, cursor.nextOlderSequence ≤ s.sequence) ∧
        upTo CaptureSnapshot.sequence cursor.nextOlderSequence (scanned ++ left) = left := by
  cases hstop with
  | exhausted hleft holder hbytes =>
    have hnone : state.nextCursor limit = none := by
      simp [PageState.nextCursor, holder, hbytes]
    rw [hnone]
    exact ⟨fun _ => hleft, nofun⟩
  | byteBudget next rest hleft hrows hbytes =>
    subst hleft
    have hsome : state.nextCursor limit = some ⟨next.sequence⟩ := by
      simp [PageState.nextCursor, hbytes]
    rw [hsome]
    refine ⟨nofun, ?_⟩
    rintro _ ⟨⟩
    exact ⟨List.cons_ne_nil _ _, ⟨next, List.mem_append_right _ List.mem_cons_self,
      Nat.le_refl _⟩, hdesc.upTo_head⟩
  | rowLimit hleft hfull holder hbytes =>
    -- at least one capture was scanned, and what is left is older than the last one
    have hscanned : scanned ≠ [] := by
      rintro rfl
      rw [hrows] at hfull
      simp at hfull
      omega
    obtain ⟨last, hgetLast⟩ : ∃ last, scanned.getLast? = some last :=
      ⟨_, List.getLast?_eq_some_getLast hscanned⟩
    have hmem : last ∈ scanned := List.mem_of_getLast? hgetLast
    have hcursor : state.nextCursor limit = cursorBefore last.sequence := by
      simp [PageState.nextCursor, hbytes, hfull, holder, hlast hbytes, lastSequence, hgetLast]
    rw [hcursor]
    cases hsequence : last.sequence with
    | zero => exact absurd (hdesc.eq_nil_of_key_zero hmem hsequence) hleft
    | succ older =>
      refine ⟨nofun, ?_⟩
      rintro _ ⟨⟩
      refine ⟨hleft, ⟨last, List.mem_append_left _ hmem, ?_⟩,
        hdesc.upTo_before hgetLast hsequence⟩
      rw [hsequence]
      exact Nat.le_succ older

theorem matchCapturePageWithBudget_spec (search : CaptureSearch) {limit : Nat}
    (maxRow : Nat) {remaining : Nat} {snapshots : List CaptureSnapshot}
    (hlimit : 1 ≤ limit ∧ limit ≤ maxCapturePageLimit) (hremaining : remaining < wordMax)
    (hdesc : Descending CaptureSnapshot.sequence snapshots) :
    PageSpec search limit maxRow remaining snapshots
      (matchCapturePageWithBudget search snapshots none limit maxRow remaining) := by
  have hloop := @pageLoop_spec search limit maxRow remaining {} snapshots
    (Nat.zero_le _) (Nat.zero_le _) rfl rfl hremaining
  rw [matchCapturePageWithBudget_eq search maxRow remaining hlimit hdesc]
  cases hresult : pageLoop search limit maxRow remaining {} snapshots with
  | error error =>
    rw [hresult] at hloop
    obtain ⟨rfl, scanned, next, rest, rfl, hover, -⟩ := hloop
    exact ⟨rfl, next, List.mem_append_right _ List.mem_cons_self, hover⟩
  | ok final =>
    rw [hresult] at hloop
    obtain ⟨scanned, left, rfl, hscanned, hrows, hbytes, hlast, hprogress, hstop⟩ := hloop
    have hcaptures : final.captures = search.rows scanned := by simpa using hscanned.captures
    have hserialized : final.serializedBytes = search.bytes final.captures := by
      rw [hcaptures]
      simpa using hscanned.serializedBytes
    refine ⟨scanned, left, rfl, hcaptures, hrows, hserialized, hbytes, ?_,
      hstop.nextCursor hlimit.1 hdesc hcaptures hlast⟩
    intro hleft hzero hmax
    exact hprogress hleft hlimit.1 (by rw [← hcaptures]; exact hzero) rfl hmax

end Fluxcope.Control
