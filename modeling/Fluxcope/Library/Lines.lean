import Mathlib.Data.List.Basic
/-!
# Lines of a stream

A terminator cuts a stream into lines.  `lineAfter` counts the symbols of the line that is
open after some of the stream; a bound on all lines of a stream is a bound on that count
after each of its beginnings.
-/

namespace Fluxcope.Library

variable {α : Type*} [DecidableEq α] {terminator : α} {limit count : Nat}

/-- The length of the open line after the symbols, when it was `count` before them. -/
def lineAfter (terminator : α) : Nat → List α → Nat
  | count, [] => count
  | count, a :: rest => lineAfter terminator (if a = terminator then 0 else count + 1) rest

/-- No line has more than `limit` symbols, its terminator not counted. -/
def LinesWithin (terminator : α) (limit : Nat) (stream : List α) : Prop :=
  ∀ line ∈ stream.splitOn terminator, line.length ≤ limit

/-- No line gets longer than `limit`, when the open one has `count` symbols already. -/
def OpenWithin (terminator : α) (limit count : Nat) (stream : List α) : Prop :=
  ∀ front, front <+: stream → lineAfter terminator count front ≤ limit

/-- `split_inclusive`: the pieces keep their terminators. -/
def splitInclusive (terminator : α) : List α → List (List α)
  | [] => []
  | a :: rest =>
    if a = terminator then [a] :: splitInclusive terminator rest
    else
      match splitInclusive terminator rest with
      | [] => [[a]]
      | first :: more => (a :: first) :: more

/-! ## The open line -/

@[simp] theorem lineAfter_nil : lineAfter terminator count ([] : List α) = count := rfl

theorem lineAfter_append (front back : List α) :
    lineAfter terminator count (front ++ back) =
      lineAfter terminator (lineAfter terminator count front) back := by
  induction front generalizing count with
  | nil => rfl
  | cons a rest ih => exact ih

theorem lineAfter_of_notMem {content : List α} (h : terminator ∉ content) :
    lineAfter terminator count content = count + content.length := by
  induction content generalizing count with
  | nil => rfl
  | cons a rest ih =>
    have hne : a ≠ terminator := fun heq => h (heq ▸ List.mem_cons_self)
    rw [lineAfter, if_neg hne, ih fun hmem => h (List.mem_cons_of_mem a hmem),
      List.length_cons]
    omega

theorem lineAfter_terminated (content : List α) :
    lineAfter terminator count (content ++ [terminator]) = 0 := by
  rw [lineAfter_append, lineAfter, if_pos rfl, lineAfter_nil]

/-! ## Bounded lines -/

theorem openWithin_nil : OpenWithin terminator limit count ([] : List α) ↔ count ≤ limit := by
  constructor
  · intro h
    exact h [] (List.prefix_refl [])
  · intro h front hfront
    rw [List.prefix_nil.1 hfront]
    exact h

theorem openWithin_cons {a : α} {rest : List α} :
    OpenWithin terminator limit count (a :: rest) ↔
      count ≤ limit ∧
        OpenWithin terminator limit (if a = terminator then 0 else count + 1) rest := by
  constructor
  · intro h
    refine ⟨h [] List.nil_prefix, fun front hfront => ?_⟩
    exact h (a :: front) ((List.prefix_cons_inj a).2 hfront)
  · intro h front hfront
    cases front with
    | nil => exact h.1
    | cons b front =>
      obtain ⟨rfl, hrest⟩ := List.cons_prefix_cons.1 hfront
      exact h.2 front hrest

theorem openWithin_append {front back : List α} :
    OpenWithin terminator limit count (front ++ back) ↔
      OpenWithin terminator limit count front ∧
        OpenWithin terminator limit (lineAfter terminator count front) back := by
  constructor
  · intro h
    refine ⟨fun p hp => h p (hp.trans (List.prefix_append front back)), fun p hp => ?_⟩
    rw [← lineAfter_append]
    exact h _ ((List.prefix_append_right_inj front).2 hp)
  · intro h p hp
    rcases List.prefix_or_prefix_of_prefix hp (List.prefix_append front back) with
      hfront | ⟨q, rfl⟩
    · exact h.1 p hfront
    · rw [lineAfter_append]
      exact h.2 q ((List.prefix_append_right_inj front).1 hp)

theorem OpenWithin.after {stream : List α} (h : OpenWithin terminator limit count stream) :
    lineAfter terminator count stream ≤ limit :=
  h stream (List.prefix_refl stream)

theorem openWithin_of_notMem {content : List α} (h : terminator ∉ content) :
    OpenWithin terminator limit count content ↔ count + content.length ≤ limit := by
  constructor
  · intro hopen
    rw [← lineAfter_of_notMem h]
    exact hopen.after
  · intro hle front hfront
    rw [lineAfter_of_notMem fun hmem => h (hfront.subset hmem)]
    have hlength := hfront.length_le
    omega

/-- The first line goes on from the open one, the others are new. -/
theorem openWithin_iff_lines (stream : List α) : ∃ first rest,
    stream.splitOn terminator = first :: rest ∧
      ∀ count, OpenWithin terminator limit count stream ↔
        count + first.length ≤ limit ∧ ∀ line ∈ rest, line.length ≤ limit := by
  induction stream with
  | nil =>
    refine ⟨[], [], List.splitOn_nil terminator, fun count => ?_⟩
    rw [openWithin_nil]
    simp
  | cons a stream ih =>
    obtain ⟨first, rest, hsplit, hopen⟩ := ih
    rw [List.splitOn_cons_eq_if_modifyHead, hsplit]
    by_cases ha : a = terminator
    · refine ⟨[], first :: rest, by rw [if_pos (by simpa using ha)], fun count => ?_⟩
      rw [openWithin_cons, if_pos ha, hopen]
      simp
    · refine ⟨a :: first, rest, by rw [if_neg (by simpa using ha)]; rfl, fun count => ?_⟩
      rw [openWithin_cons, if_neg ha, hopen, List.length_cons]
      constructor
      · intro h
        exact ⟨by omega, h.2.2⟩
      · intro h
        exact ⟨by omega, by omega, h.2⟩

theorem linesWithin_iff {stream : List α} :
    LinesWithin terminator limit stream ↔ OpenWithin terminator limit 0 stream := by
  obtain ⟨first, rest, hsplit, hopen⟩ := @openWithin_iff_lines α _ terminator limit stream
  rw [hopen, LinesWithin, hsplit, List.forall_mem_cons, Nat.zero_add]

/-! ## Pieces -/

theorem splitInclusive_of_notMem {content : List α} (h : terminator ∉ content)
    (hne : content ≠ []) : splitInclusive terminator content = [content] := by
  induction content with
  | nil => exact absurd rfl hne
  | cons a rest ih =>
    have ha : a ≠ terminator := fun heq => h (heq ▸ List.mem_cons_self)
    have hrest : terminator ∉ rest := fun hmem => h (List.mem_cons_of_mem a hmem)
    rw [splitInclusive, if_neg ha]
    cases rest with
    | nil => rfl
    | cons b rest => rw [ih hrest (List.cons_ne_nil b rest)]

theorem splitInclusive_terminated {content : List α} (h : terminator ∉ content)
    (rest : List α) :
    splitInclusive terminator (content ++ terminator :: rest) =
      (content ++ [terminator]) :: splitInclusive terminator rest := by
  induction content with
  | nil => rw [List.nil_append, splitInclusive, if_pos rfl, List.nil_append]
  | cons a content ih =>
    have ha : a ≠ terminator := fun heq => h (heq ▸ List.mem_cons_self)
    rw [List.cons_append, splitInclusive, if_neg ha,
      ih fun hmem => h (List.mem_cons_of_mem a hmem), List.cons_append]

/-- The rule for what is done piece by piece. -/
theorem splitInclusive_induction {motive : List α → Prop} (nil : motive [])
    (last : ∀ content, terminator ∉ content → content ≠ [] → motive content)
    (line : ∀ content rest, terminator ∉ content → motive rest →
      motive (content ++ terminator :: rest)) (stream : List α) : motive stream := by
  induction hn : stream.length using Nat.strongRecOn generalizing stream with
  | ind n ih =>
    by_cases hmem : terminator ∈ stream
    · obtain ⟨content, rest, rfl, hcontent⟩ := List.eq_append_cons_of_mem hmem
      refine line content rest hcontent (ih rest.length ?_ rest rfl)
      rw [← hn, List.length_append, List.length_cons]
      omega
    · by_cases hnil : stream = []
      · rw [hnil]
        exact nil
      · exact last stream hmem hnil

end Fluxcope.Library
