import Fluxcope.Capture.Body
import Mathlib.Order.Bounds.Basic
/-!
# The charge of a prefix

The cost of a prefix grows with its bytes, and by the overhead of a node where a
chunk gets full.  The search over the numbers of nodes finds the longest prefix that
the budget affords, and the words it computes with never saturate in a way that shows.
-/

namespace Fluxcope.Capture

open Fluxcope.Library

/-- The bytes of a prefix with the overhead of the chunks it fills behind the tail. -/
def prefixCost (trailingLen retained : Nat) : Nat :=
  retained + bodyChunkNodeOverhead * ((trailingLen + retained) / bodyChunkBytes)

/-- The overhead is that of the chunks which appending the prefix seals. -/
theorem prefixCost_append {body : BodyCapture} (h : body.Chunked) (bytes : Utf8.Bytes) :
    prefixCost body.trailing.length bytes.length =
      bytes.length + bodyChunkNodeOverhead *
        ((body.append bytes).canonicalTail.length - body.canonicalTail.length) := by
  rw [prefixCost, (BodyCapture.append_spec h bytes).chunks, Nat.add_sub_cancel_left]

/-- The prefixes of what is requested that the budget pays for. -/
def AffordablePrefixes (requested trailingLen available : Nat) : Set Nat :=
  {retained | retained ≤ requested ∧ prefixCost trailingLen retained ≤ available}

/-- A candidate of the search as the integers would have it. -/
def exactCharge (requested trailingLen available nodes : Int) : Option (Int × Int) :=
  let overhead := nodes * bodyChunkNodeOverhead
  if overhead > available then none
  else
    let lower := nodes * bodyChunkBytes - trailingLen
    let upper := (nodes + 1) * bodyChunkBytes - trailingLen - 1
    let retained := min (min requested (available - overhead)) upper
    if retained ≥ lower then some (retained, retained + overhead) else none

section Charge

variable {requested trailingLen available : Nat}

/-! ## One number of nodes -/

theorem nodes_le_wordMax {nodes : Nat}
    (h : nodes ≤ satAdd trailingLen (min requested available) / bodyChunkBytes) :
    nodes * bodyChunkBytes ≤ wordMax :=
  (Nat.mul_le_mul_right _ h).trans ((Nat.div_mul_le_self _ _).trans (satAdd_le_wordMax _ _))

/-- The next number of nodes may saturate, but then the budget is the tighter bound. -/
theorem min_upper_eq (havailable : available ≤ wordMax) {nodes : Nat}
    (hnodes : nodes * bodyChunkBytes ≤ wordMax) (htrailing : trailingLen < bodyChunkBytes) :
    min (available - nodes * bodyChunkNodeOverhead)
        (satMul (satAdd nodes 1) bodyChunkBytes - trailingLen - 1) =
      min (available - nodes * bodyChunkNodeOverhead)
        ((nodes + 1) * bodyChunkBytes - trailingLen - 1) := by
  have hchunk : bodyChunkBytes = 65536 := rfl
  have hnode : bodyChunkNodeOverhead = 64 := rfl
  have hword : wordMax = 18446744073709551615 := rfl
  rw [hchunk] at htrailing
  rw [hchunk, hword] at hnodes
  rw [hword] at havailable
  rw [satAdd_eq (by rw [hword]; omega), hchunk, hnode]
  by_cases hfits : (nodes + 1) * 65536 ≤ wordMax
  · rw [satMul_eq hfits]
  · have hsat : satMul (nodes + 1) 65536 = wordMax := min_eq_right (Nat.le_of_not_le hfits)
    rw [hword] at hfits
    rw [hsat, hword]
    omega

/-- No sum, product or difference leaves the words where it matters. -/
theorem chargeWithNodes_exact (htrailing : trailingLen < bodyChunkBytes)
    (havailable : available ≤ wordMax) {nodes : Nat} (hnodes : nodes * bodyChunkBytes ≤ wordMax) :
    exactCharge requested trailingLen available nodes =
      (chargeWithNodes requested trailingLen available nodes).map
        fun charge => ((charge.1 : Int), (charge.2 : Int)) := by
  have hoverhead : satMul nodes bodyChunkNodeOverhead = nodes * bodyChunkNodeOverhead :=
    satMul_eq ((Nat.mul_le_mul_left nodes overhead_le_chunk).trans hnodes)
  have hupper := min_upper_eq havailable hnodes htrailing
  unfold exactCharge chargeWithNodes
  dsimp only
  rw [hoverhead, satMul_eq hnodes, min_assoc requested, hupper]
  have hchunk : bodyChunkBytes = 65536 := rfl
  have hnode : bodyChunkNodeOverhead = 64 := rfl
  rw [hchunk] at htrailing
  rw [hchunk, hnode]
  by_cases hfits : nodes * 64 > available
  · rw [if_pos (by omega), if_pos hfits]
    rfl
  · rw [if_neg (by omega), if_neg hfits]
    have hretained : min (min (requested : Int) (available - nodes * 64))
        ((nodes + 1) * 65536 - trailingLen - 1) =
        ((min requested (min (available - nodes * 64) ((nodes + 1) * 65536 - trailingLen - 1)) :
          Nat) : Int) := by omega
    have hsum : satAdd (min requested (min (available - nodes * 64)
          ((nodes + 1) * 65536 - trailingLen - 1))) (nodes * 64) =
        min requested (min (available - nodes * 64) ((nodes + 1) * 65536 - trailingLen - 1)) +
          nodes * 64 := satAdd_eq (by omega)
    rw [Nat.cast_ofNat, Nat.cast_ofNat, hretained, hsum]
    generalize min requested (min (available - nodes * 64)
      ((nodes + 1) * 65536 - trailingLen - 1)) = retained
    by_cases hlower : retained ≥ nodes * 65536 - trailingLen
    · rw [if_pos (by omega), if_pos hlower]
      simp
    · rw [if_neg (by omega), if_neg hlower]
      rfl

/-- A prefix that the budget affords is found with its number of nodes, or a longer one is. -/
theorem chargeWithNodes_of_affordable (htrailing : trailingLen < bodyChunkBytes)
    (havailable : available ≤ wordMax) {retained : Nat}
    (h : retained ∈ AffordablePrefixes requested trailingLen available) :
    ∃ charge, chargeWithNodes requested trailingLen available
      ((trailingLen + retained) / bodyChunkBytes) = some charge ∧ retained ≤ charge.1 := by
  obtain ⟨hrequested, hcost⟩ := h
  have hlow := Nat.div_mul_le_self (trailingLen + retained) bodyChunkBytes
  have hhigh := Nat.lt_div_mul_add bodyChunkBytes_pos (a := trailingLen + retained)
  unfold prefixCost at hcost
  generalize (trailingLen + retained) / bodyChunkBytes = nodes at hcost hlow hhigh ⊢
  have hchunk : bodyChunkBytes = 65536 := rfl
  have hnode : bodyChunkNodeOverhead = 64 := rfl
  have hword : wordMax = 18446744073709551615 := rfl
  rw [hchunk] at htrailing hlow hhigh
  rw [hnode] at hcost
  rw [hword] at havailable
  have hnodes : nodes * bodyChunkBytes ≤ wordMax := by
    rw [hchunk, hword]
    omega
  have hupper := min_upper_eq (hword ▸ havailable) hnodes (hchunk ▸ htrailing)
  have hoverhead : satMul nodes bodyChunkNodeOverhead = nodes * bodyChunkNodeOverhead :=
    satMul_eq ((Nat.mul_le_mul_left nodes overhead_le_chunk).trans hnodes)
  unfold chargeWithNodes
  dsimp only
  rw [hoverhead, satMul_eq hnodes, min_assoc requested, hupper, hchunk, hnode]
  rw [if_neg (by omega), if_pos (by omega)]
  exact ⟨_, rfl, by dsimp only; omega⟩

theorem le_of_chargeWithNodes {nodes : Nat} {charge : Nat × Nat}
    (h : chargeWithNodes requested trailingLen available nodes = some charge) :
    satMul nodes bodyChunkBytes - trailingLen ≤ charge.1 := by
  unfold chargeWithNodes at h
  dsimp only at h
  split at h
  · cases h
  split at h
  · rename_i hlower
    cases h
    exact hlower
  · cases h

/-! ## The search -/

/-- More nodes than those of a prefix need more bytes than the prefix has. -/
theorem lt_of_more_nodes {retained nodes : Nat}
    (h : (trailingLen + retained) / bodyChunkBytes < nodes) :
    retained < nodes * bodyChunkBytes - trailingLen := by
  have hlt := (Nat.div_lt_iff_lt_mul bodyChunkBytes_pos).1 h
  omega

theorem searchNodes_ge (htrailing : trailingLen < bodyChunkBytes) (havailable : available ≤ wordMax)
    {retained : Nat} (h : retained ∈ AffordablePrefixes requested trailingLen available)
    {nodes : Nat} (hle : (trailingLen + retained) / bodyChunkBytes ≤ nodes)
    (hnodes : nodes * bodyChunkBytes ≤ wordMax) :
    retained ≤ (searchNodes requested trailingLen available nodes).1 := by
  obtain ⟨charge, hcharge, hbest⟩ := chargeWithNodes_of_affordable htrailing havailable h
  induction nodes with
  | zero =>
    rw [Nat.le_zero.1 hle] at hcharge
    rw [searchNodes, hcharge]
    exact hbest
  | succ nodes ih =>
    rw [searchNodes]
    by_cases hhere : (trailingLen + retained) / bodyChunkBytes = nodes + 1
    · rw [hhere] at hcharge
      rw [hcharge]
      exact hbest
    · -- A candidate with more nodes is longer, and a missing one leaves the search to go on.
      cases hfound : chargeWithNodes requested trailingLen available (nodes + 1) with
      | some found =>
        have hlower := le_of_chargeWithNodes hfound
        rw [satMul_eq hnodes] at hlower
        exact (Nat.le_of_lt (lt_of_more_nodes (by omega))).trans hlower
      | none =>
        exact ih (by omega) ((Nat.mul_le_mul_right _ (Nat.le_succ nodes)).trans hnodes)

/-- The nodes of an affordable prefix are among those the search starts from. -/
theorem nodes_le_of_affordable (havailable : available ≤ wordMax) {retained : Nat}
    (h : retained ∈ AffordablePrefixes requested trailingLen available)
    (htrailing : trailingLen < bodyChunkBytes) :
    (trailingLen + retained) / bodyChunkBytes ≤
      satAdd trailingLen (min requested available) / bodyChunkBytes := by
  obtain ⟨hrequested, hcost⟩ := h
  have hlow := Nat.div_mul_le_self (trailingLen + retained) bodyChunkBytes
  have hhigh := Nat.lt_div_mul_add bodyChunkBytes_pos (a := trailingLen + retained)
  unfold prefixCost at hcost
  refine Nat.div_le_div_right ?_
  refine le_min (by omega) ?_
  generalize (trailingLen + retained) / bodyChunkBytes = nodes at hcost hlow hhigh
  have hchunk : bodyChunkBytes = 65536 := rfl
  have hnode : bodyChunkNodeOverhead = 64 := rfl
  have hword : wordMax = 18446744073709551615 := rfl
  rw [hchunk] at htrailing hhigh
  rw [hnode] at hcost
  rw [hword] at havailable ⊢
  omega

/-- The charge is for the longest prefix that the budget affords, it is exactly the cost of this
prefix with the chunks it seals, and every candidate of the search is what the integers give. -/
theorem bodyPrefixCharge_greatest (htrailing : trailingLen < bodyChunkBytes)
    (havailable : available ≤ wordMax) :
    IsGreatest (AffordablePrefixes requested trailingLen available)
        (bodyPrefixCharge requested trailingLen available).1 ∧
      (bodyPrefixCharge requested trailingLen available).2 =
        prefixCost trailingLen (bodyPrefixCharge requested trailingLen available).1 ∧
      (bodyPrefixCharge requested trailingLen available).2 ≤ available ∧
      (∀ body : BodyCapture, body.Chunked → body.trailing.length = trailingLen → ∀ bytes,
        prefixCost trailingLen bytes.length =
          bytes.length + bodyChunkNodeOverhead *
            ((body.append bytes).canonicalTail.length - body.canonicalTail.length)) ∧
      ∀ nodes ≤ satAdd trailingLen (min requested available) / bodyChunkBytes,
        exactCharge requested trailingLen available nodes =
          (chargeWithNodes requested trailingLen available nodes).map
            fun charge => ((charge.1 : Int), (charge.2 : Int)) := by
  obtain ⟨hrequested, hwithin, hcharged⟩ :=
    @bodyPrefixCharge_spec requested trailingLen available htrailing havailable
  refine ⟨⟨⟨hrequested, ?_⟩, ?_⟩, hcharged, hwithin, ?_, ?_⟩
  · rw [prefixCost, ← hcharged]
    exact hwithin
  · intro retained hretained
    exact searchNodes_ge htrailing havailable hretained
      (nodes_le_of_affordable havailable hretained htrailing) (nodes_le_wordMax (Nat.le_refl _))
  · rintro body hbody rfl bytes
    exact prefixCost_append hbody bytes
  · intro nodes hnodes
    exact chargeWithNodes_exact htrailing havailable (nodes_le_wordMax hnodes)

end Charge

/-- One byte less than the node needs keeps the chunk open, and two more seal it. -/
theorem bodyPrefixCharge_greatest_sample :
    bodyPrefixCharge 200 65500 99 = (35, 35) ∧ bodyPrefixCharge 200 65500 101 = (37, 101) ∧
      IsGreatest (AffordablePrefixes 200 65500 101) (bodyPrefixCharge 200 65500 101).1 :=
  ⟨by decide +kernel, by decide +kernel,
    (@bodyPrefixCharge_greatest 200 65500 101 (by decide) (by decide)).1⟩

end Fluxcope.Capture
