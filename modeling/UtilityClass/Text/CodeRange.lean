import UtilityClass.Text.Basic

/-! # Ranges of character codes

A class of characters past ASCII is a list of closed ranges of codes.  `inRanges_mono` compares
two such lists by their ranges alone. -/

namespace UtilityClass.Text

/-- Whether the code of `c` lies in one of the closed ranges. -/
def inRanges (ranges : List (Nat × Nat)) (c : Char) : Bool :=
  ranges.any fun r => r.1 ≤ c.toNat && c.toNat ≤ r.2

/-- Whether each of the first ranges lies inside one of the second ranges. -/
def rangesWithin (inner outer : List (Nat × Nat)) : Bool :=
  inner.all fun r => outer.any fun s => s.1 ≤ r.1 && r.2 ≤ s.2

/-- Ranges that lie inside others hold no further characters. -/
theorem inRanges_mono {inner outer : List (Nat × Nat)} (h : rangesWithin inner outer = true)
    {c : Char} (hc : inRanges inner c = true) : inRanges outer c = true := by
  simp only [inRanges, rangesWithin, List.any_eq_true, List.all_eq_true, Bool.and_eq_true,
    decide_eq_true_eq] at *
  obtain ⟨r, hr, hlo, hhi⟩ := hc
  obtain ⟨s, hs, hslo, hshi⟩ := h r hr
  exact ⟨s, hs, by omega, by omega⟩

end UtilityClass.Text
