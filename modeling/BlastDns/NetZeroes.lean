import BlastDns.NetReads

/-!
The run of zero groups that Display elides. The loop invariant says that both
spans it carries cover only zeros of the address, so leaving one out does not
change the sum of the groups, and the sum is what tells two addresses apart
when one more group has been appended to the text.
-/

namespace NetText

def ZeroRun (segments : List Segment) (span : Span) : Prop :=
  ∀ place, span.start ≤ place → place < span.start + span.len → segments[place]? = some 0

theorem zero_run_empty (segments : List Segment) (start : ℕ) :
    ZeroRun segments { start := start, len := 0 } := by
  intro place lower upper
  simp only at lower upper
  omega

/-- `current` ends at `index` when it is not empty; `longest` lies before it. -/
theorem zero_spans_run (segments : List Segment) (rest : List Segment) (index : ℕ)
    (current longest : Span) (split : segments.drop index = rest) (inside : index ≤ segments.length)
    (running : ZeroRun segments current)
    (adjacent : current.len = 0 ∨ current.start + current.len = index)
    (found : ZeroRun segments longest) (bounded : longest.start + longest.len ≤ index) :
    ZeroRun segments (zeroSpans index current longest rest) ∧
      (zeroSpans index current longest rest).start + (zeroSpans index current longest rest).len ≤
        segments.length := by
  -- over the segments still to come; the hypotheses are what the loop has seen so far
  induction rest generalizing index current longest with
  | nil =>
      simp only [zeroSpans]
      exact ⟨found, bounded.trans inside⟩
  | cons segment rest ih =>
      have here : segments[index]? = some segment := by
        rw [← List.head?_drop, split, List.head?_cons]
      have within : index + 1 ≤ segments.length := (List.getElem?_eq_some_iff.mp here).1
      have next : segments.drop (index + 1) = rest := by
        rw [← List.tail_drop, split, List.tail_cons]
      rw [zeroSpans]
      split
      · next zero =>
          subst zero
          let wider : Span :=
            { start := if current.len = 0 then index else current.start, len := current.len + 1 }
          have grown : ZeroRun segments wider := by
            intro place lower upper
            simp only [wider] at lower upper
            by_cases last : place = index
            · rw [last, here]
            · apply running place <;> split at lower <;> split at upper <;> omega
          have ends : wider.start + wider.len = index + 1 := by
            simp only [wider]
            split <;> omega
          refine ih (index + 1) wider _ next within grown (Or.inr ends) ?_ ?_
          · by_cases longer : longest.len < wider.len
            · rw [if_pos longer]
              exact grown
            · rw [if_neg longer]
              exact found
          · by_cases longer : longest.len < wider.len
            · rw [if_pos longer]
              exact ends.le
            · rw [if_neg longer]
              omega
      · exact ih (index + 1) _ _ next within (zero_run_empty segments 0) (Or.inl rfl) found (by omega)

theorem longest_zeroes_run (segments : List Segment) :
    ZeroRun segments (longestZeroes segments) ∧
      (longestZeroes segments).start + (longestZeroes segments).len ≤ segments.length :=
  zero_spans_run segments segments 0 {} {} rfl (Nat.zero_le _) (zero_run_empty segments 0)
    (Or.inl rfl) (zero_run_empty segments 0) le_rfl

def segmentSum (segments : List Segment) : ℕ := (segments.map Fin.val).sum

theorem segment_sum_append (front back : List Segment) :
    segmentSum (front ++ back) = segmentSum front + segmentSum back := by
  simp [segmentSum]

theorem segment_sum_zeroes (count : ℕ) : segmentSum (List.replicate count 0) = 0 := by
  simp [segmentSum]

/-- What Display keeps of an address has the same sum and leaves room for the run. -/
theorem elided_sum (segments : List Segment) :
    segmentSum (segments.take (longestZeroes segments).start) +
        segmentSum (segments.drop ((longestZeroes segments).start + (longestZeroes segments).len)) =
      segmentSum segments := by
  obtain ⟨run, bounded⟩ := longest_zeroes_run segments
  generalize longestZeroes segments = span at run bounded ⊢
  have middle : (segments.drop span.start).take span.len = List.replicate span.len 0 := by
    apply List.ext_getElem?
    intro place
    by_cases inside : place < span.len
    · rw [List.getElem?_take_of_lt inside, List.getElem?_drop, List.getElem?_replicate_of_lt inside]
      exact run (span.start + place) (by omega) (by omega)
    · rw [List.getElem?_eq_none (by simp; omega), List.getElem?_eq_none (by simp; omega)]
  have whole : segments = segments.take span.start ++ (List.replicate span.len 0 ++
      segments.drop (span.start + span.len)) := by
    rw [← middle, ← List.drop_drop, List.take_append_drop, List.take_append_drop]
  conv_rhs => rw [whole]
  rw [segment_sum_append, segment_sum_append, segment_sum_zeroes, Nat.zero_add]

end NetText
