-- SUMMARY: The range of a syntax error covers the words to blame.
import WitnessLift.Proofs.Model.Reading

/-!
# Where errors point

An error points at the words of its line that are to blame. Its bytes are counted as if every line
end before its line was a line feed alone, so they are too few by the carriage returns there.
-/

namespace WitnessLift

open Text (LineAt crlfs byteSize dropReturn)

namespace Model

variable {line text : List Char} {e : SyntaxError}

/-- The error of a line stands at the words to blame. -/
theorem exists_spans_of_mem_faults (h : '\n' ∉ line) (he : e ∈ faults line) :
    e.line = 1 ∧ ∃ left part right, Line.Spans line left part right ∧
      Line.Faulty (Line.words line) e.fault (Line.words left) (Line.words part) ∧
      e.start = byteSize left ∧ e.stop = byteSize (left ++ part) := by
  rw [faults_last h] at he
  split at he
  · next fault hfault =>
    obtain rfl := List.mem_singleton.mp he
    obtain ⟨before, t, among, after, htokens, hfaulty, hstart, hstop⟩ :=
      Line.blames_ofTokens? hfault
    have hstand := Token.stand_ofLine line
    rw [← hstand.words_eq] at hfaulty
    rw [htokens] at hstand
    obtain ⟨left, part, right, hspans, hleft, hpart, hbegin, hend⟩ := Line.exists_spans hstand
    rw [← hleft, ← hpart] at hfaulty
    rw [Nat.zero_add] at hbegin hend
    exact ⟨rfl, left, part, right, hspans, hfaulty, hstart.trans hbegin, hstop.trans hend⟩
  · cases he

/-- An error stands on its line at the words to blame, but for the carriage returns before it. -/
theorem exists_lineAt_of_mem_faults (he : e ∈ faults text) :
    ∃ before line after left part right, LineAt text e.line before line after ∧
      Line.Spans line left part right ∧
      Line.Faulty (Line.words line) e.fault (Line.words left) (Line.words part) ∧
      e.start + crlfs before = byteSize (before ++ left) ∧
      e.stop + crlfs before = byteSize (before ++ (left ++ part)) := by
  induction text using Text.line_induction generalizing e with
  | last line h =>
    obtain ⟨hnumber, left, part, right, hspans, hfaulty, hstart, hstop⟩ :=
      exists_spans_of_mem_faults h he
    rw [hnumber]
    exact ⟨[], line, [], left, part, right, Text.lineAt_last h, hspans, hfaulty, hstart, hstop⟩
  | line first rest h ih =>
    rw [faults_line h, List.mem_append] at he
    rcases he with he | he
    · obtain ⟨hnumber, left, part, right, hspans, hfaulty, hstart, hstop⟩ :=
        exists_spans_of_mem_faults h he
      rw [hnumber]
      exact ⟨[], first, '\n' :: rest, left, part, right, Text.lineAt_line h rest, hspans, hfaulty,
        hstart, hstop⟩
    · obtain ⟨e, hmem, rfl⟩ := List.mem_map.mp he
      obtain ⟨before, line, after, left, part, right, hat, hspans, hfaulty, hstart, hstop⟩ :=
        ih hmem
      -- The first line counts with its line feed, and a carriage return before that counts too.
      have hcount := Text.byteSize_dropReturn_add_crlfs h before
      have hshift (s : List Char) : byteSize ((first ++ '\n' :: before) ++ s) =
          byteSize (first ++ ['\n']) + byteSize (before ++ s) := by
        rw [← Text.byteSize_append]
        simp
      refine ⟨first ++ '\n' :: before, line, after, left, part, right, hat.behind h, hspans,
        hfaulty, ?_, ?_⟩
      · rw [hshift, ← hstart, SyntaxError.shift]
        dsimp only
        omega
      · rw [hshift, ← hstop, SyntaxError.shift]
        dsimp only
        omega

/-- An error is about words of its line, and these stand at its bytes once the carriage returns of
the line ends before that line are added. -/
theorem syntaxErrors_point (he : e ∈ syntaxErrors text) :
    ∃ before line after left part right, LineAt text e.line before line after ∧
      Line.Spans line left part right ∧
      Line.Faulty (Line.words line) e.fault (Line.words left) (Line.words part) ∧
      (∀ word, Line.words part = [word] → part = word.toList) ∧
      e.start < e.stop ∧
      e.start + crlfs before = byteSize (before ++ left) ∧
      e.stop + crlfs before = byteSize (before ++ (left ++ part)) ∧
      BitRange.text? ⟨e.start + crlfs before, e.stop + crlfs before⟩ text = some part ∧
      (crlfs text = 0 → BitRange.text? ⟨e.start, e.stop⟩ text = some part) := by
  rw [syntaxErrors_eq_faults] at he
  obtain ⟨before, line, after, left, part, right, hat, hspans, hfaulty, hstart, hstop⟩ :=
    exists_lineAt_of_mem_faults he
  have hwidth : e.stop + crlfs before = byteSize (before ++ left) + byteSize part := by
    rw [hstop, ← List.append_assoc, Text.byteSize_append]
  have hwhole : text = (before ++ left) ++ (part ++ (right ++ after)) := by
    rw [hat.whole, hspans.whole]
    simp
  have hpart : BitRange.text? ⟨e.start + crlfs before, e.stop + crlfs before⟩ text = some part := by
    rw [hstart, hwidth, hwhole]
    exact BitRange.text?_append (before ++ left) part (right ++ after)
  refine ⟨before, line, after, left, part, right, hat, hspans, hfaulty,
    fun word => hspans.eq_toList, ?_, hstart, hstop, hpart, fun hnone => ?_⟩
  · have hpositive := Text.byteSize_pos hspans.nonempty
    omega
  · have hfew := Text.crlfs_le_append before (line ++ after)
    rw [← hat.whole, hnone, Nat.le_zero] at hfew
    rwa [hfew] at hpart

/-- The second line has too few words. The one line end before it has a carriage return. -/
theorem syntaxErrors_point_few :
    ⟨.tooFewTokens "state" 3 2, 2, 7, 12⟩ ∈ syntaxErrors "; é\r\n2 state".toList ∧
    ∃ before line after left part right, LineAt "; é\r\n2 state".toList 2 before line after ∧
      Line.Spans line left part right ∧
      Line.Faulty (Line.words line) (.tooFewTokens "state" 3 2) (Line.words left)
        (Line.words part) ∧
      BitRange.text? ⟨7 + crlfs before, 12 + crlfs before⟩ "; é\r\n2 state".toList = some part := by
  have he : ⟨.tooFewTokens "state" 3 2, 2, 7, 12⟩ ∈ syntaxErrors "; é\r\n2 state".toList := by
    decide
  obtain ⟨before, line, after, left, part, right, hat, hspans, hfaulty, -, -, -, -, hpart, -⟩ :=
    syntaxErrors_point he
  exact ⟨he, before, line, after, left, part, right, hat, hspans, hfaulty, hpart⟩

end Model

end WitnessLift
