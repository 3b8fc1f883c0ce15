import SqlComposer.Proofs.Owners

/-!
# Cutting statements

A statement is read from no open section on. If a further text begins with a line that opens a
section, the section that the lines before it leave open is forgotten there, and a limit or an
offset in front of that line does not look at it. So such a text can be read along with the
statement before it, or by itself afterwards.
-/

namespace SqlComposer.Statement

/-- The first line that neither `LIMIT` nor `OFFSET` opens is one that opens a section, if there is
such a line. -/
def StartsSection (lines : List Text) : Prop :=
  ∀ line ∈ lines.find? fun line => !Keyword.limit.opens line && !Keyword.offset.opens line,
    ∃ k ∈ ownerKeywords, k.opens line = true

/-- A line that a keyword opens is read alike in every section. -/
theorem applyLine_eq_of_opens {k : Keyword} {line : Text} (hk : k ∈ keywords)
    (h : k.opens line = true) (c : Clauses) (current current' : Section) :
    applyLine current c line = applyLine current' c line := by
  obtain ⟨operand, hkeyword⟩ := keyword?_of_opens hk h
  rw [applyLine, applyLine, hkeyword]

/-- A line that opens a section leaves this section open, whichever was open before. -/
theorem sectionAfter_eq_of_opens {k : Keyword} {line : Text} (hk : k ∈ ownerKeywords)
    (h : k.opens line = true) (current : Section) :
    sectionAfter current line = sectionOf .none k := by
  obtain ⟨operand, hkeyword⟩ := keyword?_of_opens (ownerKeywords_subset hk) h
  rw [sectionAfter, hkeyword]
  cases k with
  | limit | offset | conjunction | disjunction => exact absurd hk (by decide)
  | _ => rfl

/-- A line of a limit or an offset leaves the section as it is. -/
theorem sectionAfter_eq_self_of_opens {k : Keyword} {line : Text} (hk : k ∈ [.limit, .offset])
    (h : k.opens line = true) (current : Section) : sectionAfter current line = current := by
  have hsubset : [Keyword.limit, .offset] ⊆ keywords := by decide
  obtain ⟨operand, hkeyword⟩ := keyword?_of_opens (hsubset hk) h
  rw [sectionAfter, hkeyword]
  simp only [List.mem_cons, List.not_mem_nil, or_false] at hk
  rcases hk with rfl | rfl <;> rfl

/-- Lines that start a section are read alike in every section. -/
theorem StartsSection.readLines_eq {lines : List Text} (h : StartsSection lines) (c : Clauses)
    (current current' : Section) : readLines current c lines = readLines current' c lines := by
  induction lines generalizing c with
  | nil => rfl
  | cons line lines ih =>
    by_cases hbound : ∃ k ∈ [Keyword.limit, .offset], k.opens line = true
    · -- the section is kept, and matters as little to this line as to those behind it
      obtain ⟨k, hk, hopens⟩ := hbound
      have hsubset : [Keyword.limit, .offset] ⊆ keywords := by decide
      have hrest : StartsSection lines := by
        have hskip : (!Keyword.limit.opens line && !Keyword.offset.opens line) = false := by
          simp only [List.mem_cons, List.not_mem_nil, or_false] at hk
          rcases hk with rfl | rfl <;> simp [hopens]
        rwa [StartsSection, List.find?_cons, hskip] at h
      rw [readLines, readLines, sectionAfter_eq_self_of_opens hk hopens,
        sectionAfter_eq_self_of_opens hk hopens,
        applyLine_eq_of_opens (hsubset hk) hopens c current current']
      exact ih hrest _
    · have hfirst : (!Keyword.limit.opens line && !Keyword.offset.opens line) = true := by
        simpa using hbound
      rw [StartsSection, List.find?_cons, hfirst] at h
      obtain ⟨k, hk, hopens⟩ := h line rfl
      rw [readLines, readLines, sectionAfter_eq_of_opens hk hopens,
        sectionAfter_eq_of_opens hk hopens,
        applyLine_eq_of_opens (ownerKeywords_subset hk) hopens c current current']

/-- Lines that start a section are read from no open section on, whatever lines stand before. -/
theorem StartsSection.readLines_append {lines later : List Text} (h : StartsSection later)
    (c : Clauses) :
    readLines .none c (lines ++ later) = readLines .none (readLines .none c lines) later := by
  rw [Statement.readLines_append]
  exact h.readLines_eq _ _ _

/-- A text that starts a section, on lines of its own behind a statement, is read as by itself after
the statement. -/
theorem read_append_feed (c : Clauses) (s t : Text) (h : StartsSection (linesOf t)) :
    read c (s ++ '\n' :: t) = read (read c s) t := by
  rw [read, linesOf_append, h.readLines_append, read, read]

/-- A cut between conditions and a limit, which stands before an offset and a join. -/
theorem read_append_feed_limit :
    let c : Clauses := { conditions := [['z']] }
    let s := "SELECT a\n  , b\nWHERE p\n\n".toList
    let t := "  limit 5 \n\nOFFSET 6\n Left Outer JOIN u\nw\nGROUP BY g".toList
    StartsSection (linesOf t) ∧ read c (s ++ '\n' :: t) = read (read c s) t ∧
      read c (s ++ '\n' :: t) =
        { select := [['a'], ['b']], joins := ["Left Outer JOIN u".toList]
          conditions := [['z'], ['p']], groupBy := [['g']], limit := some ['5']
          offset := some ['6'] } := by
  intro c s t
  have hstarts : StartsSection (linesOf t) := by
    have hfirst : (linesOf t).find?
        (fun line => !Keyword.limit.opens line && !Keyword.offset.opens line) =
          some "Left Outer JOIN u".toList := by decide +kernel
    rw [StartsSection, hfirst]
    rintro line ⟨⟩
    exact ⟨.join, by decide, by decide +kernel⟩
  exact ⟨hstarts, read_append_feed c s t hstarts, by decide +kernel⟩

end SqlComposer.Statement
