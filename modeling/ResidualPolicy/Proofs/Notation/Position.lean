import Mathlib.Data.List.Induction
import ResidualPolicy.Notation.Source

/-!
# Positions and lines

A position is counted up character by character, and lines are cut out of the text by themselves. Both
say the same: the position behind a text has counted its newlines, the characters since the last of
them and all bytes (`after_start`), and the line of that number is the piece around that place
(`Source.line_of_append`).
-/

namespace ResidualPolicy.Notation

/-! ## Positions -/

/-- Bytes of a text that is encoded in UTF-8. -/
def bytes (cs : List Char) : Nat :=
  (String.ofList cs).utf8ByteSize

@[simp]
theorem bytes_append (xs ys : List Char) : bytes (xs ++ ys) = bytes xs + bytes ys := by
  rw [bytes, String.ofList_append, String.utf8ByteSize_append, bytes, bytes]

@[simp]
theorem bytes_singleton (c : Char) : bytes [c] = c.utf8Size := by
  rw [bytes, ← String.singleton_eq_ofList, String.utf8ByteSize_singleton]

theorem length_le_bytes (cs : List Char) : cs.length ≤ bytes cs := by
  induction cs with
  | nil => exact Nat.le_refl 0
  | cons c cs ih =>
    have positive := c.utf8Size_pos
    rw [← List.singleton_append, bytes_append, bytes_singleton, List.length_append,
      List.length_singleton]
    omega

/-- The characters since the last newline. -/
def lineSoFar (cs : List Char) : List Char :=
  (cs.reverse.takeWhile (· != '\n')).reverse

theorem length_lineSoFar_le (cs : List Char) : (lineSoFar cs).length ≤ cs.length := by
  rw [lineSoFar, List.length_reverse, ← @List.length_reverse _ cs]
  exact (List.takeWhile_sublist _).length_le

/-- The characters up to the next newline. -/
def lineAhead (cs : List Char) : List Char :=
  cs.takeWhile (· != '\n')

theorem lineSoFar_append_newline (cs : List Char) : lineSoFar (cs ++ ['\n']) = [] := by
  rw [lineSoFar, List.reverse_append]
  rfl

theorem lineSoFar_append {c : Char} (other : c ≠ '\n') (cs : List Char) :
    lineSoFar (cs ++ [c]) = lineSoFar cs ++ [c] := by
  have kept : (c != '\n') = true := bne_iff_ne.mpr other
  rw [lineSoFar, List.reverse_append, List.reverse_singleton, List.singleton_append,
    List.takeWhile_cons, if_pos kept, List.reverse_cons, ← lineSoFar]

/-- The place behind a text. -/
theorem after_start (cs : List Char) :
    Position.start.after cs = ⟨1 + cs.count '\n', 1 + (lineSoFar cs).length, bytes cs⟩ := by
  induction cs using List.reverseRecOn with
  | nil => rfl
  | append_singleton cs c ih =>
    have behind : Position.start.after (cs ++ [c]) = (Position.start.after cs).next c :=
      Position.after_append _ cs [c]
    rw [behind, ih, Position.next, List.count_append, bytes_append, bytes_singleton]
    split
    · next newline =>
      subst newline
      rw [lineSoFar_append_newline]
      rfl
    · next other =>
      have none : [c].count '\n' = 0 := List.count_eq_zero.mpr (by simpa [eq_comm] using other)
      rw [lineSoFar_append other, none, List.length_append]
      rfl

/-! ## Lines -/

/-- The pieces of a text between its newlines. -/
def lines : List Char → List (List Char)
  | [] => [[]]
  | c :: rest =>
    if c = '\n' then [] :: lines rest
    else
      match lines rest with
      | [] => [[c]]
      | line :: more => (c :: line) :: more

theorem length_lines (cs : List Char) : (lines cs).length = cs.count '\n' + 1 := by
  induction cs with
  | nil => rfl
  | cons c cs ih =>
    rw [lines]
    split
    · next newline => rw [newline, List.count_cons_self, List.length_cons, ih]
    · next other =>
      rw [List.count_cons_of_ne other, ← ih]
      cases begun : lines cs with
      | nil =>
        rw [begun] at ih
        exact nomatch ih
      | cons line more => rfl

theorem lines_append_newline (before behind : List Char) :
    lines (before ++ '\n' :: behind) = lines before ++ lines behind := by
  induction before with
  | nil => rfl
  | cons c before ih =>
    rw [List.cons_append, lines, lines]
    split
    · next newline => rw [ih, List.cons_append]
    · next other =>
      have occupied := length_lines before
      cases begun : lines before with
      | nil =>
        rw [begun] at occupied
        exact nomatch occupied
      | cons line more =>
        rw [ih, begun]
        rfl

theorem head?_lines (cs : List Char) : (lines cs)[0]? = some (lineAhead cs) := by
  induction cs with
  | nil => rfl
  | cons c cs ih =>
    rw [lines, lineAhead, List.takeWhile_cons]
    split
    · next newline =>
      rw [newline]
      rfl
    · next other =>
      have kept : (c != '\n') = true := bne_iff_ne.mpr other
      rw [if_pos kept, ← lineAhead]
      cases begun : lines cs with
      | nil =>
        rw [begun] at ih
        exact nomatch ih
      | cons line more =>
        rw [begun] at ih
        rw [← Option.some.inj ih]
        rfl

/-- The piece between the newlines around a place. -/
theorem getElem?_lines (before behind : List Char) :
    (lines (before ++ behind))[before.count '\n']? =
      some (lineSoFar before ++ lineAhead behind) := by
  induction before using List.reverseRecOn generalizing behind with
  | nil => exact head?_lines behind
  | append_singleton before c ih =>
    rw [List.append_assoc, List.singleton_append, List.count_append]
    by_cases newline : c = '\n'
    · subst newline
      have count : before.count '\n' + ['\n'].count '\n' = (lines before).length :=
        (length_lines before).symm
      rw [lines_append_newline, count, List.getElem?_append_right (Nat.le_refl _), Nat.sub_self,
        head?_lines, lineSoFar_append_newline, List.nil_append]
    · have none : [c].count '\n' = 0 := List.count_eq_zero.mpr (by simpa [eq_comm] using newline)
      have kept : (c != '\n') = true := bne_iff_ne.mpr newline
      rw [none, Nat.add_zero, ih, lineAhead, List.takeWhile_cons, if_pos kept,
        lineSoFar_append newline, List.append_assoc]
      rfl

/-! ## The table of lines -/

theorem bytes_cons (c : Char) (cs : List Char) : bytes (c :: cs) = c.utf8Size + bytes cs := by
  rw [← List.singleton_append, bytes_append, bytes_singleton]

theorem dropBytes_append (front cs : List Char) (count : Nat) :
    dropBytes (count + bytes front) (front ++ cs) = dropBytes count cs := by
  induction front with
  | nil => rfl
  | cons c front ih =>
    obtain ⟨size, positive⟩ := Nat.exists_eq_add_one.mpr c.utf8Size_pos
    have more : count + bytes (c :: front) = count + bytes front + size + 1 := by
      rw [bytes_cons, positive]
      omega
    rw [List.cons_append, more, dropBytes, positive, Nat.add_sub_add_right, Nat.add_sub_cancel, ih]

theorem takeBytes_append (front cs : List Char) : takeBytes (bytes front) (front ++ cs) = front := by
  induction front with
  | nil => cases cs <;> rfl
  | cons c front ih =>
    obtain ⟨size, positive⟩ := Nat.exists_eq_add_one.mpr c.utf8Size_pos
    have more : bytes (c :: front) = bytes front + size + 1 := by
      rw [bytes_cons, positive]
      omega
    rw [List.cons_append, more, takeBytes, positive, Nat.add_sub_add_right, Nat.add_sub_cancel, ih]

/-- Behind some characters a slice is that of what follows them. -/
theorem slice_append (front cs : List Char) (first last : Nat) :
    slice (first + bytes front) (last + bytes front) (front ++ cs) = slice first last cs := by
  rw [slice, slice, Nat.add_sub_add_right, dropBytes_append]

theorem startsFrom_append (offset : Nat) (front cs : List Char) :
    startsFrom offset (front ++ cs) =
      startsFrom offset front ++ startsFrom (offset + bytes front) cs := by
  induction front generalizing offset with
  | nil => rfl
  | cons c front ih =>
    rw [List.cons_append, startsFrom, startsFrom, bytes_cons, ← Nat.add_assoc, ih]
    split <;> rfl

theorem startsFrom_eq_nil {cs : List Char} (single : '\n' ∉ cs) (offset : Nat) :
    startsFrom offset cs = [] := by
  induction cs generalizing offset with
  | nil => rfl
  | cons c cs ih =>
    obtain ⟨other, rest⟩ := List.ne_and_not_mem_of_not_mem_cons single
    rw [startsFrom, if_neg (Ne.symm other), ih rest]

theorem startsFrom_add (offset more : Nat) (cs : List Char) :
    startsFrom (offset + more) cs = (startsFrom offset cs).map (· + more) := by
  induction cs generalizing offset with
  | nil => rfl
  | cons c cs ih =>
    rw [startsFrom, startsFrom, Nat.add_right_comm, ih]
    split <;> rfl

/-- A line begins behind a newline. -/
theorem lt_of_mem_startsFrom {offset start : Nat} {cs : List Char}
    (member : start ∈ startsFrom offset cs) : offset < start := by
  induction cs generalizing offset with
  | nil => exact absurd member List.not_mem_nil
  | cons c cs ih =>
    have positive := c.utf8Size_pos
    rw [startsFrom] at member
    split at member
    · rcases List.mem_cons.mp member with rfl | later
      · omega
      · have := ih later
        omega
    · have := ih member
      omega

/-- A text is one line, or a line and a text behind its newline. -/
theorem exists_line (cs : List Char) :
    '\n' ∉ cs ∨ ∃ line rest, cs = line ++ '\n' :: rest ∧ '\n' ∉ line := by
  by_cases newline : '\n' ∈ cs
  · obtain ⟨line, rest, cut, first⟩ := List.eq_append_cons_of_mem newline
    exact .inr ⟨line, rest, cut, first⟩
  · exact .inl newline

theorem lines_eq_singleton {cs : List Char} (single : '\n' ∉ cs) : lines cs = [cs] := by
  induction cs with
  | nil => rfl
  | cons c cs ih =>
    obtain ⟨other, rest⟩ := List.ne_and_not_mem_of_not_mem_cons single
    rw [lines, if_neg (Ne.symm other), ih rest]

/-- Behind the first line everything is moved by the bytes of that line and its newline. -/
theorem lineStarts_line {line : List Char} (single : '\n' ∉ line) (rest : List Char) :
    lineStarts (line ++ ['\n'] ++ rest) =
      0 :: (lineStarts rest).map (· + bytes (line ++ ['\n'])) := by
  have newline : startsFrom 0 (line ++ ['\n']) = [0 + bytes (line ++ ['\n'])] := by
    rw [startsFrom_append, startsFrom_eq_nil single, bytes_append, bytes_singleton, Nat.zero_add,
      Nat.zero_add]
    rfl
  rw [lineStarts, startsFrom_append, newline, startsFrom_add, lineStarts, List.map_cons]
  rfl

theorem lineFrom?_zero {line : List Char} (single : '\n' ∉ line) (rest : List Char) :
    lineFrom? (line ++ ['\n'] ++ rest) 0 (bytes (line ++ ['\n'] ++ rest)) = some line := by
  have before : 0 + bytes (line ++ ['\n']) - 1 = bytes line := by
    rw [Nat.zero_add, bytes_append]
    rfl
  rw [lineFrom?, lineStarts_line single, lineStarts, List.map_cons]
  show some (slice 0 (0 + bytes (line ++ ['\n']) - 1) (line ++ ['\n'] ++ rest)) = some line
  rw [before, slice, Nat.sub_zero, dropBytes, List.append_assoc, takeBytes_append]

/-- Behind the first line the lines are those of the text there. -/
theorem lineFrom?_succ {line : List Char} (single : '\n' ∉ line) (rest : List Char) (index : Nat) :
    lineFrom? (line ++ ['\n'] ++ rest) (index + 1) (bytes (line ++ ['\n'] ++ rest)) =
      lineFrom? rest index (bytes rest) := by
  rw [lineFrom?, lineFrom?, lineStarts_line single, List.getElem?_cons_succ,
    List.getElem?_cons_succ, List.getElem?_map, List.getElem?_map, Option.map_map]
  refine congrArg (Option.map · _) (funext fun first => ?_)
  have last : ((lineStarts rest)[index + 1]?.map (· + bytes (line ++ ['\n']))).elim
      (bytes (line ++ ['\n'] ++ rest)) (· - 1) =
      (lineStarts rest)[index + 1]?.elim (bytes rest) (· - 1) + bytes (line ++ ['\n']) := by
    cases next : (lineStarts rest)[index + 1]? with
    | none => exact (bytes_append _ rest).trans (Nat.add_comm _ _)
    | some start =>
      have positive : 0 < start := lt_of_mem_startsFrom (List.mem_of_getElem? next)
      exact Nat.sub_add_comm positive
  rw [last]
  exact slice_append (line ++ ['\n']) rest first _

/-- The table gives the pieces of the text between its newlines. -/
theorem lineFrom?_eq_getElem? (cs : List Char) (index : Nat) :
    lineFrom? cs index (bytes cs) = (lines cs)[index]? := by
  induction index generalizing cs with
  | zero =>
    rcases exists_line cs with single | ⟨line, rest, rfl, single⟩
    · have whole := takeBytes_append cs []
      rw [List.append_nil] at whole
      rw [lines_eq_singleton single, lineFrom?, lineStarts, startsFrom_eq_nil single]
      show some (slice 0 (bytes cs) cs) = some cs
      rw [slice, Nat.sub_zero, dropBytes, whole]
    · rw [lines_append_newline, lines_eq_singleton single, List.append_cons,
        lineFrom?_zero single]
      rfl
  | succ index ih =>
    rcases exists_line cs with single | ⟨line, rest, rfl, single⟩
    · rw [lines_eq_singleton single, lineFrom?, lineStarts, startsFrom_eq_nil single]
      rfl
    · rw [lines_append_newline, lines_eq_singleton single, List.append_cons,
        lineFrom?_succ single, ih rest, List.singleton_append, List.getElem?_cons_succ]

/-- The line of that number is a piece between newlines, without carriage returns. -/
theorem Source.line_eq (source : Source) (index : Nat) :
    source.line (1 + index) = withoutReturns (((lines source.text.toList)[index]?).getD []) := by
  have positive : 1 + index ≠ 0 := by omega
  have size : source.text.utf8ByteSize = bytes source.text.toList := by
    rw [bytes, String.ofList_toList]
  rw [line, if_neg positive, Nat.add_sub_cancel_left, size, lineFrom?_eq_getElem?]

/-- Only carriage returns are taken off the end of a line, and all of them. -/
theorem exists_returns (line : List Char) :
    ∃ count, line = withoutReturns line ++ List.replicate count '\x0d' ∧
      (withoutReturns line).getLast? ≠ some '\x0d' := by
  refine ⟨(line.reverse.takeWhile (· == '\x0d')).length, ?_, ?_⟩
  · have split := List.takeWhile_append_dropWhile (p := (· == '\x0d')) (l := line.reverse)
    have returns : line.reverse.takeWhile (· == '\x0d') =
        List.replicate (line.reverse.takeWhile (· == '\x0d')).length '\x0d' := by
      refine List.eq_replicate_iff.mpr ⟨rfl, fun c member => ?_⟩
      exact beq_iff_eq.mp (List.all_eq_true.mp List.all_takeWhile c member)
    rw [returns] at split
    have whole := congrArg List.reverse split
    rw [List.reverse_append, List.reverse_reverse, List.reverse_replicate] at whole
    exact whole.symm
  · have stop := List.head?_dropWhile_not (· == '\x0d') line.reverse
    rw [withoutReturns, List.getLast?_reverse]
    intro last
    rw [last] at stop
    exact Bool.false_ne_true stop.symm

/-- The line of the number that the place behind `before` has. -/
theorem Source.line_of_append {source : Source} {before behind : List Char}
    (text : source.text.toList = before ++ behind) :
    source.line (1 + before.count '\n') = withoutReturns (lineSoFar before ++ lineAhead behind) := by
  rw [line_eq, text, getElem?_lines, Option.getD_some]

end ResidualPolicy.Notation
